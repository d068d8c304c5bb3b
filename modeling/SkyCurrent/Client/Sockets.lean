import SkyCurrent.Client.Steps

/- Sockets come and go, and every one keeps its handlers. What the events of those that have been
   replaced or closed do to the globals. -/
namespace Client

open Runs

/-- The open event of the current socket has been handled, its close event has not. -/
def State.established (s : State) : Bool :=
  s.webSocket.any fun g => (s.sockets[g]?).any fun socket =>
    socket.openEvent == .handled && socket.closeEvent != .handled

def State.later (s : State) (ls : List Label) : State :=
  ls.foldl (fun s l => (step s l).getD s) s

/-- An event of the socket changes neither isConnected() nor, whatever else comes, how many
    sockets have been made when. -/
structure Unaffected (g : Nat) (s t : State) : Prop where
  isConnected : t.isConnectedInternal = s.isConnectedInternal
  sockets : ∀ ls, (∀ l ∈ ls, l ≠ .openEvent g ∧ l ≠ .closeEvent g) →
    (t.later ls).sockets.length = (s.later ls).sockets.length

structure FollowsCurrent (trace : List (State × Label)) (t : State) : Prop where
  superseded : ∀ before s l g, trace = before ++ [(s, l)] → l = .openEvent g ∨ l = .closeEvent g →
    s.webSocket ≠ some g → Unaffected g s t
  connected : t.established = true → t.isConnectedInternal = true
  disconnected : ∀ before s l, trace = before ++ [(s, l)] →
    (l = .close ∨ ∃ g, l = .closeEvent g ∧ s.webSocket = some g) → t.isConnectedInternal = false
  closed : ∀ before s l, trace = before ++ [(s, l)] → s.userClosed = true → l ≠ .init →
    t.sockets.length = s.sockets.length

/-- No superseded socket has its close event, or its open event while the client is not connected;
    no continuation of init comes between close() and the next init(); and none fails to make a
    socket before the close event of the current one. -/
def CurrentOnly (s : State) : Label → Prop
  | .openEvent g => s.webSocket = some g ∨ s.isConnectedInternal = true
  | .closeEvent g => s.webSocket = some g
  | .initContinues queueMade true => s.queue = true ∨ queueMade = true → s.userClosed = false
  | .initContinues queueMade false => s.Connects queueMade → s.established = false
  | _ => True

instance (s : State) : (l : Label) → Decidable (CurrentOnly s l)
  | .openEvent _ => inferInstanceAs (Decidable (_ ∨ _))
  | .closeEvent _ => inferInstanceAs (Decidable (_ = _))
  | .initContinues queueMade true =>
      inferInstanceAs (Decidable (s.queue = true ∨ queueMade = true → s.userClosed = false))
  | .initContinues queueMade false =>
      inferInstanceAs (Decidable (s.Connects queueMade → s.established = false))
  | .init | .sendStream _ _ | .close | .timer | .opens _ | .closing _ | .closes _
  | .errorEvent _ => inferInstanceAs (Decidable True)

section Established

variable {s t : State} {g : Nat} {socket socket' : Socket}

theorem established_iff : s.established = true ↔ ∃ g socket, s.webSocket = some g ∧
    s.sockets[g]? = some socket ∧ socket.openEvent = .handled ∧ socket.closeEvent ≠ .handled := by
  simp [State.established, Option.any_eq_true]

theorem established_put (here : s.sockets[g]? = some socket)
    (late : socket'.openEvent = .handled → socket'.closeEvent ≠ .handled →
      socket.openEvent = .handled ∧ socket.closeEvent ≠ .handled)
    (established : (s.put g socket').established = true) : s.established = true := by
  rw [established_iff] at established ⊢
  obtain ⟨h, now, current, there, opened, running⟩ := established
  by_cases same : g = h
  · subst same
    have range := (List.getElem?_eq_some_iff.mp here).1
    have this : socket' = now := by simpa [State.put, range] using there
    rw [← this] at opened running
    exact ⟨g, socket, current, here, late opened running⟩
  · have this : s.sockets[h]? = some now := by
      simpa [State.put, List.getElem?_set_ne same] using there
    exact ⟨h, now, current, this, opened, running⟩

theorem browser_late {l : Label} {move : Socket → Option Socket}
    (of : l.browser = some (g, move)) (moves : move socket = some socket')
    (opened : socket'.openEvent = .handled) (running : socket'.closeEvent ≠ .handled) :
    socket.openEvent = .handled ∧ socket.closeEvent ≠ .handled := by
  cases l with
  | opens h =>
    cases of
    simp only [Socket.opens, Option.dite_none_right_eq_some, Option.some.injEq] at moves
    obtain ⟨_, rfl⟩ := moves
    cases opened
  | closing h =>
    cases of
    simp only [Socket.closing, Option.dite_none_right_eq_some, Option.some.injEq] at moves
    obtain ⟨_, rfl⟩ := moves
    exact ⟨opened, running⟩
  | closes h =>
    cases of
    simp only [Socket.closes, Option.ite_none_left_eq_some, Option.some.injEq] at moves
    obtain ⟨notClosed, rfl⟩ := moves
    refine ⟨opened, ?_⟩
    rw [socket.late.mpr notClosed]
    simp
  | errorEvent h =>
    cases of
    cases moves
    exact ⟨opened, running⟩
  | init => cases of
  | sendStream payload headerSize => cases of
  | close => cases of
  | timer => cases of
  | initContinues queueMade constructed => cases of
  | openEvent h => cases of
  | closeEvent h => cases of

end Established

section Steps

variable {s t : State} {l : Label} {g : Nat} {trace : List (State × Label)}

structure Steady (s : State) : Prop where
  connected : s.established = true → s.isConnectedInternal = true
  off : s.webSocket = none → s.isConnectedInternal = false
  closed : s.userClosed = true → s.webSocket = none

theorem steady_reconnects (ended : s.established = false)
    (closed : s.userClosed = true → s.webSocket = none) : Steady s.reconnects := by
  refine ⟨?_, fun _ => rfl, closed⟩
  intro established
  have before : s.established = true := established
  rw [ended] at before
  cases before

theorem ended_put {socket socket' : Socket} (current : s.webSocket = some g)
    (here : s.sockets[g]? = some socket) (moves : socket.takesClose = some socket') :
    (s.put g socket').established = false := by
  have range := (List.getElem?_eq_some_iff.mp here).1
  simp only [Socket.takesClose, Option.dite_none_right_eq_some, Option.some.injEq] at moves
  obtain ⟨_, rfl⟩ := moves
  simp [State.established, State.put, current, range]

theorem Steady.step (steady : Steady s) (only : CurrentOnly s l) (move : Takes s l t) :
    Steady t := by
  cases move with
  | init => exact ⟨steady.connected, steady.off, fun closed => (by cases closed)⟩
  | sends here => exact ⟨steady.connected, steady.off, steady.closed⟩
  | waits none_ down => exact ⟨steady.connected, steady.off, steady.closed⟩
  | rejects none_ up => exact ⟨steady.connected, steady.off, steady.closed⟩
  | closesNothing none_ => exact ⟨steady.connected, steady.off, fun _ => none_⟩
  | timer due => exact ⟨steady.connected, steady.off, steady.closed⟩
  | keeps queue pending idle => exact ⟨steady.connected, steady.off, steady.closed⟩
  | closesSocket here =>
    exact ⟨fun established => (by cases established), fun _ => rfl, fun _ => rfl⟩
  | constructs pending connects =>
    refine ⟨fun established => ?_, fun none_ => (by cases none_), fun closed => ?_⟩
    swap
    · have before : s.userClosed = true := closed
      rw [only connects.1] at before
      cases before
    obtain ⟨g, socket, current, here, opened, _⟩ := established_iff.mp established
    cases current
    have new : Socket.new = socket := by
      simpa [State.constructs, State.withQueue] using here
    rw [← new] at opened
    cases opened
  | fails pending connects => exact steady_reconnects (only connects) steady.closed
  | browser of here moves =>
    refine ⟨fun established => steady.connected ?_, steady.off, steady.closed⟩
    exact established_put here (browser_late of moves) established
  | @openEvent g socket socket' here moves =>
    obtain ⟨made, waiting, sent, same⟩ := onOpen_withSends (s.put g socket')
    rw [same]
    refine ⟨fun _ => rfl, fun none_ => ?_, steady.closed⟩
    have before : s.webSocket = none := none_
    rcases only with current | up
    · rw [before] at current
      cases current
    · rw [steady.off before] at up
      cases up
  | closeEvent here moves => exact steady_reconnects (ended_put only here moves) steady.closed

theorem steady_of_run (run : ClientRun trace s) (meets : Meets CurrentOnly trace) : Steady s := by
  refine run_invariant (fun _ s => Steady s) ?_ ?_ run meets
  · rintro s rfl
    exact ⟨fun established => (by cases established), fun _ => rfl, fun _ => rfl⟩
  · intro _ s l t _ steady only move
    exact steady.step only (step_cases move)

theorem sockets_made (move : Takes s l t) : t.sockets.length = s.sockets.length ∨
    ∃ queueMade, l = .initContinues queueMade true ∧ s.Connects queueMade ∧
      t.sockets.length = s.sockets.length + 1 := by
  cases move with
  | constructs pending connects => exact Or.inr ⟨_, rfl, connects, by
      simp [State.constructs, State.withQueue]⟩
  | @openEvent g socket socket' here moves =>
    obtain ⟨made, waiting, sent, same⟩ := onOpen_withSends (s.put g socket')
    rw [same]
    exact Or.inl (by simp [State.withSends, State.up, State.put])
  | closesSocket here => exact Or.inl (by simp [State.closesSocket])
  | browser of here moves => exact Or.inl (by simp [State.put])
  | closeEvent here moves => exact Or.inl (by simp [State.reconnects, State.down, State.put])
  | init => exact Or.inl rfl
  | sends here => exact Or.inl rfl
  | waits none_ down => exact Or.inl rfl
  | rejects none_ up => exact Or.inl rfl
  | closesNothing none_ => exact Or.inl rfl
  | timer due => exact Or.inl rfl
  | keeps queue pending idle => exact Or.inl rfl
  | fails pending connects => exact Or.inl rfl

theorem takes_current (takes : Takes s l t)
    (current : ∀ g, s.webSocket = some g → g < s.sockets.length) :
    ∀ g, t.webSocket = some g → g < t.sockets.length := by
  intro g here
  have longer : s.sockets.length ≤ t.sockets.length := by
    rcases sockets_made takes with same | ⟨_, _, _, longer⟩ <;> omega
  cases takes with
  | constructs pending connects =>
    simp only [State.constructs, State.withQueue] at here ⊢
    cases here
    simp
  | closesSocket current' => cases here
  | openEvent there moves =>
    obtain ⟨made, waiting, sent, same⟩ := onOpen_withSends (s.put _ _)
    rw [same] at here
    exact Nat.lt_of_lt_of_le (current g here) longer
  | _ => exact Nat.lt_of_lt_of_le (current g here) longer

end Steps

section Later

variable {s t : State} {l : Label} {g : Nat}

structure Alike (g : Nat) (s t : State) : Prop where
  current : t.webSocket = s.webSocket
  apart : s.webSocket ≠ some g
  made : g < s.sockets.length
  length : t.sockets.length = s.sockets.length
  others : ∀ h, h ≠ g → t.sockets[h]? = s.sockets[h]?
  timers : t.timers = s.timers
  inits : t.inits = s.inits
  queue : t.queue = s.queue

structure SameSockets (s s' : State) : Prop where
  current : s'.webSocket = s.webSocket
  sockets : s'.sockets = s.sockets
  timers : s'.timers = s.timers
  inits : s'.inits = s.inits
  queue : s'.queue = s.queue

theorem onOpen_same (s : State) : SameSockets s s.onOpen := by
  obtain ⟨made, waiting, sent, same⟩ := onOpen_withSends s
  rw [same]
  exact ⟨rfl, rfl, rfl, rfl, rfl⟩

theorem sendStream_same (s : State) (payload : List UInt8) (headerSize : Nat) :
    SameSockets s (s.sendStream payload headerSize) := by
  cases here : s.openSocket with
  | some g =>
    rw [sendStream_some here]
    exact ⟨rfl, rfl, rfl, rfl, rfl⟩
  | none =>
    rw [sendStream_none here]
    split
    · exact ⟨rfl, rfl, rfl, rfl, rfl⟩
    · exact ⟨rfl, rfl, rfl, rfl, rfl⟩

theorem Alike.same {s' t' : State} (alike : Alike g s t) (left : SameSockets s s')
    (right : SameSockets t t') : Alike g s' t' where
  current := right.current.trans (alike.current.trans left.current.symm)
  apart := by
    rw [left.current]
    exact alike.apart
  made := by
    rw [left.sockets]
    exact alike.made
  length := by
    rw [right.sockets, left.sockets]
    exact alike.length
  others := by
    rw [right.sockets, left.sockets]
    exact alike.others
  timers := right.timers.trans (alike.timers.trans left.timers.symm)
  inits := right.inits.trans (alike.inits.trans left.inits.symm)
  queue := right.queue.trans (alike.queue.trans left.queue.symm)

theorem Alike.readyState (alike : Alike g s t) : t.readyState = s.readyState := by
  unfold State.readyState
  rw [alike.current]
  cases current : s.webSocket with
  | none => rfl
  | some h =>
    have apart : h ≠ g := by
      rintro rfl
      exact alike.apart current
    simp [alike.others h apart]

theorem Alike.put {socket socket' : Socket} {h : Nat} (alike : Alike g s t)
    (same : h ≠ g → socket' = socket) : Alike g (s.put h socket) (t.put h socket') where
  current := alike.current
  apart := alike.apart
  made := by simpa [State.put] using alike.made
  length := by simpa [State.put] using alike.length
  others := by
    intro d other
    by_cases here : h = d
    · subst here
      rw [same other]
      simp [State.put, List.getElem?_set_self', alike.others h other]
    · simp [State.put, List.getElem?_set_ne here, alike.others d other]
  timers := alike.timers
  inits := alike.inits
  queue := alike.queue

theorem alike_put {socket : Socket} (made : g < s.sockets.length) (apart : s.webSocket ≠ some g) :
    Alike g s (s.put g socket) where
  current := rfl
  apart := apart
  made := made
  length := by simp [State.put]
  others := fun h other => by simp [State.put, List.getElem?_set_ne other.symm]
  timers := rfl
  inits := rfl
  queue := rfl

theorem Alike.symm (alike : Alike g s t) : Alike g t s where
  current := alike.current.symm
  apart := alike.current ▸ alike.apart
  made := alike.length ▸ alike.made
  length := alike.length.symm
  others := fun h other => (alike.others h other).symm
  timers := alike.timers.symm
  inits := alike.inits.symm
  queue := alike.queue.symm

theorem Alike.trans {u : State} (first : Alike g s t) (second : Alike g t u) : Alike g s u where
  current := second.current.trans first.current
  apart := first.apart
  made := first.made
  length := second.length.trans first.length
  others := fun h other => (second.others h other).trans (first.others h other)
  timers := second.timers.trans first.timers
  inits := second.inits.trans first.inits
  queue := second.queue.trans first.queue

theorem alike_moves (made : g < s.sockets.length) (apart : s.webSocket ≠ some g)
    (move : Socket → Option Socket) : Alike g s ((s.moves g move).getD s) := by
  have same : Alike g s s := ⟨rfl, apart, made, rfl, fun _ _ => rfl, rfl, rfl, rfl⟩
  cases moved : s.moves g move with
  | none => exact same
  | some u =>
    obtain ⟨socket, socket', _, _, rfl⟩ := moves_cases moved
    exact alike_put made apart

theorem Alike.moves {h : Nat} (alike : Alike g s t) (other : h ≠ g)
    (move : Socket → Option Socket) : s.moves h move = none ∧ t.moves h move = none ∨
      ∃ u v, s.moves h move = some u ∧ t.moves h move = some v ∧ Alike g u v := by
  have same := alike.others h other
  unfold State.moves
  rw [same]
  cases s.sockets[h]? with
  | none => exact Or.inl ⟨rfl, rfl⟩
  | some socket =>
    cases moved : move socket with
    | none => exact Or.inl ⟨by simp [moved], by simp [moved]⟩
    | some socket' =>
      exact Or.inr ⟨s.put h socket', t.put h socket', by simp [moved, State.put],
        by simp [moved, State.put], alike.put fun _ => rfl⟩

theorem Alike.browser (alike : Alike g s t) (h : Nat) (move : Socket → Option Socket) :
    Alike g ((s.moves h move).getD s) ((t.moves h move).getD t) := by
  by_cases mine : h = g
  · subst mine
    have left := alike_moves alike.made alike.apart move
    have right := alike_moves alike.symm.made alike.symm.apart move
    exact left.symm.trans (alike.trans right)
  · rcases alike.moves mine move with ⟨left, right⟩ | ⟨u, v, left, right, after⟩
    · rw [left, right]
      exact alike
    · rw [left, right]
      exact after

theorem Alike.connects (alike : Alike g s t) (queueMade : Bool) :
    t.Connects queueMade ↔ s.Connects queueMade := by
  unfold State.Connects
  rw [alike.queue, alike.current, alike.readyState]

theorem Alike.initContinues (alike : Alike g s t) (queueMade constructed : Bool) :
    Alike g (s.initContinues queueMade constructed) (t.initContinues queueMade constructed) := by
  by_cases connects : s.Connects queueMade
  · rw [initContinues_of_connects connects,
      initContinues_of_connects ((alike.connects queueMade).mpr connects)]
    cases constructed with
    | true =>
      refine ⟨congrArg some alike.length, ?_, ?_, ?_, ?_, alike.timers, alike.inits, rfl⟩
      · intro same
        exact Nat.ne_of_gt alike.made (Option.some.inj same)
      · simpa [State.constructs, State.withQueue] using Nat.lt_succ_of_lt alike.made
      · simpa [State.constructs, State.withQueue] using alike.length
      · intro h other
        simp only [State.constructs, State.withQueue, if_true]
        rcases Nat.lt_or_ge h s.sockets.length with range | beyond
        · rw [List.getElem?_append_left range, List.getElem?_append_left (alike.length ▸ range)]
          exact alike.others h other
        · rw [List.getElem?_append_right beyond,
            List.getElem?_append_right (alike.length ▸ beyond), alike.length]
    | false =>
      exact ⟨alike.current, alike.apart, alike.made, alike.length, alike.others,
        congrArg (· + 1) alike.timers, alike.inits, rfl⟩
  · have idle : ¬ t.Connects queueMade := fun h => connects ((alike.connects queueMade).mp h)
    rw [initContinues_of_not connects, initContinues_of_not idle]
    exact ⟨alike.current, alike.apart, alike.made, alike.length, alike.others, alike.timers,
      alike.inits, by rw [alike.queue]⟩

theorem Alike.close (alike : Alike g s t) : Alike g s.close t.close := by
  cases here : s.webSocket with
  | none =>
    rw [close_none here, close_none (alike.current.trans here)]
    exact ⟨alike.current, alike.apart, alike.made, alike.length, alike.others, alike.timers,
      alike.inits, alike.queue⟩
  | some h =>
    rw [close_some here, close_some (alike.current.trans here)]
    refine ⟨rfl, nofun, ?_, ?_, ?_, alike.timers, alike.inits, alike.queue⟩
    · simpa [State.closesSocket] using alike.made
    · simpa [State.closesSocket] using alike.length
    · intro d other
      simp [State.closesSocket, List.getElem?_modify, alike.others d other]

theorem Alike.step (alike : Alike g s t) (other : l ≠ .openEvent g ∧ l ≠ .closeEvent g) :
    Alike g ((step s l).getD s) ((step t l).getD t) := by
  cases l with
  | init =>
    exact ⟨alike.current, alike.apart, alike.made, alike.length, alike.others, alike.timers,
      congrArg (· + 1) alike.inits, alike.queue⟩
  | sendStream payload headerSize =>
    exact alike.same (sendStream_same s payload headerSize) (sendStream_same t payload headerSize)
  | close => exact alike.close
  | timer =>
    simp only [Client.step, alike.timers]
    split
    · exact ⟨alike.current, alike.apart, alike.made, alike.length, alike.others, rfl,
        congrArg (· + 1) alike.inits, alike.queue⟩
    · exact alike
  | initContinues queueMade constructed =>
    simp only [Client.step, alike.inits]
    split
    · apply Alike.initContinues
      exact ⟨alike.current, alike.apart, alike.made, alike.length, alike.others, alike.timers,
        rfl, alike.queue⟩
    · exact alike
  | opens h => exact alike.browser h _
  | closing h => exact alike.browser h _
  | closes h => exact alike.browser h _
  | errorEvent h => exact alike.browser h _
  | openEvent h =>
    have apart : h ≠ g := fun same => other.1 (same ▸ rfl)
    rcases alike.moves apart Socket.takesOpen with ⟨left, right⟩ | ⟨u, v, left, right, after⟩
    · simp only [Client.step, left, right]
      exact alike
    · simp only [Client.step, left, right]
      exact after.same (onOpen_same u) (onOpen_same v)
  | closeEvent h =>
    have apart : h ≠ g := fun same => other.2 (same ▸ rfl)
    rcases alike.moves apart Socket.takesClose with ⟨left, right⟩ | ⟨u, v, left, right, after⟩
    · simp only [Client.step, left, right]
      exact alike
    · simp only [Client.step, left, right, Option.map_some, Option.getD_some, onClose_eq]
      exact ⟨after.current, after.apart, after.made, after.length, after.others,
        congrArg (· + 1) after.timers, after.inits, after.queue⟩

theorem Alike.later (alike : Alike g s t) {ls : List Label}
    (others : ∀ l ∈ ls, l ≠ .openEvent g ∧ l ≠ .closeEvent g) :
    Alike g (s.later ls) (t.later ls) := by
  induction ls generalizing s t with
  | nil => exact alike
  | cons l rest ih =>
    exact ih (alike.step (others l (by simp))) fun l' member => others l' (by simp [member])

theorem unaffected_open (up : s.isConnectedInternal = true) (apart : s.webSocket ≠ some g)
    (move : Takes s (.openEvent g) t) : Unaffected g s t := by
  cases move with
  | browser of _ _ => cases of
  | @openEvent g socket socket' here moves =>
    have made := (List.getElem?_eq_some_iff.mp here).1
    have alike : Alike g s (s.put g socket').onOpen :=
      (alike_put made apart).same ⟨rfl, rfl, rfl, rfl, rfl⟩ (onOpen_same _)
    refine ⟨?_, fun ls others => (alike.later others).length⟩
    obtain ⟨made, waiting, sent, same⟩ := onOpen_withSends (s.put g socket')
    rw [same]
    exact up.symm

def State.prospects (s : State) : Nat := s.sockets.length + s.inits + s.timers

def Label.Idle (l : Label) : Prop := l ≠ .init ∧ ∀ g, l ≠ .closeEvent g

theorem prospects_step (idle : l.Idle) (move : Takes s l t) : t.prospects ≤ s.prospects := by
  unfold State.prospects
  cases move with
  | init => exact absurd rfl idle.1
  | closeEvent here moves => exact absurd rfl (idle.2 _)
  | closesSocket here => simp [State.closesSocket, State.down]
  | timer due =>
    simp only
    omega
  | keeps queue pending connects =>
    simp only
    omega
  | constructs pending connects =>
    simp only [State.constructs, State.withQueue, List.length_append, List.length_singleton]
    omega
  | fails pending connects =>
    simp only [State.reconnects, State.down, State.withQueue]
    omega
  | browser of here moves => simp [State.put]
  | @openEvent g socket socket' here moves =>
    obtain ⟨made, waiting, sent, same⟩ := onOpen_withSends (s.put g socket')
    rw [same]
    simp [State.withSends, State.up, State.put]
  | _ => exact Nat.le_refl _

theorem prospects_later {ls : List Label} (idle : ∀ l ∈ ls, l.Idle) :
    (s.later ls).sockets.length ≤ s.prospects := by
  induction ls generalizing s with
  | nil =>
    change s.sockets.length ≤ s.prospects
    unfold State.prospects
    omega
  | cons l rest ih =>
    have first : ((step s l).getD s).prospects ≤ s.prospects := by
      cases move : step s l with
      | none => exact Nat.le_refl _
      | some t => exact prospects_step (idle l (by simp)) (step_cases move)
    exact Nat.le_trans (ih fun l' member => idle l' (by simp [member])) first

theorem later_append (s : State) (ls ls' : List Label) :
    s.later (ls ++ ls') = (s.later ls).later ls' := List.foldl_append ..

theorem current_later (current : ∀ g, s.webSocket = some g → g < s.sockets.length)
    (ls : List Label) :
    ∀ g, (s.later ls).webSocket = some g → g < (s.later ls).sockets.length := by
  induction ls generalizing s with
  | nil => exact current
  | cons l rest ih =>
    have first : ∀ g, ((step s l).getD s).webSocket = some g →
        g < ((step s l).getD s).sockets.length := by
      cases move : step s l with
      | none => exact current
      | some t => exact takes_current (step_cases move) current
    exact ih first

theorem closes_connects (current : ∀ g, s.webSocket = some g → g < s.sockets.length) :
    ∃ ls, (∀ l ∈ ls, ∃ g, l = .closes g) ∧ (∀ queueMade, s.queue = true ∨ queueMade = true →
      (s.later ls).Connects queueMade) ∧ (s.later ls).sockets.length = s.sockets.length ∧
      (s.later ls).inits = s.inits ∧ (s.later ls).timers = s.timers := by
  cases here : s.webSocket with
  | none =>
    exact ⟨[], by simp, fun queueMade queue => ⟨queue, Or.inl here⟩, rfl, rfl, rfl⟩
  | some g =>
    have range := current g here
    by_cases closed : s.sockets[g].readyState = .closed
    · refine ⟨[], by simp, fun queueMade queue => ⟨queue, Or.inr (Or.inr ?_)⟩, rfl, rfl, rfl⟩
      simp [State.later, State.readyState, here, range, closed]
    · have move : step s (.closes g) = some (s.put g
          { s.sockets[g] with
            readyState := .closed
            closeEvent := .queued
            early := by simp
            late := by simp }) := by
        simp [Client.step, State.moves, Socket.closes, range, closed, State.put]
      refine ⟨[.closes g], by simp, ?_⟩
      simp only [State.later, List.foldl_cons, List.foldl_nil, move, Option.getD_some]
      refine ⟨fun queueMade queue => ⟨queue, Or.inr (Or.inr ?_)⟩, by simp [State.put], rfl, rfl⟩
      simp [State.readyState, State.put, here, range]

theorem init_makes (connects : s.Connects true) (due : 0 < s.inits + s.timers) :
    ∃ ls : List Label, (∀ l ∈ ls, l.Idle ∧ ∀ g, l ≠ .openEvent g) ∧
      (s.later ls).webSocket = some s.sockets.length ∧
      (s.later ls).sockets.length = s.sockets.length + 1 ∧
      (s.later ls).inits + (s.later ls).timers + 1 = s.inits + s.timers := by
  by_cases pending : 0 < s.inits
  · have move : step s (.initContinues true true) =
        some { s with inits := s.inits - 1 }.withQueue.constructs := by
      have connects' : { s with inits := s.inits - 1 }.Connects true := connects
      simp [Client.step, pending, initContinues_of_connects connects']
    refine ⟨[.initContinues true true], by simp [Label.Idle], ?_⟩
    simp only [State.later, List.foldl_cons, List.foldl_nil, move, Option.getD_some]
    refine ⟨rfl, by simp [State.constructs, State.withQueue], ?_⟩
    simp only [State.constructs, State.withQueue]
    omega
  · obtain ⟨u, is⟩ : ∃ u : State, u = { s with timers := s.timers - 1, inits := s.inits + 1 } :=
      ⟨_, rfl⟩
    have first : step s .timer = some u := by
      have due' : 0 < s.timers := by omega
      simp [Client.step, due', is]
    have move : step u (.initContinues true true) =
        some { u with inits := u.inits - 1 }.withQueue.constructs := by
      have connects' : { u with inits := u.inits - 1 }.Connects true := by
        rw [is]
        exact connects
      have pending' : 0 < u.inits := by
        rw [is]
        exact Nat.succ_pos _
      simp [Client.step, pending', initContinues_of_connects connects']
    refine ⟨[.timer, .initContinues true true], by simp [Label.Idle], ?_⟩
    simp only [State.later, List.foldl_cons, List.foldl_nil, first, move, Option.getD_some]
    subst is
    refine ⟨rfl, by simp [State.constructs, State.withQueue], ?_⟩
    simp only [State.constructs, State.withQueue]
    omega

theorem prospects_made (current : ∀ g, s.webSocket = some g → g < s.sockets.length) :
    ∃ ls : List Label, (∀ l ∈ ls, l.Idle ∧ ∀ g, l ≠ .openEvent g) ∧
      (s.later ls).sockets.length = s.prospects := by
  obtain ⟨n, bound⟩ : ∃ n, s.inits + s.timers = n := ⟨_, rfl⟩
  induction n generalizing s with
  | zero =>
    refine ⟨[], by simp, ?_⟩
    change s.sockets.length = s.prospects
    unfold State.prospects
    omega
  | succ n ih =>
    obtain ⟨closing, closes, connects, sockets, inits, timers⟩ := closes_connects current
    obtain ⟨making, harmless, new, longer, fewer⟩ :=
      init_makes (connects true (Or.inr rfl)) (by omega)
    obtain ⟨rest, others, made⟩ := ih (s := (s.later closing).later making)
      (current_later (current_later current closing) making) (by omega)
    refine ⟨closing ++ making ++ rest, ?_, ?_⟩
    · intro l member
      rcases List.mem_append.mp member with member | member
      · rcases List.mem_append.mp member with member | member
        · obtain ⟨g, rfl⟩ := closes l member
          simp [Label.Idle]
        · exact harmless l member
      · exact others l member
    · rw [later_append, later_append, made]
      unfold State.prospects
      omega

theorem affected_close (current : ∀ g, s.webSocket = some g → g < s.sockets.length)
    (move : Takes s (.closeEvent g) t) : ¬ Unaffected g s t := by
  intro unaffected
  obtain ⟨ls, idle, made⟩ := prospects_made (takes_current move current)
  have same := unaffected.sockets ls fun l member =>
    ⟨(idle l member).2 g, (idle l member).1.2 g⟩
  have bound := prospects_later (s := s) fun l member => (idle l member).1
  have more : t.prospects = s.prospects + 1 := by
    cases move with
    | browser of _ _ => cases of
    | closeEvent here moves =>
      simp [State.prospects, State.reconnects, State.down, State.put]
      omega
  omega

end Later

section Follows

variable {s t : State} {l : Label} {g : Nat} {trace : List (State × Label)}

theorem connected_open (move : Takes s (.openEvent g) t) : t.isConnectedInternal = true := by
  cases move with
  | browser of _ _ => cases of
  | @openEvent g socket socket' here moves =>
    obtain ⟨made, waiting, sent, same⟩ := onOpen_withSends (s.put g socket')
    rw [same]
    rfl

theorem disconnected_closeEvent (move : Takes s (.closeEvent g) t) :
    t.isConnectedInternal = false := by
  cases move with
  | browser of _ _ => cases of
  | closeEvent here moves => rfl

theorem disconnected_close (steady : Steady s) (move : Takes s .close t) :
    t.isConnectedInternal = false := by
  cases move with
  | browser of _ _ => cases of
  | closesNothing none_ => exact steady.off none_
  | closesSocket here => rfl

theorem follows_of_run (run : ClientRun trace t) (meets : Meets CurrentOnly trace) :
    FollowsCurrent trace t := by
  refine ⟨?_, (steady_of_run run meets).connected, ?_, ?_⟩
  · rintro before s l g rfl event apart
    obtain ⟨_, only⟩ := (meets_snoc ..).mp meets
    have move := step_cases (run_before run).2
    rcases event with rfl | rfl
    · exact unaffected_open (only.resolve_left apart) apart move
    · exact absurd only apart
  · rintro before s l rfl ends
    obtain ⟨earlier, _⟩ := (meets_snoc ..).mp meets
    obtain ⟨run', move⟩ := run_before run
    rcases ends with rfl | ⟨g, rfl, _⟩
    · exact disconnected_close (steady_of_run run' earlier) (step_cases move)
    · exact disconnected_closeEvent (step_cases move)
  · rintro before s l rfl closed _
    obtain ⟨_, only⟩ := (meets_snoc ..).mp meets
    rcases sockets_made (step_cases (run_before run).2) with same | ⟨queueMade, rfl, connects, _⟩
    · exact same
    · have free : s.userClosed = false := only connects.1
      rw [closed] at free
      cases free

theorem current_of_run (run : ClientRun trace s) :
    ∀ g, s.webSocket = some g → g < s.sockets.length := by
  induction run with
  | nil first =>
    subst first
    exact nofun
  | snoc before move ih => exact takes_current (step_cases move) ih

theorem not_follows (run : ClientRun trace s) (meets : Meets CurrentOnly trace)
    (move : Takes s l t) (outside : ¬ CurrentOnly s l) :
    ¬ FollowsCurrent (trace ++ [(s, l)]) t := by
  intro follows
  cases l with
  | openEvent g =>
    obtain ⟨apart, down⟩ := not_or.mp outside
    have unaffected := follows.superseded trace s _ g rfl (Or.inl rfl) apart
    rw [← unaffected.isConnected] at down
    exact down (connected_open move)
  | closeEvent g =>
    exact affected_close (current_of_run run) move
      (follows.superseded trace s _ g rfl (Or.inr rfl) outside)
  | initContinues queueMade constructed =>
    cases constructed with
    | true =>
      obtain ⟨queue, late⟩ := Classical.not_imp.mp outside
      have closed : s.userClosed = true := by simpa using late
      have connects : s.Connects queueMade :=
        ⟨queue, Or.inl ((steady_of_run run meets).closed closed)⟩
      have same := follows.closed trace s _ rfl closed (by simp)
      cases move with
      | browser of _ _ => cases of
      | keeps _ _ idle => exact idle connects
      | constructs _ _ => simp [State.constructs, State.withQueue] at same
    | false =>
      obtain ⟨connects, late⟩ := Classical.not_imp.mp outside
      have established : s.established = true := by simpa using late
      cases move with
      | browser of _ _ => cases of
      | keeps _ _ idle => exact idle connects
      | fails _ _ => exact Bool.false_ne_true (follows.connected established)
  | init => exact outside trivial
  | sendStream payload headerSize => exact outside trivial
  | close => exact outside trivial
  | timer => exact outside trivial
  | opens g => exact outside trivial
  | closing g => exact outside trivial
  | closes g => exact outside trivial
  | errorEvent g => exact outside trivial

end Follows

section Claims

variable {s : State} {trace : List (State × Label)}

/-- Only the current socket counts in just those runs. -/
theorem follows_current_iff (run : ClientRun trace s) :
    Throughout FollowsCurrent trace s ↔ Meets CurrentOnly trace := by
  constructor
  · refine meets_of_throughout ?_ run
    intro trace s l t run meets move outside
    exact not_follows run meets (step_cases move) outside
  · exact throughout_of_runs follows_of_run run

/-- The gateway goes away and comes back, and the user closes the second connection. -/
theorem follows_current_reconnected : ∃ trace s, ClientRun trace s ∧ s.sockets.length = 2 ∧
    s.userClosed = true ∧ Throughout FollowsCurrent trace s := by
  obtain ⟨trace, s, run, ⟨two, closed⟩, only⟩ :=
    execute_run step .first
      [.init, .initContinues true true, .opens 0, .openEvent 0, .closes 0, .closeEvent 0, .timer,
        .initContinues true true, .opens 1, .openEvent 1, .close]
      (fun trace s => (s.sockets.length = 2 ∧ s.userClosed = true) ∧
        ∀ e ∈ trace, CurrentOnly e.1 e.2) (by decide +kernel)
  exact ⟨trace, s, run, two, closed, (follows_current_iff run).mpr only⟩

/-- The close event comes after close() and starts the client again. -/
theorem close_reconnects : ∃ trace s, ClientRun trace s ∧ s.sockets.length = 2 ∧
    s.userClosed = true ∧ ¬ FollowsCurrent trace s := by
  obtain ⟨trace, s, run, ⟨two, closed⟩, late⟩ :=
    execute_run step .first
      [.init, .initContinues true true, .opens 0, .openEvent 0, .close, .closes 0, .closeEvent 0,
        .timer, .initContinues true true]
      (fun trace s => (s.sockets.length = 2 ∧ s.userClosed = true) ∧
        ∃ e ∈ trace.getLast?, e.1.userClosed = true ∧ e.2 ≠ .init ∧ e.1.sockets.length = 1)
      (by decide +kernel)
  obtain ⟨⟨before, l⟩, last, closedBefore, notInit, one⟩ := late
  obtain ⟨earlier, rfl⟩ := List.getLast?_eq_some_iff.mp last
  refine ⟨_, s, run, two, closed, fun follows => ?_⟩
  have same := follows.closed earlier before l rfl closedBefore notInit
  have one' : before.sockets.length = 1 := one
  rw [two, one'] at same
  cases same

end Claims

end Client
