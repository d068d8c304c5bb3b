import SkyCurrent.Base.Simulation
import SkyCurrent.Client.Sockets

/- The promises of init in skycurrent-ws-client/src/index.ts. Each hangs on the socket that was
   globals.webSocket when its continuation ran, by three listeners of its own. -/
namespace Client.Init

open Runs

inductive Outcome where
  | pending
  | resolved
  | rejected
  deriving DecidableEq, Repr

/-- `error` says whether the listener for error events has not been called yet. -/
structure InitPromise where
  socket : Option Nat
  error : Bool
  outcome : Outcome
  deriving DecidableEq, Repr

namespace InitPromise

def settles (promise : InitPromise) (outcome : Outcome) : InitPromise :=
  if promise.outcome = .pending then { promise with outcome := outcome } else promise

def hearsOpen (g : Nat) (promise : InitPromise) : InitPromise :=
  if promise.socket = some g then promise.settles .resolved else promise

def hearsError (g : Nat) (isConnectedInternal : Bool) (promise : InitPromise) : InitPromise :=
  if promise.socket = some g ∧ promise.error then
    let promise := { promise with error := false }
    if isConnectedInternal then promise else promise.settles .rejected
  else promise

def hearsClose (g : Nat) (promise : InitPromise) : InitPromise :=
  if promise.socket = some g then promise.settles .rejected else promise

end InitPromise

structure State where
  page : Client.State
  promises : List InitPromise
  deriving DecidableEq, Repr

def State.first : State := ⟨.first, []⟩

/-- The promise a continuation of lmq.default() makes. Where a constructor throws there is no
    queue, or no socket to add listeners to, and what is thrown rejects it. The listeners come
    before readyState is asked for, and before a new socket takes the place of a closing one. -/
def makes (s : Client.State) (queueMade constructed : Bool) : InitPromise :=
  if !s.queue && !queueMade then ⟨none, false, .rejected⟩
  else
    let s := if s.webSocket.isNone then s.withQueue.connectWebSocket constructed else s
    match s.webSocket with
    | none => ⟨none, false, .rejected⟩
    | some g => ⟨some g, true, if s.readyState = some .opened then .resolved else .pending⟩

/-- What one turn of the event loop does to the promises. A socket fires no error event once its
    close event has been handled. -/
def hears (s : State) (l : Label) : Option (List InitPromise) :=
  match l with
  | .initContinues queueMade constructed =>
    some (s.promises ++ [makes s.page queueMade constructed])
  | .openEvent g => some (s.promises.map (·.hearsOpen g))
  | .errorEvent g =>
    if (s.page.sockets[g]?).any (·.closeEvent = .handled) then none
    else some (s.promises.map (·.hearsError g s.page.isConnectedInternal))
  | .closeEvent g => some (s.promises.map (·.hearsClose g))
  | _ => some s.promises

def next (s : State) (l : Label) : Option State :=
  (step s.page l).bind fun page => (hears s l).map fun promises => ⟨page, promises⟩

abbrev InitRun := Run (· = State.first) (fun s l t => next s l = some t)

def State.outcome (s : State) (k : Nat) : Option Outcome := (s.promises[k]?).map (·.outcome)

def Settled (k : Nat) (s : State) : Prop :=
  s.outcome k = some .resolved ∨ s.outcome k = some .rejected

def MaySettle (k : Nat) (s : State) : Prop :=
  Leads (fun s l t => next s l = some t) (fun _ => True) (Settled k) s

def Deaf (s : Client.State) : Prop :=
  ∃ g socket, s.webSocket = some g ∧ s.sockets[g]? = some socket ∧ socket.closeEvent = .handled

variable {s t : State} {l : Label} {trace : List (State × Label)}

theorem next_cases (move : next s l = some t) :
    Takes s.page l t.page ∧ hears s l = some t.promises := by
  obtain ⟨page, taken, rest⟩ := Option.bind_eq_some_iff.mp move
  obtain ⟨promises, heard, rfl⟩ := Option.map_eq_some_iff.mp rest
  exact ⟨step_cases taken, heard⟩

section Sockets

variable {p q : Client.State} {g : Nat} {socket socket' : Socket}

inductive Changes (l : Label) (g : Nat) (socket socket' : Socket) : Prop where
  | same (is : socket' = socket)
  | opens (connecting : socket.readyState = .connecting) (opened : socket'.readyState = .opened)
      (openEvent : socket'.openEvent = .queued)
      (closeEvent : socket'.closeEvent = socket.closeEvent)
  | ends (running : socket.readyState ≠ .closed) (closing : socket'.readyState = .closing)
      (openEvent : socket'.openEvent = socket.openEvent)
      (closeEvent : socket'.closeEvent = socket.closeEvent)
  | closes (running : socket.readyState ≠ .closed) (closed : socket'.readyState = .closed)
      (openEvent : socket'.openEvent = socket.openEvent) (closeEvent : socket'.closeEvent = .queued)
  | openEvent (is : l = .openEvent g) (queued : socket.openEvent = .queued)
      (readyState : socket'.readyState = socket.readyState)
      (openEvent : socket'.openEvent = .handled)
      (closeEvent : socket'.closeEvent = socket.closeEvent)
  | closeEvent (is : l = .closeEvent g) (queued : socket.closeEvent = .queued)
      (first : socket.openEvent ≠ .queued) (readyState : socket'.readyState = socket.readyState)
      (openEvent : socket'.openEvent = socket.openEvent)
      (closeEvent : socket'.closeEvent = .handled)

theorem close_changes (l : Label) (g : Nat) (socket : Socket) :
    Changes l g socket socket.close := by
  unfold Socket.close
  split
  · rename_i running
    refine .ends ?_ rfl rfl rfl
    rcases running with h | h <;> simp [h]
  · exact .same rfl

theorem browser_changes {move : Socket → Option Socket} (of : l.browser = some (g, move))
    (moves : move socket = some socket') : Changes l g socket socket' := by
  cases l with
  | opens h =>
    cases of
    simp only [Socket.opens, Option.dite_none_right_eq_some, Option.some.injEq] at moves
    obtain ⟨connecting, rfl⟩ := moves
    exact .opens connecting rfl rfl rfl
  | closing h =>
    cases of
    simp only [Socket.closing, Option.dite_none_right_eq_some, Option.some.injEq] at moves
    obtain ⟨opened, rfl⟩ := moves
    exact .ends (by simp [opened]) rfl rfl rfl
  | closes h =>
    cases of
    simp only [Socket.closes, Option.ite_none_left_eq_some, Option.some.injEq] at moves
    obtain ⟨running, rfl⟩ := moves
    exact .closes running rfl rfl rfl
  | errorEvent h =>
    cases of
    cases moves
    exact .same rfl
  | _ => cases of

theorem put_get {h : Nat} {moved moved' : Socket} (there : p.sockets[h]? = some moved)
    (here : p.sockets[g]? = some socket) (changes : Changes l h moved moved') :
    ∃ socket', (p.put h moved').sockets[g]? = some socket' ∧ Changes l g socket socket' := by
  obtain ⟨range, _⟩ := List.getElem?_eq_some_iff.mp there
  by_cases this : h = g
  · subst this
    rw [there] at here
    cases here
    exact ⟨moved', by simp [Client.State.put, range], changes⟩
  · exact ⟨socket, by simpa [Client.State.put, List.getElem?_set_ne this] using here, .same rfl⟩

theorem takes_socket (takes : Takes p l q) (here : p.sockets[g]? = some socket) :
    ∃ socket', q.sockets[g]? = some socket' ∧ Changes l g socket socket' := by
  cases takes with
  | closesSocket current =>
    rename_i h
    by_cases this : h = g
    · subst this
      exact ⟨socket.close, by simp [Client.State.closesSocket, here], close_changes _ _ _⟩
    · refine ⟨socket, ?_, .same rfl⟩
      simpa [Client.State.closesSocket, List.getElem?_modify, this] using here
  | constructs pending connects =>
    refine ⟨socket, ?_, .same rfl⟩
    have range := (List.getElem?_eq_some_iff.mp here).1
    simpa [Client.State.constructs, Client.State.withQueue, List.getElem?_append_left range]
      using here
  | browser of there moves => exact put_get there here (browser_changes of moves)
  | @openEvent h moved moved' there moves =>
    simp only [Socket.takesOpen, Option.dite_none_right_eq_some, Option.some.injEq] at moves
    obtain ⟨queued, is⟩ := moves
    have changes : Changes (.openEvent h) h moved moved' := by
      subst is
      exact .openEvent rfl queued rfl rfl rfl
    obtain ⟨socket', after, changes'⟩ := put_get there here changes
    obtain ⟨made, waiting, sent, same⟩ := onOpen_withSends (p.put h moved')
    refine ⟨socket', ?_, changes'⟩
    rw [same]
    exact after
  | @closeEvent h moved moved' there moves =>
    simp only [Socket.takesClose, Option.dite_none_right_eq_some, Option.some.injEq] at moves
    obtain ⟨queued, is⟩ := moves
    have changes : Changes (.closeEvent h) h moved moved' := by
      subst is
      exact .closeEvent rfl queued.1 queued.2 rfl rfl rfl
    exact put_get there here changes
  | _ => exact ⟨socket, here, .same rfl⟩

structure Orderly (socket : Socket) : Prop where
  opened : socket.readyState = .opened → socket.openEvent ≠ .awaited
  spent : socket.closeEvent = .handled → socket.openEvent ≠ .queued

theorem closed_of_handled (handled : socket.closeEvent = .handled) :
    socket.readyState = .closed := by
  by_contra running
  rw [socket.late.mpr running] at handled
  cases handled

theorem Orderly.changes (orderly : Orderly socket) (changes : Changes l g socket socket') :
    Orderly socket' := by
  cases changes with
  | same is => exact is ▸ orderly
  | opens connecting opened openEvent closeEvent =>
    refine ⟨by simp [openEvent], ?_⟩
    intro handled
    rw [closed_of_handled handled] at opened
    cases opened
  | ends running closing openEvent closeEvent =>
    exact ⟨by simp [closing], by simpa [openEvent, closeEvent] using orderly.spent⟩
  | closes running closed openEvent closeEvent =>
    exact ⟨by simp [closed], by simp [closeEvent]⟩
  | openEvent is queued readyState openEvent closeEvent =>
    exact ⟨by simp [openEvent], by simp [openEvent]⟩
  | closeEvent is queued first readyState openEvent closeEvent =>
    exact ⟨by simpa [readyState, openEvent] using orderly.opened, fun _ => by rwa [openEvent]⟩

theorem Changes.handled (changes : Changes l g socket socket')
    (handled : socket.closeEvent = .handled) : socket'.closeEvent = .handled := by
  have closed := closed_of_handled handled
  cases changes with
  | same is => rw [is, handled]
  | opens connecting opened openEvent closeEvent => rw [closeEvent, handled]
  | ends running closing openEvent closeEvent => rw [closeEvent, handled]
  | closes running => exact absurd closed running
  | openEvent is queued readyState openEvent closeEvent => rw [closeEvent, handled]
  | closeEvent is queued first readyState openEvent closeEvent => exact closeEvent

theorem Changes.opened (changes : Changes l g socket socket')
    (came : socket.openEvent ≠ .awaited) : socket'.openEvent ≠ .awaited := by
  cases changes with
  | same is => rwa [is]
  | opens connecting => exact absurd (socket.early connecting) came
  | ends running closing openEvent closeEvent => rwa [openEvent]
  | closes running closed openEvent closeEvent => rwa [openEvent]
  | openEvent is queued readyState openEvent closeEvent => simp [openEvent]
  | closeEvent is queued first readyState openEvent closeEvent => rwa [openEvent]

end Sockets

section Page

variable {p q : Client.State} {g : Nat} {socket : Socket} {queueMade constructed : Bool}

theorem takes_new (takes : Takes p l q) (there : q.sockets[g]? = some socket)
    (beyond : p.sockets.length ≤ g) : socket = .new := by
  have range := (List.getElem?_eq_some_iff.mp there).1
  rcases sockets_made takes with same | ⟨queueMade, rfl, connects, longer⟩
  · omega
  · cases takes with
    | browser of => cases of
    | keeps queue pending idle => exact absurd connects idle
    | constructs pending =>
      have last : g = p.sockets.length := by omega
      subst last
      simpa [Client.State.constructs, Client.State.withQueue] using there.symm

theorem takes_open (takes : Takes p (.openEvent g) q) :
    ∃ socket, q.sockets[g]? = some socket ∧ socket.openEvent = .handled := by
  cases takes with
  | browser of => cases of
  | @openEvent _ moved moved' there moves =>
    obtain ⟨range, _⟩ := List.getElem?_eq_some_iff.mp there
    obtain ⟨made, waiting, sent, same⟩ := onOpen_withSends (p.put g moved')
    refine ⟨moved', ?_, ?_⟩
    · rw [same]
      simp [Client.State.withSends, Client.State.up, Client.State.put, range]
    · simp only [Socket.takesOpen, Option.dite_none_right_eq_some, Option.some.injEq] at moves
      obtain ⟨_, rfl⟩ := moves
      rfl

theorem takes_events (takes : Takes p l q) :
    (l = .openEvent g → ∃ socket, p.sockets[g]? = some socket ∧ socket.openEvent = .queued) ∧
    (l = .closeEvent g → ∃ socket, p.sockets[g]? = some socket ∧ socket.closeEvent = .queued) := by
  constructor
  · rintro rfl
    cases takes with
    | browser of => cases of
    | openEvent there moves =>
      simp only [Socket.takesOpen, Option.dite_none_right_eq_some] at moves
      exact ⟨_, there, moves.1⟩
  · rintro rfl
    cases takes with
    | browser of => cases of
    | closeEvent there moves =>
      simp only [Socket.takesClose, Option.dite_none_right_eq_some] at moves
      exact ⟨_, there, moves.1.1⟩

inductive Makes (p q : Client.State) (promise : InitPromise) : Prop where
  | throws (rejected : promise.outcome = .rejected)
  | listens (g : Nat) (socket : Socket) (on : promise.socket = some g)
      (outcome : promise.outcome = if socket.readyState = .opened then .resolved else .pending)
      (there : q.sockets[g]? = some socket)
      (before : p.webSocket = some g ∧ p.sockets[g]? = some socket ∨
        p.webSocket = none ∧ socket = .new)

theorem takes_makes (takes : Takes p (.initContinues queueMade constructed) q)
    (current : ∀ g, p.webSocket = some g → g < p.sockets.length) :
    Makes p q (makes p queueMade constructed) := by
  by_cases queue : p.queue = true ∨ queueMade = true
  · have goes : (!p.queue && !queueMade) = false := by
      rcases queue with h | h <;> simp [h]
    cases here : p.webSocket with
    | some g =>
      obtain ⟨socket, there⟩ : ∃ socket, p.sockets[g]? = some socket :=
        ⟨_, List.getElem?_eq_getElem (current g here)⟩
      have after : q.sockets[g]? = some socket := by
        cases takes with
        | browser of => cases of
        | keeps queue pending idle => exact there
        | constructs pending connects =>
          simpa [Client.State.constructs, Client.State.withQueue,
            List.getElem?_append_left (current g here)] using there
        | fails pending connects => exact there
      have made : makes p queueMade constructed =
          ⟨some g, true, if socket.readyState = .opened then .resolved else .pending⟩ := by
        simp [makes, goes, here, Client.State.readyState, there]
      exact .listens g socket (by rw [made]) (by rw [made]) after (Or.inl ⟨here, there⟩)
    | none =>
      cases constructed with
      | false =>
        refine .throws ?_
        simp [makes, goes, here, connectWebSocket_eq, Client.State.reconnects, Client.State.down,
          Client.State.withQueue]
      | true =>
        have made : makes p queueMade true = ⟨some p.sockets.length, true, .pending⟩ := by
          simp [makes, goes, here, connectWebSocket_eq, Client.State.constructs,
            Client.State.withQueue, Client.State.readyState, Socket.new]
        have after : q.sockets[p.sockets.length]? = some .new := by
          cases takes with
          | browser of => cases of
          | keeps queue' pending idle => exact absurd ⟨queue, Or.inl here⟩ idle
          | constructs pending connects =>
            simp [Client.State.constructs, Client.State.withQueue]
        exact .listens _ .new (by rw [made]) (by rw [made]; rfl) after (Or.inr ⟨here, rfl⟩)
  · have stops : (!p.queue && !queueMade) = true := by simpa using queue
    refine .throws ?_
    simp [makes, stops]

end Page

section Promises

variable {promise : InitPromise} {g : Nat}

@[simp] theorem settles_socket (promise : InitPromise) (outcome : Outcome) :
    (promise.settles outcome).socket = promise.socket := by
  unfold InitPromise.settles
  split <;> rfl

theorem settles_outcome (promise : InitPromise) (outcome : Outcome) :
    (promise.settles outcome).outcome =
      if promise.outcome = .pending then outcome else promise.outcome := by
  unfold InitPromise.settles
  split <;> rfl

structure Hears (l : Label) (promise promise' : InitPromise) : Prop where
  socket : promise'.socket = promise.socket
  kept : promise.outcome ≠ .pending → promise'.outcome = promise.outcome
  resolves : promise.outcome = .pending → promise'.outcome = .resolved →
    ∃ g, promise.socket = some g ∧ l = .openEvent g
  rejects : promise.outcome = .pending → promise'.outcome = .rejected →
    ∃ g, promise.socket = some g ∧ (l = .errorEvent g ∨ l = .closeEvent g)

theorem hears_same (l : Label) (promise : InitPromise) : Hears l promise promise :=
  ⟨rfl, fun _ => rfl, fun pending resolved => by simp [pending] at resolved,
    fun pending rejected => by simp [pending] at rejected⟩

theorem hears_error (g : Nat) (up : Bool) (promise : InitPromise) :
    Hears (.errorEvent g) promise (promise.hearsError g up) := by
  unfold InitPromise.hearsError
  split
  · rename_i on
    cases up with
    | true =>
      exact ⟨rfl, fun _ => rfl, fun pending resolved => by simp [pending] at resolved,
        fun pending rejected => by simp [pending] at rejected⟩
    | false =>
      refine ⟨by simp, ?_, ?_, fun _ _ => ⟨g, on.1, Or.inl rfl⟩⟩
      · intro settled
        simp [settles_outcome, settled]
      · intro pending resolved
        simp [settles_outcome, pending] at resolved
  · exact hears_same _ _

theorem hears_open (g : Nat) (promise : InitPromise) :
    Hears (.openEvent g) promise (promise.hearsOpen g) := by
  unfold InitPromise.hearsOpen
  split
  · rename_i on
    refine ⟨by simp, ?_, fun _ _ => ⟨g, on, rfl⟩, ?_⟩
    · intro settled
      simp [settles_outcome, settled]
    · intro pending rejected
      simp [settles_outcome, pending] at rejected
  · exact hears_same _ _

theorem hears_close (g : Nat) (promise : InitPromise) :
    Hears (.closeEvent g) promise (promise.hearsClose g) := by
  unfold InitPromise.hearsClose
  split
  · rename_i on
    refine ⟨by simp, ?_, ?_, fun _ _ => ⟨g, on, Or.inr rfl⟩⟩
    · intro settled
      simp [settles_outcome, settled]
    · intro pending resolved
      simp [settles_outcome, pending] at resolved
  · exact hears_same _ _

theorem next_promise (heard : hears s l = some t.promises) {k : Nat}
    (here : s.promises[k]? = some promise) :
    ∃ promise', t.promises[k]? = some promise' ∧ Hears l promise promise' := by
  have range := (List.getElem?_eq_some_iff.mp here).1
  cases l with
  | initContinues queueMade constructed =>
    simp only [hears, Option.some.injEq] at heard
    refine ⟨promise, ?_, hears_same _ _⟩
    rw [← heard, List.getElem?_append_left range, here]
  | openEvent g =>
    simp only [hears, Option.some.injEq] at heard
    exact ⟨_, by simp [← heard, here], hears_open g promise⟩
  | errorEvent g =>
    simp only [hears, Option.ite_none_left_eq_some, Option.some.injEq] at heard
    exact ⟨_, by simp [← heard.2, here], hears_error g s.page.isConnectedInternal promise⟩
  | closeEvent g =>
    simp only [hears, Option.some.injEq] at heard
    exact ⟨_, by simp [← heard, here], hears_close g promise⟩
  | _ =>
    simp only [hears, Option.some.injEq] at heard
    exact ⟨promise, by rw [← heard, here], hears_same _ _⟩

theorem next_made (heard : hears s l = some t.promises) {promise' : InitPromise}
    (member : promise' ∈ t.promises) : (∃ promise ∈ s.promises, Hears l promise promise') ∨
      ∃ queueMade constructed, l = .initContinues queueMade constructed ∧
        promise' = makes s.page queueMade constructed := by
  cases l with
  | initContinues queueMade constructed =>
    simp only [hears, Option.some.injEq] at heard
    rw [← heard, List.mem_append, List.mem_singleton] at member
    rcases member with old | made
    · exact Or.inl ⟨promise', old, hears_same _ _⟩
    · exact Or.inr ⟨queueMade, constructed, rfl, made⟩
  | openEvent g =>
    simp only [hears, Option.some.injEq] at heard
    rw [← heard, List.mem_map] at member
    obtain ⟨promise, old, rfl⟩ := member
    exact Or.inl ⟨promise, old, hears_open g promise⟩
  | errorEvent g =>
    simp only [hears, Option.ite_none_left_eq_some, Option.some.injEq] at heard
    rw [← heard.2, List.mem_map] at member
    obtain ⟨promise, old, rfl⟩ := member
    exact Or.inl ⟨promise, old, hears_error g _ promise⟩
  | closeEvent g =>
    simp only [hears, Option.some.injEq] at heard
    rw [← heard, List.mem_map] at member
    obtain ⟨promise, old, rfl⟩ := member
    exact Or.inl ⟨promise, old, hears_close g promise⟩
  | _ =>
    simp only [hears, Option.some.injEq] at heard
    rw [← heard] at member
    exact Or.inl ⟨promise', member, hears_same _ _⟩

end Promises

section Soundness

structure Sound (s : State) : Prop where
  orderly : ∀ socket ∈ s.page.sockets, Orderly socket
  current : ∀ g, s.page.webSocket = some g → g < s.page.sockets.length
  listens : ∀ promise ∈ s.promises, promise.outcome = .pending → ∃ g, promise.socket = some g ∧
    g < s.page.sockets.length
  resolves : ∀ promise ∈ s.promises, promise.outcome = .resolved → ∃ g socket,
    promise.socket = some g ∧ s.page.sockets[g]? = some socket ∧ socket.openEvent ≠ .awaited

theorem Sound.step (sound : Sound s) (move : next s l = some t) : Sound t := by
  obtain ⟨takes, heard⟩ := next_cases move
  have longer : s.page.sockets.length ≤ t.page.sockets.length := by
    rcases sockets_made takes with same | ⟨_, _, _, longer⟩ <;> omega
  have orderly : ∀ socket ∈ t.page.sockets, Orderly socket := by
    intro socket member
    obtain ⟨g, there⟩ := List.mem_iff_getElem?.mp member
    by_cases old : g < s.page.sockets.length
    · have here := List.getElem?_eq_getElem old
      obtain ⟨socket', there', changes⟩ := takes_socket takes here
      rw [there] at there'
      cases there'
      exact (sound.orderly _ (List.getElem_mem old)).changes changes
    · rw [takes_new takes there (Nat.not_lt.mp old)]
      exact ⟨by simp [Socket.new], by simp [Socket.new]⟩
  refine ⟨orderly, takes_current takes sound.current, ?_, ?_⟩
  · intro promise' member pending
    rcases next_made heard member with ⟨promise, old, hears⟩ | ⟨queueMade, constructed, rfl, made⟩
    · have pending' : promise.outcome = .pending := by
        by_contra settled
        exact settled ((hears.kept settled).symm.trans pending)
      obtain ⟨g, on, range⟩ := sound.listens promise old pending'
      exact ⟨g, hears.socket.trans on, Nat.lt_of_lt_of_le range longer⟩
    · cases takes_makes takes sound.current with
      | throws rejected =>
        rw [made, rejected] at pending
        cases pending
      | listens g socket on outcome there before =>
        exact ⟨g, made ▸ on, (List.getElem?_eq_some_iff.mp there).1⟩
  · intro promise' member resolved
    rcases next_made heard member with ⟨promise, old, hears⟩ | ⟨queueMade, constructed, rfl, made⟩
    · by_cases pending : promise.outcome = .pending
      · obtain ⟨g, on, rfl⟩ := hears.resolves pending resolved
        obtain ⟨socket, there, handled⟩ := takes_open takes
        exact ⟨g, socket, hears.socket.trans on, there, by simp [handled]⟩
      · obtain ⟨g, socket, on, there, opened⟩ :=
          sound.resolves promise old ((hears.kept pending).symm.trans resolved)
        obtain ⟨socket', there', changes⟩ := takes_socket takes there
        exact ⟨g, socket', hears.socket.trans on, there', changes.opened opened⟩
    · cases takes_makes takes sound.current with
      | throws rejected =>
        rw [made, rejected] at resolved
        cases resolved
      | listens g socket on outcome there before =>
        refine ⟨g, socket, made ▸ on, there, ?_⟩
        rw [made, outcome] at resolved
        have opened : socket.readyState = .opened := by
          by_contra other
          rw [if_neg other] at resolved
          cases resolved
        exact (orderly socket (List.mem_of_getElem? there)).opened opened

theorem sound_of_run (run : InitRun trace s) : Sound s := by
  refine reachable_invariant Sound ?_ (fun s l t sound move => sound.step move) ⟨trace, run⟩
  rintro s rfl
  exact ⟨by simp [State.first, Client.State.first], by simp [State.first, Client.State.first],
    by simp [State.first], by simp [State.first]⟩

end Soundness

section Settling

variable {k g : Nat} {promise : InitPromise} {socket : Socket}

structure Unheard (k : Nat) (s : State) (g : Nat) (promise : InitPromise) (socket : Socket) :
    Prop where
  here : s.promises[k]? = some promise
  on : promise.socket = some g
  pending : promise.outcome = .pending
  there : s.page.sockets[g]? = some socket
  handled : socket.closeEvent = .handled
  orderly : Orderly socket

theorem Unheard.step (unheard : Unheard k s g promise socket) (move : next s l = some t) :
    ∃ promise' socket', Unheard k t g promise' socket' := by
  obtain ⟨takes, heard⟩ := next_cases move
  obtain ⟨promise', here', hears⟩ := next_promise heard unheard.here
  obtain ⟨socket', there', changes⟩ := takes_socket takes unheard.there
  have pending' : promise'.outcome = .pending := by
    cases outcome : promise'.outcome with
    | pending => rfl
    | resolved =>
      obtain ⟨g', on, is⟩ := hears.resolves unheard.pending outcome
      obtain rfl := Option.some.inj (unheard.on.symm.trans on)
      obtain ⟨moved, there, queued⟩ := (takes_events takes).1 is
      obtain rfl := Option.some.inj (unheard.there.symm.trans there)
      exact absurd queued (unheard.orderly.spent unheard.handled)
    | rejected =>
      obtain ⟨g', on, rfl | is⟩ := hears.rejects unheard.pending outcome
      · obtain rfl := Option.some.inj (unheard.on.symm.trans on)
        simp [Init.hears, unheard.there, unheard.handled] at heard
      · obtain rfl := Option.some.inj (unheard.on.symm.trans on)
        obtain ⟨moved, there, queued⟩ := (takes_events takes).2 is
        obtain rfl := Option.some.inj (unheard.there.symm.trans there)
        rw [unheard.handled] at queued
        cases queued
  exact ⟨promise', socket', here', hears.socket.trans unheard.on, pending', there',
    changes.handled unheard.handled, unheard.orderly.changes changes⟩

theorem Unheard.never_settles (unheard : Unheard k s g promise socket) : ¬ MaySettle k s := by
  rintro ⟨labels, t, path, _, settled⟩
  obtain ⟨promise', socket', unheard'⟩ := path.keeps
    (fun t => ∃ promise socket, Unheard k t g promise socket)
    (fun s l t ⟨_, _, unheard⟩ move => unheard.step move) ⟨promise, socket, unheard⟩
  have pending : t.outcome k = some .pending := by
    simp [State.outcome, unheard'.here, unheard'.pending]
  rcases settled with settled | settled <;> simp [pending] at settled

theorem MaySettle.after (settles : MaySettle k t) (move : next s l = some t) : MaySettle k s :=
  Leads.after settles move trivial

theorem settles_queued (here : s.promises[k]? = some promise) (on : promise.socket = some g)
    (pending : promise.outcome = .pending) (there : s.page.sockets[g]? = some socket)
    (queued : socket.closeEvent = .queued) : MaySettle k s := by
  by_cases first : socket.openEvent = .queued
  · obtain ⟨t, move, promises⟩ : ∃ t, next s (.openEvent g) = some t ∧
        t.promises = s.promises.map (·.hearsOpen g) := by
      simp [next, step, Client.State.moves, there, Socket.takesOpen, first, hears]
    refine MaySettle.after (Leads.here (Or.inl ?_)) move
    simp [State.outcome, promises, here, InitPromise.hearsOpen, on, settles_outcome, pending]
  · obtain ⟨t, move, promises⟩ : ∃ t, next s (.closeEvent g) = some t ∧
        t.promises = s.promises.map (·.hearsClose g) := by
      simp [next, step, Client.State.moves, there, Socket.takesClose, first, queued, hears]
    refine MaySettle.after (Leads.here (Or.inr ?_)) move
    simp [State.outcome, promises, here, InitPromise.hearsClose, on, settles_outcome, pending]

theorem settles (here : s.promises[k]? = some promise) (on : promise.socket = some g)
    (pending : promise.outcome = .pending) (there : s.page.sockets[g]? = some socket)
    (unhandled : socket.closeEvent ≠ .handled) : MaySettle k s := by
  cases due : socket.closeEvent with
  | handled => exact absurd due unhandled
  | queued => exact settles_queued here on pending there due
  | awaited =>
    have running := socket.late.mp due
    obtain ⟨closed, closes, queued⟩ : ∃ closed, socket.closes = some closed ∧
        closed.closeEvent = .queued := by
      simp [Socket.closes, running]
    have move : next s (.closes g) = some ⟨s.page.put g closed, s.promises⟩ := by
      simp [next, step, Client.State.moves, there, closes, hears, Client.State.put]
    have range := (List.getElem?_eq_some_iff.mp there).1
    have there' : (s.page.put g closed).sockets[g]? = some closed := by
      simp [Client.State.put, range]
    exact MaySettle.after (settles_queued (s := ⟨s.page.put g closed, s.promises⟩) here on pending
      there' queued) move

/-- The continuation of init leaves its promise on a socket with no events left, and makes
    another socket. -/
theorem deaf_continues (sound : Sound s) (deaf : Deaf s.page) {queueMade constructed : Bool}
    (queue : s.page.queue = true ∨ queueMade = true)
    (move : next s (.initContinues queueMade constructed) = some t) :
    (∃ g promise socket, Unheard s.promises.length t g promise socket) ∧
      (constructed = true → t.page.sockets[s.page.sockets.length]? = some .new) := by
  obtain ⟨g, socket, current, there, handled⟩ := deaf
  obtain ⟨takes, heard⟩ := next_cases move
  have closed := closed_of_handled handled
  have connects : s.page.Connects queueMade :=
    ⟨queue, Or.inr (Or.inr (by simp [Client.State.readyState, current, there, closed]))⟩
  have new : constructed = true → t.page.sockets[s.page.sockets.length]? = some .new := by
    rintro rfl
    generalize t.page = page at takes
    cases takes with
    | browser of => cases of
    | keeps queue pending idle => exact absurd connects idle
    | constructs pending => simp [Client.State.constructs, Client.State.withQueue]
  refine ⟨?_, new⟩
  have made := takes_makes takes sound.current
  simp only [Init.hears, Option.some.injEq] at heard
  have here : t.promises[s.promises.length]? = some (makes s.page queueMade constructed) := by
    simp [← heard]
  cases made with
  | throws rejected =>
    have goes : (!s.page.queue && !queueMade) = false := by
      rcases queue with h | h <;> simp [h]
    simp only [makes, goes, current, Bool.false_eq_true, if_false, Option.isNone_some] at rejected
    split at rejected <;> cases rejected
  | listens g' socket' on outcome there' before =>
    rcases before with ⟨current', before⟩ | ⟨none_, _⟩
    · obtain rfl := Option.some.inj (current.symm.trans current')
      obtain rfl := Option.some.inj (there.symm.trans before)
      rw [if_neg (by simp [closed])] at outcome
      exact ⟨g, _, socket, here, on, outcome, there', handled,
        sound.orderly socket (List.mem_of_getElem? there)⟩
    · rw [current] at none_
      cases none_

/-- A promise of init is resolved only once its socket has opened. It can settle unless it was
    made on a socket whose close event had been handled already; then init connects, and the
    promise waits for good. -/
theorem init_may_settle_iff (run : InitRun trace s) {queueMade constructed : Bool}
    (move : next s (.initContinues queueMade constructed) = some t) :
    (∀ promise ∈ s.promises, promise.outcome = .resolved → ∃ g socket, promise.socket = some g ∧
      s.page.sockets[g]? = some socket ∧ socket.openEvent ≠ .awaited) ∧
    (MaySettle s.promises.length t ↔
      ¬ (Deaf s.page ∧ (s.page.queue = true ∨ queueMade = true))) ∧
    (Deaf s.page → (s.page.queue = true ∨ queueMade = true) → constructed = true →
      Leads (fun s l t => next s l = some t) (fun _ => True)
        (fun u => u.page.isConnectedInternal = true ∧
          u.outcome s.promises.length = some .pending) t) := by
  have sound := sound_of_run run
  refine ⟨sound.resolves, ⟨?_, ?_⟩, ?_⟩
  · rintro may ⟨deaf, queue⟩
    obtain ⟨⟨g, promise, socket, unheard⟩, _⟩ := deaf_continues sound deaf queue move
    exact unheard.never_settles may
  · intro hears
    obtain ⟨takes, heard⟩ := next_cases move
    simp only [Init.hears, Option.some.injEq] at heard
    have here : t.promises[s.promises.length]? = some (makes s.page queueMade constructed) := by
      simp [← heard]
    cases takes_makes takes sound.current with
    | throws rejected => exact Leads.here (Or.inr (by simp [State.outcome, here, rejected]))
    | listens g socket on outcome there before =>
      by_cases opened : socket.readyState = .opened
      · rw [if_pos opened] at outcome
        exact Leads.here (Or.inl (by simp [State.outcome, here, outcome]))
      · rw [if_neg opened] at outcome
        refine settles here on outcome there ?_
        intro handled
        rcases before with ⟨current, before⟩ | ⟨_, rfl⟩
        · refine hears ⟨⟨g, socket, current, before, handled⟩, ?_⟩
          by_contra queue
          have stops : (!s.page.queue && !queueMade) = true := by simpa using queue
          simp [makes, stops] at on
        · cases handled
  · intro deaf queue made
    obtain ⟨⟨g, promise, socket, unheard⟩, new⟩ := deaf_continues sound deaf queue move
    obtain ⟨socket', opens', queued⟩ : ∃ socket', Socket.new.opens = some socket' ∧
        socket'.openEvent = .queued := ⟨_, rfl, rfl⟩
    have range := (List.getElem?_eq_some_iff.mp (new made)).1
    obtain ⟨u, opens, here⟩ : ∃ u, next t (.opens s.page.sockets.length) = some u ∧
        u.page.sockets[s.page.sockets.length]? = some socket' := by
      refine ⟨⟨t.page.put s.page.sockets.length socket', t.promises⟩, ?_, ?_⟩
      · simp only [next, step, Client.State.moves, new made, opens', hears, Option.bind_eq_bind,
          Option.bind_some, Option.map_some]
        rfl
      · simp [Client.State.put, range]
    obtain ⟨v, openEvent⟩ : ∃ v, next u (.openEvent s.page.sockets.length) = some v := by
      simp [next, step, Client.State.moves, here, Socket.takesOpen, queued, hears]
    obtain ⟨_, _, unheard'⟩ := unheard.step opens
    obtain ⟨_, _, unheard''⟩ := unheard'.step openEvent
    have connected := connected_open (next_cases openEvent).1
    refine Leads.after (Leads.after (Leads.here ⟨connected, ?_⟩) openEvent trivial) opens trivial
    simp [State.outcome, unheard''.here, unheard''.pending]

/-- init is called between the close event of a socket and the timer of its reconnection. -/
theorem init_may_settle_reconnecting : ∃ trace s t, InitRun trace s ∧
    next s (.initContinues false true) = some t ∧ Deaf s.page ∧
    ¬ MaySettle s.promises.length t ∧
    Leads (fun s l t => next s l = some t) (fun _ => True)
      (fun u => u.page.isConnectedInternal = true ∧
        u.outcome s.promises.length = some .pending) t := by
  obtain ⟨trace, s, run, current, closeEvent, queue, continues⟩ := execute_run next State.first
    [.init, .initContinues true true, .opens 0, .openEvent 0, .closes 0, .closeEvent 0, .init]
    (fun _ s => s.page.webSocket = some 0 ∧
      (s.page.sockets[0]?.map (·.closeEvent)) = some .handled ∧ s.page.queue = true ∧
      (next s (.initContinues false true)).isSome = true)
    (by decide +kernel)
  obtain ⟨socket, there, handled⟩ := Option.map_eq_some_iff.mp closeEvent
  obtain ⟨t, move⟩ := Option.isSome_iff_exists.mp continues
  have deaf : Deaf s.page := ⟨0, socket, current, there, handled⟩
  obtain ⟨_, settles, connects⟩ := init_may_settle_iff run move
  refine ⟨trace, s, t, run, move, deaf, ?_, connects deaf (Or.inl queue) rfl⟩
  intro may
  exact settles.mp may ⟨deaf, Or.inl queue⟩

end Settling

end Client.Init
