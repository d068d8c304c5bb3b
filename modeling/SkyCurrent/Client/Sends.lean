import SkyCurrent.Client.Steps

/- What becomes of the calls of sendStream. Every one is either sent or waits for a connection
   with one listener; the listeners that have lost their removeListener stand in front. -/
namespace Client

open Runs

section Once

def pendings (calls : List (List UInt8)) : List Pending := calls.mapIdx Pending.mk

structure Delivers (trace : List (State × Label)) (t : State) : Prop where
  settles : t.rejected = []
  once : (t.sent.map (·.2.call)).Nodup
  frames : ∀ e ∈ t.sent, t.calls[e.2.call]? = some e.2.frame
  atOnce : ∀ before s payload headerSize g,
    trace = before ++ [(s, .sendStream payload headerSize)] → s.openSocket = some g →
      t.sent = s.sent ++ [(g, s.calling payload headerSize)]
  flushes : ∀ before s g, trace = before ++ [(s, .openEvent g)] → s.webSocket = some g →
    (∀ call < t.calls.length, call ∈ t.sent.map (·.2.call)) ∧
      ∃ waiting, t.sent = s.sent ++ waiting ∧ (waiting.map (·.2.call)).Pairwise (· < ·)

/-- A call is made only while the current socket is OPEN or the client knows it is not connected,
    and where calls wait for the open event of the current socket, that socket is OPEN and
    their listeners are whole. -/
def SendsSafely (s : State) : Label → Prop
  | .sendStream _ _ => s.openSocket ≠ none ∨ s.isConnectedInternal = false
  | .openEvent g => s.webSocket = some g → s.connectionListeners = [] ∨
      s.openSocket ≠ none ∧ ∀ listener ∈ s.connectionListeners, listener.bound = true
  | _ => True

instance (s : State) : (l : Label) → Decidable (SendsSafely s l)
  | .sendStream _ _ => inferInstanceAs (Decidable (_ ∨ _))
  | .openEvent _ => inferInstanceAs (Decidable (_ → _))
  | .init | .close | .timer | .initContinues _ _ | .opens _ | .closing _ | .closes _
  | .errorEvent _ | .closeEvent _ => inferInstanceAs (Decidable True)

end Once

section Outbox

structure Outbox where
  calls : List (List UInt8)
  sent : List (Nat × Pending)
  waiting : List Listener
  made : Nat
  rejected : List Nat

def State.outbox (s : State) : Outbox :=
  ⟨s.calls, s.sent, s.connectionListeners, s.listeners, s.rejected⟩

structure Accounted (o : Outbox) : Prop where
  settled : o.rejected = []
  each : (o.sent.map (·.2) ++ o.waiting.map (·.pending)).Perm (pendings o.calls)
  ids : (o.waiting.map (·.id) ++ [o.made]).Pairwise (· < ·)
  calls : (o.waiting.map (·.pending.call)).Pairwise (· < ·)
  bound : o.waiting.Pairwise fun a b => a.bound = true → b.bound = true

variable {o : Outbox}

theorem pendings_snoc (calls : List (List UInt8)) (frame : List UInt8) :
    pendings (calls ++ [frame]) = pendings calls ++ [⟨calls.length, frame⟩] := by
  simp [pendings, List.mapIdx_append]

theorem pendings_call (calls : List (List UInt8)) :
    (pendings calls).map (·.call) = List.range calls.length := by
  induction calls using List.reverseRecOn with
  | nil => rfl
  | append_singleton calls frame ih =>
    rw [pendings_snoc, List.map_append, ih, List.length_append, List.length_singleton,
      List.range_succ, List.map_singleton]

theorem mem_pendings {calls : List (List UInt8)} {p : Pending} (member : p ∈ pendings calls) :
    calls[p.call]? = some p.frame := by
  obtain ⟨i, range, rfl⟩ := List.mem_mapIdx.mp member
  exact List.getElem?_eq_getElem range

theorem Accounted.every (accounted : Accounted o) :
    (o.sent.map (·.2.call) ++ o.waiting.map (·.pending.call)).Perm (List.range o.calls.length) := by
  have all := accounted.each.map (·.call)
  rw [pendings_call, List.map_append, List.map_map, List.map_map] at all
  exact all

theorem Accounted.calls_nodup (accounted : Accounted o) :
    (o.sent.map (·.2.call) ++ o.waiting.map (·.pending.call)).Nodup :=
  accounted.every.nodup_iff.mpr List.nodup_range

theorem Accounted.once (accounted : Accounted o) : (o.sent.map (·.2.call)).Nodup :=
  (List.nodup_append.mp accounted.calls_nodup).1

theorem Accounted.frames (accounted : Accounted o) :
    ∀ e ∈ o.sent, o.calls[e.2.call]? = some e.2.frame := by
  intro e member
  have here : e.2 ∈ o.sent.map (·.2) := List.mem_map_of_mem member
  exact mem_pendings (accounted.each.mem_iff.mp (List.mem_append_left _ here))

theorem Accounted.waiting_call (accounted : Accounted o) :
    ∀ call ∈ o.waiting.map (·.pending.call), call < o.calls.length := by
  intro call member
  exact List.mem_range.mp (accounted.every.mem_iff.mp (List.mem_append_right _ member))

theorem Accounted.all_sent (accounted : Accounted o) :
    (∀ call < o.calls.length, call ∈ o.sent.map (·.2.call)) ↔ o.waiting = [] := by
  constructor
  · intro sent
    rw [List.eq_nil_iff_forall_not_mem]
    intro listener member
    have waits : listener.pending.call ∈ o.waiting.map (·.pending.call) :=
      List.mem_map_of_mem member
    have range := accounted.waiting_call _ waits
    exact (List.nodup_append.mp accounted.calls_nodup).2.2 _ (sent _ range) _ waits rfl
  · intro none_ call range
    have member := accounted.every.mem_iff.mpr (List.mem_range.mpr range)
    rw [none_, List.map_nil, List.append_nil] at member
    exact member

end Outbox

section Notify

variable {s : State} {g : Nat} {broken whole again : List Listener}

theorem pairwise_next {ids : List Nat} {made : Nat} (ordered : (ids ++ [made]).Pairwise (· < ·)) :
    (ids ++ [made] ++ [made + 1]).Pairwise (· < ·) := by
  refine List.pairwise_append.mpr ⟨ordered, List.pairwise_singleton _ _, ?_⟩
  intro id member next there
  rw [List.mem_singleton.mp there]
  rcases List.mem_append.mp member with before | last
  · have less := (List.pairwise_append.mp ordered).2.2 id before made (List.mem_singleton_self _)
    omega
  · rw [List.mem_singleton.mp last]
    omega

theorem removeListener_eq {before after : List Listener} {listener : Listener}
    (waiting : s.connectionListeners = before ++ listener :: after)
    (ids : ((before ++ listener :: after).map (·.id)).Pairwise (· < ·)) :
    s.removeListener listener = { s with connectionListeners := before ++ after } := by
  have front : ∀ l ∈ before, (l.id != listener.id) = true := by
    intro l member
    rw [List.map_append, List.map_cons] at ids
    have less := (List.pairwise_append.mp ids).2.2 l.id (List.mem_map_of_mem member) listener.id
      (List.mem_cons_self ..)
    simpa using Nat.ne_of_lt less
  have back : ∀ l ∈ after, (l.id != listener.id) = true := by
    intro l member
    rw [List.map_append, List.map_cons] at ids
    have less := (List.pairwise_cons.mp (List.pairwise_append.mp ids).2.1).1 l.id
      (List.mem_map_of_mem member)
    simpa using Nat.ne_of_gt less
  have itself : (listener.id != listener.id) = false := by simp
  rw [State.removeListener, waiting, List.filter_append, List.filter_cons_of_neg (by simp),
    List.filter_eq_self.mpr front, List.filter_eq_self.mpr back]

theorem notify_broken (up : s.isConnectedInternal = true)
    (unbound : ∀ listener ∈ broken, listener.bound = false) : broken.foldl State.notify s = s := by
  induction broken with
  | nil => rfl
  | cons listener rest ih =>
    have throws : s.throws listener = true := by
      simp [State.throws, up, unbound listener (List.mem_cons_self ..)]
    rw [List.foldl_cons, State.notify, if_pos throws]
    exact ih fun l member => unbound l (List.mem_cons_of_mem _ member)

theorem notify_whole {listener : Listener} (up : s.isConnectedInternal = true)
    (bound : listener.bound = true) :
    s.notify listener = ((s.removeListener listener).attemptSend listener.pending).1 := by
  have goes : ¬ s.throws listener = true := by simp [State.throws, bound]
  rw [State.notify, if_neg goes, if_pos up]

theorem notify_sends (up : s.isConnectedInternal = true) (opened : s.openSocket = some g)
    (waiting : s.connectionListeners = broken ++ whole)
    (ids : ((broken ++ whole).map (·.id)).Pairwise (· < ·))
    (bound : ∀ listener ∈ whole, listener.bound = true) :
    whole.foldl State.notify s =
      s.withSends s.listeners broken (s.sent ++ whole.map fun l => (g, l.pending)) := by
  induction whole generalizing s with
  | nil =>
    rw [List.append_nil] at waiting
    simp [State.withSends, ← waiting]
  | cons listener rest ih =>
    have opened' : (s.removeListener listener).openSocket = some g := opened
    have first : s.notify listener =
        s.withSends s.listeners (broken ++ rest) (s.sent ++ [(g, listener.pending)]) := by
      rw [notify_whole up (bound listener (List.mem_cons_self ..)), attemptSend_some opened',
        removeListener_eq waiting ids]
      rfl
    have ids' : ((broken ++ rest).map (·.id)).Pairwise (· < ·) :=
      ids.sublist (((List.sublist_cons_self listener rest).append_left broken).map _)
    have later := ih (s := s.withSends s.listeners (broken ++ rest)
      (s.sent ++ [(g, listener.pending)])) up opened rfl ids'
      fun l member => bound l (List.mem_cons_of_mem _ member)
    rw [List.foldl_cons, first, later]
    simp [State.withSends]

/-- The listeners that take the place of those that were told of a connection in vain. -/
def stuck : Nat → List Listener → List Listener
  | _, [] => []
  | made, l :: ls => ⟨made, l.pending, false⟩ :: stuck (made + 1) ls

theorem notify_breaks (up : s.isConnectedInternal = true) (opened : s.openSocket = none)
    (waiting : s.connectionListeners = broken ++ (whole ++ again))
    (ids : ((broken ++ (whole ++ again)).map (·.id) ++ [s.listeners]).Pairwise (· < ·))
    (bound : ∀ listener ∈ whole, listener.bound = true) :
    whole.foldl State.notify s =
      s.withSends (s.listeners + whole.length) (broken ++ (again ++ stuck s.listeners whole))
        s.sent := by
  induction whole generalizing s again with
  | nil =>
    rw [List.nil_append] at waiting
    simp [State.withSends, stuck, ← waiting]
  | cons listener rest ih =>
    let next : Listener := ⟨s.listeners, listener.pending, false⟩
    have opened' : (s.removeListener listener).openSocket = none := opened
    have up' : (s.removeListener listener).isConnectedInternal = true := up
    have first : s.notify listener =
        s.withSends (s.listeners + 1) (broken ++ (rest ++ (again ++ [next]))) s.sent := by
      rw [notify_whole up (bound listener (List.mem_cons_self ..)), attemptSend_none opened', up',
        removeListener_eq waiting (List.pairwise_append.mp ids).1]
      simp [State.waits, State.withSends, next]
    have ids' : ((broken ++ (rest ++ (again ++ [next]))).map (·.id) ++
        [s.listeners + 1]).Pairwise (· < ·) := by
      have kept : List.Sublist (broken ++ (rest ++ again))
          (broken ++ (listener :: rest ++ again)) :=
        (List.sublist_cons_self listener (rest ++ again)).append_left broken
      have longer := pairwise_next (ids.sublist ((kept.map (·.id)).append_right [s.listeners]))
      simpa [next] using longer
    have later := ih (s := s.withSends (s.listeners + 1) (broken ++ (rest ++ (again ++ [next])))
      s.sent) up opened rfl ids' fun l member => bound l (List.mem_cons_of_mem _ member)
    rw [List.foldl_cons, first, later]
    simp [State.withSends, stuck, next, Nat.add_comm, Nat.add_left_comm]

theorem stuck_pending (made : Nat) (whole : List Listener) :
    (stuck made whole).map (·.pending) = whole.map (·.pending) := by
  induction whole generalizing made with
  | nil => rfl
  | cons listener rest ih => rw [stuck, List.map_cons, List.map_cons, ih]

theorem stuck_id (made : Nat) (whole : List Listener) :
    (stuck made whole).map (·.id) = List.range' made whole.length := by
  induction whole generalizing made with
  | nil => rfl
  | cons listener rest ih => rw [stuck, List.map_cons, ih, List.length_cons, List.range'_succ]

theorem stuck_nil (made : Nat) : stuck made whole = [] ↔ whole = [] := by
  cases whole <;> simp [stuck]

theorem stuck_bound (made : Nat) (whole : List Listener) :
    ∀ listener ∈ stuck made whole, listener.bound = false := by
  induction whole generalizing made with
  | nil => simp [stuck]
  | cons listener rest ih =>
    intro l member
    rcases List.mem_cons.mp member with first | later
    · rw [first]
    · exact ih (made + 1) l later

end Notify

section Accounting

variable {s t : State} {g : Nat} {o : Outbox} {broken whole : List Listener}

theorem split_bound {waiting : List Listener}
    (bound : waiting.Pairwise fun a b => a.bound = true → b.bound = true) :
    ∃ broken whole, waiting = broken ++ whole ∧ (∀ listener ∈ broken, listener.bound = false) ∧
      ∀ listener ∈ whole, listener.bound = true := by
  induction waiting with
  | nil => exact ⟨[], [], rfl, by simp, by simp⟩
  | cons listener rest ih =>
    obtain ⟨later, tail⟩ := List.pairwise_cons.mp bound
    cases this : listener.bound with
    | true =>
      refine ⟨[], listener :: rest, rfl, by simp, ?_⟩
      intro l member
      rcases List.mem_cons.mp member with first | behind
      · rw [first, this]
      · exact later l behind this
    | false =>
      obtain ⟨broken, whole, split, unbound, all⟩ := ih tail
      refine ⟨listener :: broken, whole, by rw [split]; rfl, ?_, all⟩
      intro l member
      rcases List.mem_cons.mp member with first | behind
      · rw [first, this]
      · exact unbound l behind

theorem nobody_broken (unbound : ∀ listener ∈ broken, listener.bound = false)
    (bound : ∀ listener ∈ whole, listener.bound = true) :
    broken = [] ↔ broken ++ whole = [] ∨ ∀ listener ∈ broken ++ whole, listener.bound = true := by
  constructor
  · intro none_
    rw [none_]
    exact Or.inr bound
  · rintro (none_ | all)
    · exact (List.append_eq_nil_iff.mp none_).1
    · rw [List.eq_nil_iff_forall_not_mem]
      intro listener member
      have now := all listener (List.mem_append_left _ member)
      rw [unbound listener member] at now
      cases now

theorem Accounted.sends (accounted : Accounted o) (waiting : o.waiting = broken ++ whole) :
    Accounted { o with
      sent := o.sent ++ whole.map fun l => (g, l.pending)
      waiting := broken } := by
  have kept : List.Sublist broken o.waiting := by
    rw [waiting]
    exact List.sublist_append_left broken whole
  constructor
  · exact accounted.settled
  · have all := accounted.each
    rw [waiting, List.map_append] at all
    have moved : (o.sent ++ whole.map fun l => (g, l.pending)).map (·.2) ++
        broken.map (·.pending) =
        o.sent.map (·.2) ++ (whole.map (·.pending) ++ broken.map (·.pending)) := by
      simp
    rw [moved]
    exact (List.perm_append_comm.append_left _).trans all
  · exact accounted.ids.sublist ((kept.map _).append_right _)
  · exact accounted.calls.sublist (kept.map _)
  · exact accounted.bound.sublist kept

theorem Accounted.breaks (accounted : Accounted o) (waiting : o.waiting = broken ++ whole)
    (unbound : ∀ listener ∈ broken, listener.bound = false) :
    Accounted { o with
      waiting := broken ++ stuck o.made whole
      made := o.made + whole.length } := by
  have same : (broken ++ stuck o.made whole).map (·.pending) = o.waiting.map (·.pending) := by
    rw [waiting, List.map_append, List.map_append, stuck_pending]
  constructor
  · exact accounted.settled
  · change (o.sent.map (·.2) ++ (broken ++ stuck o.made whole).map (·.pending)).Perm _
    rw [same]
    exact accounted.each
  · have ids := accounted.ids
    have upTo : List.range' o.made (whole.length + 1) =
        List.range' o.made whole.length ++ [o.made + whole.length] := by
      rw [List.range'_concat, Nat.one_mul]
    change ((broken ++ stuck o.made whole).map (·.id) ++ [o.made + whole.length]).Pairwise _
    rw [List.map_append, stuck_id, List.append_assoc, ← upTo]
    refine List.pairwise_append.mpr ⟨?_, List.pairwise_lt_range', ?_⟩
    · rw [waiting, List.map_append, List.append_assoc] at ids
      exact (List.pairwise_append.mp ids).1
    · intro id member later there
      have below : id < o.made := by
        rw [waiting, List.map_append] at ids
        exact (List.pairwise_append.mp ids).2.2 id (List.mem_append_left _ member) o.made
          (List.mem_singleton_self _)
      have above := (List.mem_range'_1.mp there).1
      omega
  · have calls := accounted.calls
    have compose (listeners : List Listener) :
        listeners.map (·.pending.call) = (listeners.map (·.pending)).map (·.call) := by
      rw [List.map_map]
      rfl
    change ((broken ++ stuck o.made whole).map (·.pending.call)).Pairwise _
    rw [compose, same, ← compose]
    exact calls
  · have all : ∀ listener ∈ broken ++ stuck o.made whole, listener.bound = false := by
      intro listener member
      rcases List.mem_append.mp member with before | new
      · exact unbound listener before
      · exact stuck_bound _ _ listener new
    refine List.Pairwise.imp_of_mem ?_ (List.pairwise_of_forall fun _ _ => trivial)
    intro a b first _ _ bound
    rw [all a first] at bound
    cases bound

theorem Accounted.onOpen (accounted : Accounted s.outbox) :
    Accounted s.onOpen.outbox ∧
      (s.onOpen.connectionListeners = [] ↔ s.connectionListeners = [] ∨
        s.openSocket ≠ none ∧ ∀ listener ∈ s.connectionListeners, listener.bound = true) ∧
      s.onOpen.calls = s.calls ∧
      ∃ more, s.onOpen.sent = s.sent ++ more ∧ (more.map (·.2.call)).Pairwise (· < ·) := by
  obtain ⟨broken, whole, waiting, unbound, bound⟩ := split_bound accounted.bound
  have waiting' : s.connectionListeners = broken ++ whole := waiting
  have first : s.onOpen = whole.foldl State.notify s.up := by
    have skipped := notify_broken (s := s.up) rfl unbound
    change s.connectionListeners.foldl State.notify s.up = _
    rw [waiting', List.foldl_append, skipped]
  have calls : (whole.map (·.pending.call)).Pairwise (· < ·) := by
    have all := accounted.calls
    rw [waiting, List.map_append] at all
    exact (List.pairwise_append.mp all).2.1
  cases opened : s.openSocket with
  | some g =>
    have ids : ((broken ++ whole).map (·.id)).Pairwise (· < ·) := by
      rw [← waiting]
      exact (List.pairwise_append.mp accounted.ids).1
    have ordered : ((whole.map fun l => (g, l.pending)).map (·.2.call)).Pairwise (· < ·) := by
      rw [List.map_map]
      exact calls
    rw [first, notify_sends (s := s.up) rfl opened waiting' ids bound]
    refine ⟨accounted.sends waiting, ?_, rfl, _, rfl, ordered⟩
    change broken = [] ↔ _
    rw [waiting', nobody_broken unbound bound]
    simp
  | none =>
    have unchanged : whole ++ [] = whole := List.append_nil whole
    have waiting'' : s.connectionListeners = broken ++ (whole ++ []) := by
      rw [unchanged, waiting']
    have ids := accounted.ids
    rw [waiting, ← unchanged] at ids
    have more : s.sent = s.sent ++ [] := (List.append_nil _).symm
    rw [first, notify_breaks (s := s.up) rfl opened waiting'' ids bound]
    refine ⟨accounted.breaks waiting unbound, ?_, rfl, [], more, .nil⟩
    change broken ++ stuck s.listeners whole = [] ↔ _
    rw [waiting', List.append_eq_nil_iff, List.append_eq_nil_iff, stuck_nil]
    simp

theorem Accounted.sendsNow (accounted : Accounted o) (frame : List UInt8) :
    Accounted { o with
      calls := o.calls ++ [frame]
      sent := o.sent ++ [(g, ⟨o.calls.length, frame⟩)] } := by
  constructor
  · exact accounted.settled
  · have moved : (o.sent ++ [(g, (⟨o.calls.length, frame⟩ : Pending))]).map (·.2) ++
        o.waiting.map (·.pending) =
        o.sent.map (·.2) ++ (⟨o.calls.length, frame⟩ :: o.waiting.map (·.pending)) := by
      simp
    rw [pendings_snoc, moved]
    exact List.perm_middle.trans
      ((accounted.each.cons _).trans (List.perm_append_singleton ..).symm)
  · exact accounted.ids
  · exact accounted.calls
  · exact accounted.bound

theorem Accounted.waitsNow (accounted : Accounted o) (frame : List UInt8) :
    Accounted { o with
      calls := o.calls ++ [frame]
      waiting := o.waiting ++ [⟨o.made, ⟨o.calls.length, frame⟩, true⟩]
      made := o.made + 1 } := by
  constructor
  · exact accounted.settled
  · rw [pendings_snoc, List.map_append, ← List.append_assoc]
    exact accounted.each.append_right _
  · have next := pairwise_next accounted.ids
    rw [List.map_append]
    exact next
  · rw [List.map_append]
    refine List.pairwise_append.mpr ⟨accounted.calls, List.pairwise_singleton _ _, ?_⟩
    intro call member new there
    rw [List.mem_singleton.mp there]
    exact accounted.waiting_call call member
  · refine List.pairwise_append.mpr ⟨accounted.bound, List.pairwise_singleton _ _, ?_⟩
    intro listener _ new there _
    rw [List.mem_singleton.mp there]

theorem Accounted.step {l : Label} (accounted : Accounted s.outbox) (safely : SendsSafely s l)
    (move : Takes s l t) : Accounted t.outbox := by
  cases move with
  | sends here => exact accounted.sendsNow _
  | waits none_ down => exact accounted.waitsNow _
  | rejects none_ up =>
    rcases safely with opened | down
    · exact absurd none_ opened
    · rw [up] at down
      cases down
  | @openEvent g socket socket' here moves =>
    have before : Accounted (s.put g socket').outbox := accounted
    exact before.onOpen.1
  | init => exact accounted
  | closesNothing none_ => exact accounted
  | closesSocket here => exact accounted
  | timer due => exact accounted
  | keeps queue pending idle => exact accounted
  | constructs pending connects => exact accounted
  | fails pending connects => exact accounted
  | browser of here moves => exact accounted
  | closeEvent here moves => exact accounted

end Accounting

section Claims

variable {s t : State} {trace : List (State × Label)}

theorem accounted_of_run (run : ClientRun trace s) (meets : Meets SendsSafely trace) :
    Accounted s.outbox := by
  refine run_invariant (fun _ s => Accounted s.outbox) ?_ ?_ run meets
  · rintro s rfl
    exact ⟨rfl, .nil, List.pairwise_singleton _ _, .nil, .nil⟩
  · intro _ s l t _ accounted safely move
    exact accounted.step safely (step_cases move)

theorem Accounted.openEvent (accounted : Accounted s.outbox) {g : Nat}
    (move : Takes s (.openEvent g) t) :
    (t.connectionListeners = [] ↔ s.connectionListeners = [] ∨
      s.openSocket ≠ none ∧ ∀ listener ∈ s.connectionListeners, listener.bound = true) ∧
      Accounted t.outbox ∧
      ∃ more, t.sent = s.sent ++ more ∧ (more.map (·.2.call)).Pairwise (· < ·) := by
  cases move with
  | browser of _ _ => cases of
  | @openEvent g socket socket' here moves =>
    have before : Accounted (s.put g socket').outbox := accounted
    obtain ⟨after, empty, _, more⟩ := before.onOpen
    rw [openSocket_put here moves] at empty
    exact ⟨empty, after, more⟩

theorem delivers_of_run (run : ClientRun trace t) (meets : Meets SendsSafely trace) :
    Delivers trace t := by
  have accounted := accounted_of_run run meets
  refine ⟨accounted.settled, accounted.once, accounted.frames, ?_, ?_⟩
  · rintro before s payload headerSize g rfl opened
    cases step_cases (run_before run).2 with
    | sends here =>
      obtain rfl := Option.some.inj (here.symm.trans opened)
      rfl
    | waits none_ _ =>
      rw [none_] at opened
      cases opened
    | rejects none_ _ =>
      rw [none_] at opened
      cases opened
    | browser of _ _ => cases of
  · rintro before s g rfl current
    obtain ⟨earlier, safely⟩ := (meets_snoc ..).mp meets
    obtain ⟨run', move⟩ := run_before run
    obtain ⟨empty, _, more⟩ := (accounted_of_run run' earlier).openEvent (step_cases move)
    exact ⟨accounted.all_sent.mpr (empty.mpr (safely current)), more⟩

theorem not_delivers {l : Label} (accounted : Accounted s.outbox) (move : Takes s l t)
    (outside : ¬ SendsSafely s l) : ¬ Delivers (trace ++ [(s, l)]) t := by
  intro delivers
  cases l with
  | sendStream payload headerSize =>
    obtain ⟨opened, up⟩ := not_or.mp outside
    cases move with
    | sends here =>
      rw [here] at opened
      exact opened (by simp)
    | waits _ down => exact up down
    | rejects none_ _ =>
      have some_ := delivers.settles
      simp [State.rejects] at some_
    | browser of _ _ => cases of
  | openEvent g =>
    obtain ⟨current, behind⟩ := Classical.not_imp.mp outside
    obtain ⟨empty, after, _⟩ := accounted.openEvent move
    have sent := (delivers.flushes trace s g rfl current).1
    exact behind (empty.mp (after.all_sent.mp sent))
  | init => exact outside trivial
  | close => exact outside trivial
  | timer => exact outside trivial
  | initContinues queueMade constructed => exact outside trivial
  | opens g => exact outside trivial
  | closing g => exact outside trivial
  | closes g => exact outside trivial
  | errorEvent g => exact outside trivial
  | closeEvent g => exact outside trivial

/-- Every payload is sent exactly once, and in time, in just those runs. -/
theorem delivers_iff (run : ClientRun trace s) :
    Throughout Delivers trace s ↔ Meets SendsSafely trace := by
  constructor
  · refine meets_of_throughout ?_ run
    intro trace s l t before meets move outside
    exact not_delivers (accounted_of_run before meets) (step_cases move) outside
  · exact throughout_of_runs delivers_of_run run

/-- Two calls wait for the first connection, a third finds it open. -/
theorem delivers_three : ∃ trace s, ClientRun trace s ∧ s.sent.map (·.2.call) = [0, 1, 2] ∧
    Throughout Delivers trace s := by
  obtain ⟨trace, s, run, sent, safely⟩ :=
    execute_run step .first
      [.sendStream [8] 0, .init, .initContinues true true, .sendStream [6] 1, .opens 0,
        .openEvent 0, .sendStream [] 0]
      (fun trace s => s.sent.map (·.2.call) = [0, 1, 2] ∧ ∀ e ∈ trace, SendsSafely e.1 e.2)
      (by decide +kernel)
  exact ⟨trace, s, run, sent, (delivers_iff run).mpr safely⟩

/-- The gateway has started the closing handshake, and nothing has told the client. -/
theorem sendStream_rejects : ∃ trace s, ClientRun trace s ∧ s.rejected = [0] ∧
    ¬ Delivers trace s := by
  obtain ⟨trace, s, run, rejected⟩ :=
    execute_run step .first
      [.init, .initContinues true true, .opens 0, .openEvent 0, .closing 0, .sendStream [8] 0]
      (fun _ s => s.rejected = [0]) (by decide +kernel)
  refine ⟨trace, s, run, rejected, fun delivers => ?_⟩
  rw [delivers.settles] at rejected
  cases rejected

end Claims

end Client
