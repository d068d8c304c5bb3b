import SkyCurrent.Lmq.SharedLog

/- A queue with one consumer, which may claim what it is handed at any time. Nothing claimed is
   ever ahead of it, so nothing is pruned: the queue is as good as a log, first in, first out. -/
namespace Lmq

open StateTransition Relation PointerForest Runs

variable {autodrop : Bool} {trace : List (System × Op)} {s t : System}

def InLine (h : Heap) : Prop :=
  ∀ x, 1 ≤ x → x < h.size → h.next x = some (if x + 1 < h.size then x + 1 else 0)

structure Alone (s : System) : Prop where
  sound : Sound s
  inLine : InLine s.heap
  few : s.trackers ≤ 1
  none_yet : s.trackers = 0 → s.handles = [] ∧ ∀ m, 1 < m → m < s.heap.size → s.heap.Unclaimed m
  ahead : ∀ self, s.consumers 0 = some self → (∀ m ∈ s.handles, m ≤ self.current) ∧
    ∀ m, self.current < m → m < s.heap.size → s.heap.Unclaimed m

theorem Alone.only (alone : Alone s) {c : Nat} {self : MessageConsumer}
    (live : s.consumers c = some self) : c = 0 := by
  have bound := (alone.sound.tracked c self live).2
  have few := alone.few
  omega

theorem Alone.place (alone : Alone s) {c : Nat} {self : MessageConsumer}
    (live : s.consumers c = some self) : 1 ≤ self.current ∧ self.current < s.heap.size := by
  have place := alone.sound.placed c self live
  have first := alone.sound.well.tail_first
  omega

def System.following (s : System) (self : MessageConsumer) : Option Nat :=
  if self.current + 1 < s.heap.size then some (self.current + 1) else none

theorem Alone.tryNext (alone : Alone s) {self : MessageConsumer}
    (live : s.consumers 0 = some self) :
    tryNext autodrop s.strongCount s.heap self =
      some (checked autodrop s.strongCount s.heap self,
        { self with current := (s.following self).getD self.current }, s.following self) := by
  have well := alone.sound.well
  have first := well.tail_first
  have place := alone.place live
  have link := alone.inLine self.current place.1 place.2
  have stop : s.heap.next 0 = none := first ▸ well.forest.sink_end
  obtain ⟨fuel, more⟩ : ∃ fuel, s.heap.size = fuel + 1 := ⟨s.heap.size - 1, by omega⟩
  rw [← next_checked autodrop s.strongCount s.heap self] at link stop
  have walked : walk self.current
      ((checked autodrop s.strongCount s.heap self).node self.current).isClaimed s.heap.size
      (checked autodrop s.strongCount s.heap self)
      ((checked autodrop s.strongCount s.heap self).next self.current) =
        some (checked autodrop s.strongCount s.heap self, s.following self) := by
    by_cases last : self.current + 1 < s.heap.size
    · have unclaimed := (alone.ahead self live).2 (self.current + 1) (Nat.lt_succ_self _) last
      have open_ := (unclaimed_checked autodrop s.strongCount s.heap self
        (Nat.succ_ne_self self.current)).mpr unclaimed
      have follow := alone.inLine (self.current + 1) (by omega) last
      rw [← next_checked autodrop s.strongCount s.heap self] at follow
      rw [if_pos last] at link
      have kept := setNext_same _ _ _ link
      rw [link, more, walk_stop (Nat.succ_ne_self self.current) (Or.inl open_), kept, follow,
        System.following, if_pos last]
      rfl
    · rw [if_neg last] at link
      have kept := setNext_same _ _ _ link
      rw [link, more, walk_stop (show 0 ≠ self.current by omega) (Or.inr stop), kept, stop,
        System.following, if_neg last]
      rfl
  rw [Lmq.tryNext]
  simp only [size_checked, walked]
  rfl

theorem Alone.returns (alone : Alone s) (autodrop : Bool) {self : MessageConsumer}
    (live : s.consumers 0 = some self) : s.returns autodrop 0 = s.following self := by
  simp [System.returns, live, alone.tryNext live]

section Steps

theorem Alone.push (alone : Alone s) {payload : List UInt8}
    (move : Step autodrop s (.push payload) t) : Alone t := by
  have sound := alone.sound
  have first := sound.well.tail_first
  have second := sound.well.root_second
  have root := sound.well.root_lt
  have sound' := step_sound sound move
  obtain ⟨e, walk, stop, rfl⟩ := step_push sound move
  have range := sound.well.reaches_range sound.well.last_range walk
  have inner := sound.well.forest.ne_sink stop
  have newest : e + 1 = s.heap.size := by
    have link := alone.inLine e (by omega) range
    by_contra before
    rw [if_pos (by omega), stop, first] at link
    have same := Option.some.inj link
    omega
  have unclaimed : ∀ m, 1 < m → m < s.heap.size + 1 → (m < s.heap.size → s.heap.Unclaimed m) →
      (appended s.heap e (newNode autodrop s.active s.queue.tail payload)).Unclaimed m := by
    intro m _ inside old
    rw [appended, unclaimed_setNext, unclaimed_alloc]
    by_cases new : m = s.heap.size
    · rw [if_pos new]
      rfl
    · rw [if_neg new]
      exact old (by omega)
  refine ⟨sound', ?_, alone.few, ?_, ?_⟩
  · intro x low inside
    change x < s.heap.size + 1 at inside
    change (appended s.heap e _).next x =
      some (if x + 1 < s.heap.size + 1 then x + 1 else 0)
    by_cases new : x = s.heap.size
    · subst new
      rw [if_neg (Nat.lt_irrefl _), next_newest (q := s.queue) rfl range, first]
    · by_cases last : x = e
      · subst last
        rw [if_pos (by omega), next_end, newest]
      · rw [next_older last new, if_pos (by omega), alone.inLine x low (by omega),
          if_pos (by omega)]
  · intro none_
    obtain ⟨handles, all⟩ := alone.none_yet none_
    exact ⟨handles, fun m low inside => unclaimed m low inside (all m low)⟩
  · intro self live
    obtain ⟨handles, all⟩ := alone.ahead self live
    have place := alone.place live
    exact ⟨handles, fun m later inside => unclaimed m (by omega) inside (all m later)⟩

theorem Alone.step (alone : Alone s) {op : Op} (move : Step autodrop s op t)
    (few : t.trackers ≤ 1) : Alone t := by
  have sound := alone.sound
  have second := sound.well.root_second
  have sound' := step_sound sound move
  cases op with
  | push payload => exact alone.push move
  | createConsumer id =>
    obtain rfl := step_create move
    have none_ : s.trackers = 0 := Nat.le_zero.mp (Nat.le_of_succ_le_succ few)
    obtain ⟨handles, all⟩ := alone.none_yet none_
    refine ⟨sound', alone.inLine, few, ?_, ?_⟩
    · intro zero
      exact absurd zero (Nat.succ_ne_zero _)
    · intro self live
      rw [none_] at live
      simp only [Function.update_self, Option.some.injEq] at live
      subst live
      refine ⟨?_, ?_⟩
      · intro m member
        change m ∈ s.handles at member
        rw [handles] at member
        cases member
      · intro m later inside
        exact all m (by rw [← second]; exact later) inside
  | tryNext c =>
    cases live : s.consumers c with
    | none => simp [Step, Lmq.step, live] at move
    | some self =>
      obtain rfl := alone.only live
      have place := alone.place live
      simp only [Step, Lmq.step, live, alone.tryNext live, Option.bind_eq_bind, Option.bind_some,
        Option.some.injEq] at move
      subst move
      have started : s.trackers ≠ 0 := by
        have bound := (sound.tracked 0 self live).2
        omega
      refine ⟨sound', ?_, few, fun zero => absurd zero started, ?_⟩
      · intro x low inside
        change x < (checked autodrop s.strongCount s.heap self).size at inside
        change (checked autodrop s.strongCount s.heap self).next x =
          some (if x + 1 < (checked autodrop s.strongCount s.heap self).size then x + 1 else 0)
        rw [size_checked] at inside ⊢
        rw [next_checked]
        exact alone.inLine x low inside
      · intro self' live'
        simp only [Function.update_self, Option.some.injEq] at live'
        subst live'
        obtain ⟨handles, all⟩ := alone.ahead self live
        have forward : self.current ≤ (s.following self).getD self.current ∧
            ∀ m ∈ s.following self, m ≤ (s.following self).getD self.current := by
          unfold System.following
          split <;> simp
        refine ⟨?_, ?_⟩
        · intro m member
          rcases List.mem_append.mp member with before | new
          · exact Nat.le_trans (handles m before) forward.1
          · exact forward.2 m (by simpa using new)
        · intro m later inside
          change m < (checked autodrop s.strongCount s.heap self).size at inside
          rw [size_checked] at inside
          have beyond : self.current < m := Nat.lt_of_le_of_lt forward.1 later
          exact (unclaimed_checked autodrop s.strongCount s.heap self
            (Nat.ne_of_gt beyond)).mpr (all m beyond inside)
  | claim handle =>
    obtain ⟨m, found, rfl⟩ := step_claim move
    have member := List.mem_of_getElem? found
    refine ⟨sound', ?_, alone.few, ?_, ?_⟩
    · intro x low inside
      change (claim s.heap m).1.next x = _
      rw [next_claim]
      exact alone.inLine x low inside
    · intro none_
      rw [(alone.none_yet none_).1] at member
      cases member
    · intro self live
      obtain ⟨handles, all⟩ := alone.ahead self live
      refine ⟨handles, ?_⟩
      intro n later inside
      have behind := handles m member
      exact (unclaimed_claim s.heap m n).mpr ⟨by omega, all n later inside⟩
  | drop c =>
    obtain ⟨self, live, rfl⟩ := step_drop move
    obtain rfl := alone.only live
    have started : s.trackers ≠ 0 := by
      have bound := (sound.tracked 0 self live).2
      omega
    refine ⟨sound', ?_, few, fun zero => absurd zero started, ?_⟩
    · intro x low inside
      change x < (checked autodrop s.strongCount s.heap self).size at inside
      change (checked autodrop s.strongCount s.heap self).next x =
        some (if x + 1 < (checked autodrop s.strongCount s.heap self).size then x + 1 else 0)
      rw [size_checked] at inside ⊢
      rw [next_checked]
      exact alone.inLine x low inside
    · intro self' live'
      simp at live'

theorem alone_init : Alone System.init := by
  refine ⟨sound_init, ?_, Nat.zero_le _, ?_, ?_⟩
  · intro x low inside
    change x < 2 at inside
    obtain rfl : x = 1 := by omega
    rfl
  · intro _
    refine ⟨rfl, ?_⟩
    intro m low inside
    change m < 2 at inside
    omega
  · intro self live
    cases live

theorem run_alone (run : QueueRun autodrop trace s) (few : s.trackers ≤ 1) : Alone s := by
  induction run with
  | nil first =>
    subst first
    exact alone_init
  | snoc before move ih =>
    have earlier := trackers_grow (run_sound before) move
    exact (ih (Nat.le_trans earlier few)).step move few

end Steps

theorem Alone.faithful (alone : Alone s) (op : Op) : Faithful autodrop s op := by
  have second := alone.sound.well.root_second
  refine ⟨?_, ?_⟩
  · rintro c rfl ⟨self, live, u, unclaimed, early, walk⟩
    have place := alone.place live
    have later : ∀ y, Reaches s.heap.next self.current y → y ≠ 0 → self.current ≤ y := by
      intro y walk
      induction walk with
      | refl => exact fun _ => Nat.le_refl _
      | @tail a b before link ih =>
        intro inner
        by_cases zero : a = 0
        · subst zero
          have stop := alone.sound.well.forest.sink_end
          rw [alone.sound.well.tail_first] at stop
          rw [show s.heap.next 0 = some b from link] at stop
          cases stop
        · have bound := ih zero
          have range := alone.sound.well.reaches_range place.2 before
          have here := alone.inLine a (by omega) range
          rw [show s.heap.next a = some b from link] at here
          have same := Option.some.inj here
          split at same <;> omega
    have range := alone.sound.well.unclaimed_range u unclaimed
    have bound := later u walk (by omega)
    omega
  · rintro c rfl ⟨self, live, apart, claimed⟩
    obtain rfl := alone.only live
    have place := alone.place live
    have link := alone.inLine self.current place.1 place.2
    by_cases last : self.current + 1 < s.heap.size
    · rw [if_pos last] at link
      have unclaimed := (alone.ahead self live).2 (self.current + 1) (Nat.lt_succ_self _) last
      exact claimed (self.current + 1) (reaches_next link)
        ((unclaimed_checked autodrop s.strongCount s.heap self
          (Nat.succ_ne_self self.current)).mpr unclaimed)
    · rw [if_neg last, ← alone.sound.well.tail_first] at link
      exact apart link

theorem run_faithful (run : QueueRun autodrop trace s) (few : s.trackers ≤ 1) :
    Meets (Faithful autodrop) trace := by
  induction run with
  | nil first => exact meets_nil _
  | snoc before move ih =>
    have earlier := Nat.le_trans (trackers_grow (run_sound before) move) few
    exact (meets_snoc ..).mpr ⟨ih earlier, (run_alone before earlier).faithful _⟩

/-- While no stranded consumer calls try_next and no call truncates the list, all that is seen
    of the queue is seen of a log that its messages are appended to, and each consumer reads it
    from its beginning. -/
theorem refines_shared_log (run : QueueRun autodrop trace s)
    (faithful : Meets (Faithful autodrop) trace) :
    Path SharedLog.Step .empty (seen autodrop trace) s.log ∧
      SharedLog.Kept (seen autodrop trace) s.log := by
  obtain ⟨_, path, _, _, rfl⟩ := (log_simulates autodrop).run run faithful
  exact ⟨path, SharedLog.kept_of_path path⟩

/-- The first message is dropped as its only consumer passes on, so its claim finds nothing. -/
theorem refines_shared_log_claims : ∃ trace s, QueueRun true trace s ∧
    Meets (Faithful true) trace ∧
    seen true trace = [.enters, .appends [1], .appends [2], .reads 0 (some 0), .takes 0 (some [1]),
      .reads 0 (some 1), .takes 1 (some [2]), .takes 0 none, .reads 0 none] ∧
    Path SharedLog.Step .empty (seen true trace) s.log ∧
    SharedLog.Kept (seen true trace) s.log := by
  obtain ⟨trace, s, run, few, events⟩ := execute_run (step true) System.init
    [.createConsumer 7, .push [1], .push [2], .tryNext 0, .tryNext 0, .claim 1, .claim 0,
      .tryNext 0]
    (fun trace s => s.trackers ≤ 1 ∧ seen true trace = [.enters, .appends [1], .appends [2],
      .reads 0 (some 0), .takes 0 (some [1]), .reads 0 (some 1), .takes 1 (some [2]),
      .takes 0 none, .reads 0 none]) (by decide +kernel)
  have faithful := run_faithful run few
  exact ⟨trace, s, run, faithful, events, refines_shared_log run faithful⟩

def InTurn (autodrop : Bool) (trace : List (System × Op)) (s : System) (k : Nat) : Prop :=
  returned autodrop 0 trace = List.range' 2 k ∧ k + 2 ≤ s.heap.size ∧
    (s.trackers = 0 → k = 0) ∧ ∀ self, s.consumers 0 = some self → self.current = k + 1

theorem InTurn.step {k : Nat} (turn : InTurn autodrop trace s k) (alone : Alone s) {op : Op}
    (move : Step autodrop s op t) (few : t.trackers ≤ 1) :
    ∃ k', InTurn autodrop (trace ++ [(s, op)]) t k' := by
  obtain ⟨given, bound, fresh, standing⟩ := turn
  have sound := alone.sound
  cases op with
  | push payload =>
    have same : returned autodrop 0 (trace ++ [(s, .push payload)]) = returned autodrop 0 trace :=
      returned_other 0 trace s (by simp)
    obtain ⟨e, _, _, rfl⟩ := step_push sound move
    exact ⟨k, same.trans given, Nat.le_succ_of_le bound, fresh, standing⟩
  | createConsumer id =>
    have same : returned autodrop 0 (trace ++ [(s, .createConsumer id)]) =
        returned autodrop 0 trace :=
      returned_other 0 trace s (by simp)
    obtain rfl := step_create move
    have none_ : s.trackers = 0 := Nat.le_zero.mp (Nat.le_of_succ_le_succ few)
    obtain rfl := fresh none_
    refine ⟨0, same.trans given, bound, fun _ => rfl, ?_⟩
    intro self live
    rw [none_] at live
    simp only [Function.update_self, Option.some.injEq] at live
    subst live
    exact sound.well.root_second
  | tryNext c =>
    cases live : s.consumers c with
    | none => simp [Step, Lmq.step, live] at move
    | some self =>
      obtain rfl := alone.only live
      have here := standing self live
      have result := alone.returns autodrop live
      have tracked := (sound.tracked 0 self live).2
      have given' : returned autodrop 0 (trace ++ [(s, .tryNext 0)]) = _ :=
        returned_snoc 0 trace s (.tryNext 0)
      rw [if_pos rfl, result, given] at given'
      simp only [Step, Lmq.step, live, alone.tryNext live, Option.bind_eq_bind, Option.bind_some,
        Option.some.injEq] at move
      subst move
      by_cases last : self.current + 1 < s.heap.size
      · have next : s.following self = some (k + 2) := by
          rw [System.following, if_pos last, here]
        rw [next] at given'
        refine ⟨k + 1, ?_, ?_, ?_, ?_⟩
        · rw [given', List.range'_concat]
          simp [Nat.add_comm]
        · change k + 1 + 2 ≤ (checked autodrop s.strongCount s.heap self).size
          rw [size_checked]
          omega
        · intro zero
          exact absurd zero (Nat.ne_of_gt tracked)
        · intro self' live'
          simp only [Function.update_self, Option.some.injEq] at live'
          subst live'
          simp [next]
      · have next : s.following self = none := by
          rw [System.following, if_neg last]
        rw [next] at given'
        refine ⟨k, ?_, ?_, fresh, ?_⟩
        · rw [given']
          exact List.append_nil _
        · change k + 2 ≤ (checked autodrop s.strongCount s.heap self).size
          rw [size_checked]
          exact bound
        · intro self' live'
          simp only [Function.update_self, Option.some.injEq] at live'
          subst live'
          simp [next, here]
  | claim handle =>
    have same : returned autodrop 0 (trace ++ [(s, .claim handle)]) = returned autodrop 0 trace :=
      returned_other 0 trace s (by simp)
    obtain ⟨m, _, rfl⟩ := step_claim move
    exact ⟨k, same.trans given, bound, fresh, standing⟩
  | drop c =>
    have same : returned autodrop 0 (trace ++ [(s, .drop c)]) = returned autodrop 0 trace :=
      returned_other 0 trace s (by simp)
    obtain ⟨self, live, rfl⟩ := step_drop move
    obtain rfl := alone.only live
    refine ⟨k, same.trans given, ?_, fresh, ?_⟩
    · change k + 2 ≤ (checked autodrop s.strongCount s.heap self).size
      rw [size_checked]
      exact bound
    · intro self' live'
      simp at live'

theorem run_inTurn (run : QueueRun autodrop trace s) (few : s.trackers ≤ 1) :
    ∃ k, InTurn autodrop trace s k := by
  induction run with
  | nil first =>
    subst first
    refine ⟨0, rfl, Nat.le_refl _, fun _ => rfl, ?_⟩
    intro self live
    cases live
  | snoc before move ih =>
    have earlier := Nat.le_trans (trackers_grow (run_sound before) move) few
    obtain ⟨k, turn⟩ := ih earlier
    exact turn.step (run_alone before earlier) move few

theorem size_of_run (run : QueueRun autodrop trace s) :
    s.heap.size = (pushes trace).length + 2 := by
  have count := (run_accounts run).length
  have root := (run_sound run).well.root_lt
  have second := (run_sound run).well.root_second
  rw [appended_seen] at count
  simp only [Heap.messages, List.length_map, List.length_range] at count
  omega

/-- As long as no second consumer is made, the first is handed the messages one by one in the
    order of the pushes, whatever it claims, and is turned away only when it has had them all. -/
theorem single_consumer_in_turn (run : QueueRun autodrop trace s) (few : s.trackers ≤ 1) :
    ∃ k, k ≤ (pushes trace).length ∧ returned autodrop 0 trace = List.range' 2 k ∧
      ∀ self, s.consumers 0 = some self →
        s.returns autodrop 0 = (if k < (pushes trace).length then some (k + 2) else none) ∧
        ∀ payload, (pushes trace)[k]? = some payload →
          (s.heap.node (k + 2)).payload = some payload := by
  have alone := run_alone run few
  have sound := run_sound run
  have size := size_of_run run
  obtain ⟨k, given, bound, _, standing⟩ := run_inTurn run few
  refine ⟨k, by omega, given, ?_⟩
  intro self live
  have here := standing self live
  refine ⟨?_, ?_⟩
  · rw [alone.returns autodrop live, System.following, here, size]
    split <;> split <;> first | rfl | omega
  · intro payload pushed
    have inside := (List.getElem?_eq_some_iff.mp pushed).1
    have unclaimed := (alone.ahead self live).2 (k + 2) (by omega) (by omega)
    have value := ((run_accounts run).held k ((holds_messages sound.well).mpr unclaimed)).1
    rw [appended_seen, pushed, messages_get, if_pos (by omega)] at value
    exact Option.some.inj value

theorem single_consumer_claims : ∃ trace s, QueueRun true trace s ∧ s.trackers ≤ 1 ∧
    returned true 0 trace = [2, 3] ∧ s.returns true 0 = some 4 ∧
    (s.heap.node 4).payload = some [3] := by
  obtain ⟨trace, s, run, few, returned, pushed, live⟩ := execute_run (step true) System.init
    [.createConsumer 7, .push [1], .push [2], .tryNext 0, .claim 0, .push [3], .tryNext 0]
    (fun trace s => s.trackers ≤ 1 ∧ returned true 0 trace = [2, 3] ∧
      pushes trace = [[1], [2], [3]] ∧ (s.consumers 0).isSome = true) (by decide +kernel)
  obtain ⟨self, here⟩ := Option.isSome_iff_exists.mp live
  obtain ⟨k, _, handed, next⟩ := single_consumer_in_turn run few
  have two : k = 2 := by simpa using (congrArg List.length (returned.symm.trans handed)).symm
  subst two
  obtain ⟨third, payload⟩ := next self here
  rw [pushed] at third payload
  exact ⟨trace, s, run, few, returned, third, payload [3] rfl⟩

end Lmq
