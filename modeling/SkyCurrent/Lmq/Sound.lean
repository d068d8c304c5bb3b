import SkyCurrent.Base.Runs
import SkyCurrent.Lmq.Walk

/- Every reachable state of a queue is well linked with its consumers on its nodes, so
   every operation on it returns; what each of them does is stated here once. -/
namespace Lmq

open StateTransition Relation PointerForest Runs

structure Sound (s : System) : Prop where
  well : WellLinked s.heap s.queue
  placed : ∀ c self, s.consumers c = some self →
    self.current < s.heap.size ∧ self.current ≠ s.queue.tail
  tracked : ∀ c self, s.consumers c = some self → self.dropTracker = c ∧ c < s.trackers

theorem unclaimed_checked (autodrop : Bool) (strongCount : Nat → Nat) (h : Heap)
    (self : MessageConsumer) {m : Nat} (apart : m ≠ self.current) :
    (checked autodrop strongCount h self).Unclaimed m ↔ h.Unclaimed m := by
  unfold checked checkShouldNowAutodrop
  split
  · split
    · rfl
    · dsimp only
      split
      · rw [unclaimed_claim, unclaimed_setTargets]
        exact and_iff_right apart
      · rw [unclaimed_setTargets]
  · rfl

theorem next_checked (autodrop : Bool) (strongCount : Nat → Nat) (h : Heap)
    (self : MessageConsumer) : (checked autodrop strongCount h self).next = h.next :=
  (claimedSince_checked autodrop strongCount h self).next

theorem size_checked (autodrop : Bool) (strongCount : Nat → Nat) (h : Heap)
    (self : MessageConsumer) : (checked autodrop strongCount h self).size = h.size :=
  (claimedSince_checked autodrop strongCount h self).size

/- A try_next call from `p`: it returns an unclaimed message the links lead to, and
   no unclaimed message they lead to comes before the one it returns. -/
structure NextSpec (q : LinkMessageQueue) (h₀ h h' : Heap) (p : Nat) (dest : Option Nat) :
    Prop where
  well : WellLinked h' q
  relinked : Relinked h h'
  link : h'.next p = some (dest.getD q.tail)
  origin : ∀ f, dest = some f → h'.Unclaimed f ∧ f ≠ p ∧
    ∀ z, Reaches h'.next f z → Reaches h₀.next p z
  ahead : ∀ u, h₀.Unclaimed u → u ≠ p → Reaches h₀.next p u →
    ∃ f, dest = some f ∧ Reaches h'.next f u

theorem tryNext_spec (autodrop : Bool) (strongCount : Nat → Nat) {h : Heap}
    {q : LinkMessageQueue} {self : MessageConsumer} (well : WellLinked h q)
    (range : self.current < h.size) (inner : self.current ≠ q.tail) :
    ∃ h' dest,
      tryNext autodrop strongCount h self =
        some (h', { self with current := dest.getD self.current }, dest) ∧
      NextSpec q h (checked autodrop strongCount h self) h' self.current dest := by
  have next_eq := next_checked autodrop strongCount h self
  obtain ⟨h', dest, run, walked⟩ := tryNext_rule autodrop strongCount
    (P := fun h' y =>
      (∀ z, Reaches h'.next y z → Reaches h.next self.current z) ∧
      ∀ u, h.Unclaimed u → u ≠ self.current → Reaches h.next self.current u →
        h'.Unclaimed u ∧ Reaches h'.next y u)
    well range inner
    (by
      intro h' y w well' range' kept link claimed go
      have later := reaches_pruned (c := ((checked autodrop strongCount h self).node
        self.current).isClaimed) well'.forest range' link go
      have frame := relinked_pruned h' self.current ((checked autodrop strongCount h self).node
        self.current).isClaimed y w
      constructor
      · intro z walk
        exact kept.1 z (((later z).mp walk).head go)
      · intro u unclaimed apart walk
        obtain ⟨open_, ahead⟩ := kept.2 u unclaimed apart walk
        refine ⟨(frame.unclaimed u).mpr open_, (later u).mpr ?_⟩
        rcases ReflTransGen.cases_head ahead with same | ⟨v, first, rest⟩
        · exact absurd (same ▸ open_) claimed
        · have same : w = v := Option.mem_unique go first
          exact same ▸ rest)
    (by
      intro y link
      rw [next_eq]
      constructor
      · intro z walk
        exact walk.head link
      · intro u unclaimed apart walk
        refine ⟨(unclaimed_checked autodrop strongCount h self apart).mpr unclaimed, ?_⟩
        rcases ReflTransGen.cases_head walk with same | ⟨v, first, rest⟩
        · exact absurd same.symm apart
        · have same : y = v := Option.mem_unique link first
          exact same ▸ rest)
  refine ⟨h', dest, run, walked.well, walked.relinked, ?_, ?_, ?_⟩
  · obtain ⟨y, link, _, ⟨rfl, rfl⟩ | ⟨_, rfl⟩⟩ := walked.stopped
    · exact link
    · exact link
  · intro f same
    obtain ⟨y, link, kept, ⟨_, none_⟩ | ⟨unclaimed, some_⟩⟩ := walked.stopped
    · rw [none_] at same
      cases same
    · rw [some_] at same
      cases same
      refine ⟨unclaimed, ?_, kept.1⟩
      have range' : self.current < h'.size := by
        rw [walked.relinked.size, size_checked]
        exact range
      exact next_ne_self walked.well.forest.sink_end (walked.well.forest.leads _ range') link
  · intro u unclaimed apart walk
    obtain ⟨y, link, kept, ⟨atTail, _⟩ | ⟨_, some_⟩⟩ := walked.stopped
    · obtain ⟨open_, ahead⟩ := kept.2 u unclaimed apart walk
      subst atTail
      rw [reaches_sink_iff walked.well.forest.sink_end] at ahead
      subst ahead
      exact absurd open_ walked.well.tail_claimed
    · exact ⟨y, some_, (kept.2 u unclaimed apart walk).2⟩

section Step

variable {autodrop : Bool} {s t : System}

theorem Sound.next_spec (autodrop : Bool) (sound : Sound s) {c : Nat} {self : MessageConsumer}
    (live : s.consumers c = some self) :
    ∃ h' dest,
      tryNext autodrop s.strongCount s.heap self =
        some (h', { self with current := dest.getD self.current }, dest) ∧
      NextSpec s.queue s.heap (checked autodrop s.strongCount s.heap self) h' self.current dest :=
  tryNext_spec autodrop s.strongCount sound.well (sound.placed c self live).1
    (sound.placed c self live).2

/- What each operation does, in one place; every invariant below is read off these. -/
theorem step_push (sound : Sound s) {payload : List UInt8}
    (move : Step autodrop s (.push payload) t) :
    ∃ e, Reaches s.heap.next s.queue.last e ∧ s.heap.next e = some s.queue.tail ∧
      t = { s with
        heap := appended s.heap e (newNode autodrop s.active s.queue.tail payload)
        queue := { s.queue with last := s.heap.size } } := by
  obtain ⟨e, walk, stop, run⟩ := push_spec autodrop s.active payload sound.well
  refine ⟨e, walk, stop, ?_⟩
  simp only [Step, step, run] at move
  exact (Option.some.inj move).symm

theorem step_create {id : UInt64} (move : Step autodrop s (.createConsumer id) t) :
    t = { s with
      toProcess := (createConsumer autodrop s.toProcess s.queue id).1
      consumers := Function.update s.consumers s.trackers
        (some ⟨s.queue.root, id, s.trackers⟩) } :=
  (Option.some.inj move).symm

theorem step_tryNext (sound : Sound s) {c : Nat} (move : Step autodrop s (.tryNext c) t) :
    ∃ self h' dest, s.consumers c = some self ∧ s.returns autodrop c = dest ∧
      NextSpec s.queue s.heap (checked autodrop s.strongCount s.heap self) h' self.current dest ∧
      t = { s with
        heap := h'
        consumers := Function.update s.consumers c
          (some { self with current := dest.getD self.current })
        handles := s.handles ++ dest.toList } := by
  cases live : s.consumers c with
  | none => simp [Step, step, live] at move
  | some self =>
    obtain ⟨h', dest, run, spec⟩ := sound.next_spec autodrop live
    refine ⟨self, h', dest, rfl, ?_, spec, ?_⟩
    · simp [System.returns, live, run]
    · simp [Step, step, live, run] at move
      exact move.symm

theorem step_claim {handle : Nat} (move : Step autodrop s (.claim handle) t) :
    ∃ m, s.handles[handle]? = some m ∧ t = { s with heap := (claim s.heap m).1 } := by
  cases found : s.handles[handle]? with
  | none => simp [Step, step, found] at move
  | some m =>
    simp only [Step, step, found] at move
    exact ⟨m, rfl, (Option.some.inj move).symm⟩

theorem step_drop {c : Nat} (move : Step autodrop s (.drop c) t) :
    ∃ self, s.consumers c = some self ∧
      t = { s with
        toProcess := dropConsumer autodrop s.toProcess self
        consumers := Function.update s.consumers c none } := by
  cases live : s.consumers c with
  | none => simp [Step, step, live] at move
  | some self =>
    simp only [Step, step, live] at move
    exact ⟨self, rfl, (Option.some.inj move).symm⟩

theorem sound_init : Sound System.init :=
  ⟨wellLinked_new, fun c self live => by simp [System.init] at live,
    fun c self live => by simp [System.init] at live⟩

theorem step_sound (sound : Sound s) {op : Op} (move : Step autodrop s op t) : Sound t := by
  cases op with
  | push payload =>
    obtain ⟨e, walk, stop, rfl⟩ := step_push sound move
    refine ⟨sound.well.appended rfl walk stop, ?_, sound.tracked⟩
    intro c self live
    have place := sound.placed c self live
    exact ⟨Nat.lt_succ_of_lt place.1, place.2⟩
  | createConsumer id =>
    obtain rfl := step_create move
    refine ⟨sound.well, ?_, ?_⟩
    · intro c self live
      by_cases same : c = s.trackers
      · subst same
        simp only [Function.update_self, Option.some.injEq] at live
        subst live
        exact ⟨sound.well.root_lt, Nat.ne_of_gt sound.well.tail_lt⟩
      · simp only [Function.update_of_ne same] at live
        exact sound.placed c self live
    · intro c self live
      change self.dropTracker = c ∧ c < s.trackers + 1
      by_cases same : c = s.trackers
      · subst same
        simp only [Function.update_self, Option.some.injEq] at live
        subst live
        exact ⟨rfl, Nat.lt_succ_self _⟩
      · simp only [Function.update_of_ne same] at live
        have before := sound.tracked c self live
        exact ⟨before.1, Nat.lt_succ_of_lt before.2⟩
  | tryNext c =>
    obtain ⟨self, h', dest, live, _, spec, rfl⟩ := step_tryNext sound move
    have size : h'.size = s.heap.size := by
      rw [spec.relinked.size, size_checked]
    refine ⟨spec.well, ?_, ?_⟩
    · intro d other liveD
      change other.current < h'.size ∧ other.current ≠ s.queue.tail
      rw [size]
      by_cases same : d = c
      · subst same
        simp only [Function.update_self, Option.some.injEq] at liveD
        subst liveD
        cases dest with
        | none => exact sound.placed d self live
        | some f =>
          have open_ := (spec.origin f rfl).1
          have range := spec.well.unclaimed_range f open_
          have order := spec.well.tail_lt
          simp only [Option.getD_some]
          exact ⟨by omega, by omega⟩
      · simp only [Function.update_of_ne same] at liveD
        exact sound.placed d other liveD
    · intro d other liveD
      by_cases same : d = c
      · subst same
        simp only [Function.update_self, Option.some.injEq] at liveD
        subst liveD
        exact sound.tracked d self live
      · simp only [Function.update_of_ne same] at liveD
        exact sound.tracked d other liveD
  | claim handle =>
    obtain ⟨m, _, rfl⟩ := step_claim move
    exact ⟨sound.well.claimedSince (claimedSince_claim s.heap m), sound.placed, sound.tracked⟩
  | drop c =>
    obtain ⟨self, live, rfl⟩ := step_drop move
    have since := claimedSince_checked autodrop s.strongCount s.heap self
    refine ⟨sound.well.claimedSince since, ?_, ?_⟩
    · intro d other liveD
      change other.current < (checked autodrop s.strongCount s.heap self).size ∧ _
      rw [since.size]
      by_cases same : d = c
      · subst same
        simp at liveD
      · simp only [Function.update_of_ne same] at liveD
        exact sound.placed d other liveD
    · intro d other liveD
      by_cases same : d = c
      · subst same
        simp at liveD
      · simp only [Function.update_of_ne same] at liveD
        exact sound.tracked d other liveD

end Step

abbrev QueueRun (autodrop : Bool) : List (System × Op) → System → Prop :=
  Run (· = System.init) (Step autodrop)

theorem run_sound {autodrop : Bool} {trace : List (System × Op)} {s : System}
    (run : QueueRun autodrop trace s) : Sound s := by
  induction run with
  | nil first => exact first ▸ sound_init
  | snoc _ move ih => exact step_sound ih move

end Lmq
