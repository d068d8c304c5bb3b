import SkyCurrent.Lmq.Sound

/- The order in which one consumer is handed messages. Nodes are numbered in push order,
   so a consumer sees them in order when the numbers it is handed only grow. Pruning
   re-points claimed nodes backwards, and a consumer left standing on one of them may be
   led back to a message it has already seen. -/
namespace Lmq

open StateTransition Relation PointerForest Runs

variable {autodrop : Bool} {trace : List (System × Op)} {s t : System}

def returned (autodrop : Bool) (c : Nat) (trace : List (System × Op)) : List Nat :=
  trace.filterMap fun e => if e.2 = .tryNext c then e.1.returns autodrop c else none

/-- The links lead `c` back from the message it stands on to an earlier, unclaimed one. -/
def Stranded (s : System) (c : Nat) : Prop :=
  ∃ self, s.consumers c = some self ∧
    ∃ u, s.heap.Unclaimed u ∧ u < self.current ∧ Reaches s.heap.next self.current u

def NotStranded (s : System) (op : Op) : Prop := ∀ c, op = .tryNext c → ¬ Stranded s c

theorem returned_snoc (c : Nat) (trace : List (System × Op)) (s : System) (op : Op) :
    returned autodrop c (trace ++ [(s, op)]) = returned autodrop c trace ++
      (if op = .tryNext c then s.returns autodrop c else none).toList := by
  simp only [returned, List.filterMap_append]
  congr 1

theorem returned_other (c : Nat) (trace : List (System × Op)) (s : System) {op : Op}
    (other : op ≠ .tryNext c) :
    returned autodrop c (trace ++ [(s, op)]) = returned autodrop c trace := by
  simp [returned_snoc, other]

theorem consumer_kept (sound : Sound s) {op : Op} (move : Step autodrop s op t) {c : Nat}
    (other : op ≠ .tryNext c) {self : MessageConsumer} (live : t.consumers c = some self) :
    s.consumers c = some self ∨ c = s.trackers ∧ self.current = s.queue.root := by
  cases op with
  | push payload =>
    obtain ⟨e, _, _, rfl⟩ := step_push sound move
    exact Or.inl live
  | createConsumer id =>
    obtain rfl := step_create move
    by_cases same : c = s.trackers
    · subst same
      simp only [Function.update_self, Option.some.injEq] at live
      subst live
      exact Or.inr ⟨rfl, rfl⟩
    · simp only [Function.update_of_ne same] at live
      exact Or.inl live
  | tryNext d =>
    obtain ⟨self, h', dest, _, _, _, rfl⟩ := step_tryNext sound move
    have apart : c ≠ d := fun same => other (same ▸ rfl)
    simp only [Function.update_of_ne apart] at live
    exact Or.inl live
  | claim handle =>
    obtain ⟨m, _, rfl⟩ := step_claim move
    exact Or.inl live
  | drop d =>
    obtain ⟨self, _, rfl⟩ := step_drop move
    by_cases same : c = d
    · subst same
      simp at live
    · simp only [Function.update_of_ne same] at live
      exact Or.inl live

theorem trackers_grow (sound : Sound s) {op : Op} (move : Step autodrop s op t) :
    s.trackers ≤ t.trackers := by
  cases op with
  | push payload =>
    obtain ⟨e, _, _, rfl⟩ := step_push sound move
    exact Nat.le_refl _
  | createConsumer id =>
    obtain rfl := step_create move
    exact Nat.le_succ _
  | tryNext d =>
    obtain ⟨self, h', dest, _, _, _, rfl⟩ := step_tryNext sound move
    exact Nat.le_refl _
  | claim handle =>
    obtain ⟨m, _, rfl⟩ := step_claim move
    exact Nat.le_refl _
  | drop d =>
    obtain ⟨self, _, rfl⟩ := step_drop move
    exact Nat.le_refl _

structure Followed (autodrop : Bool) (trace : List (System × Op)) (s : System) : Prop where
  sound : Sound s
  fresh : ∀ c, s.trackers ≤ c → returned autodrop c trace = []
  standing : ∀ c self, s.consumers c = some self → self.current ≠ s.queue.root →
    self.current ∈ returned autodrop c trace

theorem queue_root_kept (sound : Sound s) {op : Op} (move : Step autodrop s op t) :
    t.queue.root = s.queue.root := by
  rw [sound.well.root_second, (step_sound sound move).well.root_second]

theorem step_followed (followed : Followed autodrop trace s) {op : Op}
    (move : Step autodrop s op t) : Followed autodrop (trace ++ [(s, op)]) t := by
  have sound := followed.sound
  refine ⟨step_sound sound move, ?_, ?_⟩
  · intro c late
    have before := followed.fresh c (Nat.le_trans (trackers_grow sound move) late)
    by_cases same : op = .tryNext c
    · subst same
      obtain ⟨self, h', dest, live, _, _, rfl⟩ := step_tryNext sound move
      have early := (sound.tracked c self live).2
      exact absurd late (Nat.not_le_of_lt early)
    · rw [returned_other c trace s same]
      exact before
  · intro c self live away
    rw [queue_root_kept sound move] at away
    by_cases same : op = .tryNext c
    · subst same
      obtain ⟨old, h', dest, liveOld, result, spec, rfl⟩ := step_tryNext sound move
      simp only [Function.update_self, Option.some.injEq] at live
      subst live
      rw [returned_snoc, if_pos rfl, result]
      cases dest with
      | none => simpa using followed.standing c old liveOld away
      | some f => simp
    · rw [returned_other c trace s same]
      rcases consumer_kept sound move same live with before | ⟨_, atRoot⟩
      · exact followed.standing c self before away
      · exact absurd atRoot away

theorem run_followed (run : QueueRun autodrop trace s) : Followed autodrop trace s := by
  induction run with
  | nil first =>
    subst first
    exact ⟨sound_init, fun c _ => rfl, fun c self live => by simp [System.init] at live⟩
  | snoc _ move ih => exact step_followed ih move

theorem returns_later (sound : Sound s) {c m : Nat} {self : MessageConsumer}
    (live : s.consumers c = some self) (home : ¬ Stranded s c)
    (result : s.returns autodrop c = some m) : self.current < m := by
  obtain ⟨h', dest, run, spec⟩ := sound.next_spec autodrop live
  have same : dest = some m := by simpa [System.returns, live, run] using result
  obtain ⟨unclaimed, apart, within⟩ := spec.origin m same
  have open_ : s.heap.Unclaimed m :=
    (claimedSince_checked autodrop s.strongCount s.heap self).unclaimed m
      ((spec.relinked.unclaimed m).mp unclaimed)
  by_contra early
  exact home ⟨self, live, m, open_, by omega, within m ReflTransGen.refl⟩

/-- A call by a stranded consumer takes it back. -/
theorem stranded_returns_earlier (autodrop : Bool) (sound : Sound s) {c : Nat}
    {self : MessageConsumer}
    (live : s.consumers c = some self) (stranded : Stranded s c) :
    ∃ m, s.returns autodrop c = some m ∧ m < self.current := by
  obtain ⟨other, liveOther, u, unclaimed, early, walk⟩ := stranded
  have same : other = self := Option.some.inj (liveOther.symm.trans live)
  subst same
  obtain ⟨h', dest, run, spec⟩ := sound.next_spec autodrop live
  obtain ⟨f, found, ahead⟩ := spec.ahead u unclaimed (Nat.ne_of_lt early) walk
  have open_ := (spec.origin f found).1
  have inner : u ≠ s.queue.tail := by
    have range := sound.well.unclaimed_range u unclaimed
    have order := sound.well.tail_lt
    omega
  have bound := spec.well.reaches_later open_ ahead inner
  refine ⟨f, ?_, by omega⟩
  simp [System.returns, live, run, found]

structure Ordered (autodrop : Bool) (trace : List (System × Op)) (s : System) : Prop where
  followed : Followed autodrop trace s
  increasing : ∀ c, (returned autodrop c trace).Pairwise (· < ·)
  behind : ∀ c self, s.consumers c = some self → ∀ m ∈ returned autodrop c trace,
    m ≤ self.current

theorem step_ordered (ordered : Ordered autodrop trace s) {op : Op} (home : NotStranded s op)
    (move : Step autodrop s op t) : Ordered autodrop (trace ++ [(s, op)]) t := by
  have sound := ordered.followed.sound
  refine ⟨step_followed ordered.followed move, ?_, ?_⟩
  · intro c
    by_cases same : op = .tryNext c
    · subst same
      obtain ⟨self, h', dest, live, result, _, rfl⟩ := step_tryNext sound move
      rw [returned_snoc, if_pos rfl, result]
      cases dest with
      | none => simpa using ordered.increasing c
      | some f =>
        have later := returns_later sound live (home c rfl) result
        rw [List.pairwise_append]
        refine ⟨ordered.increasing c, by simp, ?_⟩
        intro m seen n new
        have last : n = f := by simpa using new
        have bound := ordered.behind c self live m seen
        omega
    · rw [returned_other c trace s same]
      exact ordered.increasing c
  · intro c self live m seen
    by_cases same : op = .tryNext c
    · subst same
      obtain ⟨old, h', dest, liveOld, result, _, rfl⟩ := step_tryNext sound move
      simp only [Function.update_self, Option.some.injEq] at live
      subst live
      rw [returned_snoc, if_pos rfl, result, List.mem_append] at seen
      cases dest with
      | none =>
        rcases seen with before | new
        · exact ordered.behind c old liveOld m before
        · simp at new
      | some f =>
        have later := returns_later sound liveOld (home c rfl) result
        simp only [Option.getD_some]
        rcases seen with before | new
        · have bound := ordered.behind c old liveOld m before
          omega
        · exact Nat.le_of_eq (by simpa using new)
    · rw [returned_other c trace s same] at seen
      rcases consumer_kept sound move same live with before | ⟨new, _⟩
      · exact ordered.behind c self before m seen
      · rw [ordered.followed.fresh c (Nat.le_of_eq new.symm)] at seen
        cases seen

theorem run_ordered (run : QueueRun autodrop trace s) (home : Meets NotStranded trace) :
    Ordered autodrop trace s := by
  refine run_invariant (Ordered autodrop) ?_ ?_ run home
  · intro s first
    exact ⟨run_followed (.nil first), fun c => List.Pairwise.nil, fun c self _ m seen => by
      cases seen⟩
  · intro trace s op t _ ordered home move
    exact step_ordered ordered home move

/-- Each consumer is handed messages in push order, and none of them twice, exactly in the
    runs where no stranded consumer calls try_next. -/
theorem seen_in_order_iff (run : QueueRun autodrop trace s) :
    (∀ c, (returned autodrop c trace).Pairwise (· < ·)) ↔ Meets NotStranded trace := by
  constructor
  · intro increasing
    induction run with
    | nil first => exact meets_nil _
    | @snoc trace s t op before move ih =>
      have earlier : ∀ c, (returned autodrop c trace).Pairwise (· < ·) := by
        intro c
        have whole := increasing c
        rw [returned_snoc] at whole
        exact (List.pairwise_append.mp whole).1
      refine (meets_snoc ..).mpr ⟨ih earlier, ?_⟩
      rintro c rfl stranded
      have followed := run_followed before
      obtain ⟨self, live, u, unclaimed, early, walk⟩ := stranded
      obtain ⟨m, result, back⟩ := stranded_returns_earlier autodrop followed.sound live
        ⟨self, live, u, unclaimed, early, walk⟩
      have away : self.current ≠ s.queue.root := by
        have range := followed.sound.well.unclaimed_range u unclaimed
        omega
      have whole := increasing c
      rw [returned_snoc, if_pos rfl, result, List.pairwise_append] at whole
      have forward := whole.2.2 self.current (followed.standing c self live away) m (by simp)
      omega
  · intro home
    exact (run_ordered run home).increasing

def OnUnclaimed (s : System) : Op → Prop
  | .tryNext c => ∀ self ∈ s.consumers c,
      self.current = s.queue.root ∨ s.heap.Unclaimed self.current
  | _ => True

instance (s : System) : (op : Op) → Decidable (OnUnclaimed s op)
  | .tryNext c => inferInstanceAs (Decidable (∀ self ∈ s.consumers c,
      self.current = s.queue.root ∨ s.heap.Unclaimed self.current))
  | .push _ | .createConsumer _ | .claim _ | .drop _ => inferInstanceAs (Decidable True)

theorem notStranded_of_onUnclaimed (sound : Sound s) {op : Op} (on : OnUnclaimed s op) :
    NotStranded s op := by
  rintro c rfl ⟨self, live, u, unclaimed, early, walk⟩
  have bounds := sound.well.unclaimed_range u unclaimed
  have order := sound.well.tail_lt
  rcases on self live with atRoot | open_
  · omega
  · have later := sound.well.reaches_later open_ walk (by omega)
    omega

theorem seen_in_order_two_pushes : ∃ trace s, QueueRun true trace s ∧ Meets NotStranded trace ∧
    (∀ c, (returned true c trace).Pairwise (· < ·)) ∧ returned true 0 trace = [2, 3] := by
  obtain ⟨trace, s, run, on, seen⟩ := execute_run (step true) System.init
    [.createConsumer 7, .push [1], .push [2], .tryNext 0, .tryNext 0]
    (fun trace _ => (∀ e ∈ trace, OnUnclaimed e.1 e.2) ∧ returned true 0 trace = [2, 3])
    (by decide +kernel)
  have home : Meets NotStranded trace :=
    Meets.weaken on run fun before => notStranded_of_onUnclaimed (run_sound before)
  exact ⟨trace, s, run, home, (seen_in_order_iff run).mpr home, seen⟩

/- Message 3 is claimed and pruned onto message 2 while consumer 1 stands on it. -/
def rewindingOps : List Op :=
  [.createConsumer 7, .createConsumer 8, .createConsumer 9, .push [1], .push [2],
    .tryNext 0, .tryNext 1, .tryNext 1, .claim 2, .tryNext 0, .tryNext 1]

theorem message_seen_twice : ∃ trace s, QueueRun true trace s ∧
    trace.map (·.2) = rewindingOps ∧ returned true 1 trace = [2, 3, 2] ∧
    ¬ ∀ c, (returned true c trace).Pairwise (· < ·) := by
  obtain ⟨trace, s, run, ops, result⟩ := execute_run (step true) System.init rewindingOps
    (fun trace _ => trace.map (·.2) = rewindingOps ∧ returned true 1 trace = [2, 3, 2])
    (by decide +kernel)
  refine ⟨trace, s, run, ops, result, ?_⟩
  intro increasing
  have inOrder := increasing 1
  rw [result] at inOrder
  exact absurd inOrder (by decide)

end Lmq
