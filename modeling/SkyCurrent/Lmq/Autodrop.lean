import SkyCurrent.Lmq.Ledger

/- Autodrop claims a message only after the consumers that were there for it are through
   with it. It looks at a message only when a consumer leaves it, though, so the last
   consumer a message waits for can be dropped elsewhere without anybody noticing. -/
namespace Lmq

open Runs

variable {trace : List (System × Op)} {s t : System} {op : Op}

/-- The operation takes a message away that was there before it. -/
def TakesAway (s : System) (op : Op) (t : System) (m : Nat) : Prop :=
  ∃ c, (op = .tryNext c ∨ op = .drop c) ∧ s.heap.Unclaimed m ∧ ¬ t.heap.Unclaimed m

/-- check_should_now_autodrop, called by the operation, claims the message it looks at. -/
def AutodropClaims (s : System) (op : Op) (m : Nat) : Prop :=
  ∃ c self targets, (op = .tryNext c ∨ op = .drop c) ∧ s.consumers c = some self ∧
    self.current = m ∧ (s.heap.node m).targetConsumers = some targets ∧
    (targets.remove self.id).allDead s.strongCount = true

/-- A message that a check takes away is claimed by it. -/
theorem autodropClaims_of_taken {c m : Nat} {self : MessageConsumer}
    (acts : op = .tryNext c ∨ op = .drop c) (live : s.consumers c = some self)
    (before : s.heap.Unclaimed m)
    (after : ¬ (checked true s.strongCount s.heap self).Unclaimed m) : AutodropClaims s op m := by
  have here : self.current = m := by
    by_contra apart
    exact after ((unclaimed_checked true s.strongCount s.heap self (Ne.symm apart)).mpr before)
  subst here
  unfold checked checkShouldNowAutodrop at after
  rw [if_pos rfl] at after
  split at after
  · exact absurd before after
  · rename_i targets some_
    dsimp only at after
    split at after
    · rename_i dead
      exact ⟨c, self, targets, acts, live, rfl, some_, dead⟩
    · rw [unclaimed_setTargets] at after
      exact absurd before after

theorem TakesAway.claims (sound : Sound s) (move : Step true s op t) {m : Nat}
    (takes : TakesAway s op t m) : AutodropClaims s op m := by
  obtain ⟨c, now, before, after⟩ := takes
  rcases now with rfl | rfl
  · obtain ⟨self, h', dest, live, _, spec, rfl⟩ := step_tryNext sound move
    -- the walk after the check claims nothing
    exact autodropClaims_of_taken (Or.inl rfl) live before
      fun unclaimed => after ((spec.relinked.unclaimed m).mpr unclaimed)
  · obtain ⟨self, live, rfl⟩ := step_drop move
    exact autodropClaims_of_taken (Or.inr rfl) live before after

/-- Whoever was alive when the message was pushed is gone or has passed it on. -/
theorem autodrop_not_early (run : QueueRun true (trace ++ [(s, op)]) t)
    (ids : DistinctIds (trace ++ [(s, op)])) {d m : Nat}
    (claims : TakesAway s op t m ∨ AutodropClaims s op m) (alive : AliveAtPush trace d m) :
    Dropped (trace ++ [(s, op)]) d ∨ PassedOn (trace ++ [(s, op)]) d m := by
  have claims : AutodropClaims s op m :=
    claims.elim (TakesAway.claims (run_sound (run_before run).1) (run_before run).2) id
  obtain ⟨c, self, targets, acts, live, here, some_, dead⟩ := claims
  have before := (run_before run).1
  have earlier := distinctIds_before ids
  have reg := run_registered before earlier
  have acc := run_accounted before earlier
  rw [allDead_iff] at dead
  rw [dropped_snoc, passedOn_snoc]
  rcases acc.settled d m (acc.alive d m alive) with ⟨id, left⟩ | on | gone
  · obtain ⟨created, _, _⟩ := acc.waiting id d m left
    by_cases mine : id = self.id
    · -- The consumer is the one that makes the check.
      have same : d = c := earlier.same created (mine ▸ (reg.live c self live).1)
      subst same
      rcases acts with now | now
      · exact Or.inr (Or.inr ⟨now, self, live, here⟩)
      · exact Or.inl (Or.inr now)
    · have entry : (id, d) ∈ targets.remove self.id := by
        simp only [Heap.targets, some_, Option.getD_some] at left
        exact (mem_remove ..).mpr ⟨left, mine⟩
      have range := createdIds_lt created
      rw [← reg.created] at range
      cases liveD : s.consumers d with
      | none => exact Or.inl (Or.inl (reg.dead d range liveD).2)
      | some other => exact absurd (dead _ entry) (reg.live d other liveD).2.2
  · exact Or.inr (Or.inl on)
  · exact Or.inl (Or.inl gone)

/-- Two consumers see a message and move on, the second of them takes it away. -/
theorem autodrop_not_early_two_consumers : ∃ trace s op t,
    QueueRun true (trace ++ [(s, op)]) t ∧ TakesAway s op t 2 ∧ AliveAtPush trace 0 2 ∧
      (Dropped (trace ++ [(s, op)]) 0 ∨ PassedOn (trace ++ [(s, op)]) 0 2) := by
  obtain ⟨trace, s, run, ids, unclaimed, taken, pushed⟩ :=
    execute_run (step true) System.init
      [.createConsumer 7, .createConsumer 8, .push [1], .tryNext 0, .tryNext 1, .tryNext 0]
      (fun trace s => createdIds trace = [7, 8] ∧ s.heap.Unclaimed 2 ∧
        (∃ t ∈ step true s (.tryNext 1), ¬ t.heap.Unclaimed 2) ∧
        (trace.drop 2).head?.map (fun e => (e.2, e.1.heap.size, e.1.consumers 0)) =
          some (.push [1], 2, some ⟨1, 7, 0⟩))
      (by decide +kernel)
  simp only [Option.map_eq_some_iff, Prod.mk.injEq] at pushed
  obtain ⟨⟨u, _⟩, pushed, rfl, size, up⟩ := pushed
  obtain ⟨t, move, claimed⟩ := taken
  have takes : TakesAway s (.tryNext 1) t 2 := ⟨1, Or.inl rfl, unclaimed, claimed⟩
  have alive : AliveAtPush trace 0 2 :=
    ⟨u, [1], _, List.mem_of_mem_drop (List.mem_of_mem_head? pushed), size, up⟩
  have whole := run.snoc move
  have distinct : DistinctIds (trace ++ [(s, .tryNext 1)]) := by
    rw [DistinctIds, createdIds_snoc, ids]
    change ([7, 8] : List UInt64).Nodup
    decide
  exact ⟨trace, s, _, t, whole, takes, alive,
    autodrop_not_early whole distinct (Or.inl takes) alive⟩

/-- A message whose consumers are all gone or have passed it on is claimed. -/
def Reclaimed (trace : List (System × Op)) (s : System) : Prop :=
  ∀ m, (∃ d, InSnapshot trace d m) →
    (∀ d, InSnapshot trace d m → Dropped trace d ∨ PassedOn trace d m) → ¬ s.heap.Unclaimed m

/-- A consumer that is dropped leaves a live one behind on every other message it is waited
    for at. -/
def LeavesAnother (s : System) (op : Op) : Prop :=
  ∀ c self m, op = .drop c → s.consumers c = some self → m ≠ self.current →
    s.heap.Unclaimed m → (self.id, c) ∈ s.heap.targets m →
    ∃ e ∈ s.heap.targets m, e.2 ≠ c ∧ s.strongCount e.2 ≠ 0

def Held (trace : List (System × Op)) (s : System) : Prop :=
  ∀ m, (∃ d, InSnapshot trace d m) → s.heap.Unclaimed m →
    ∃ e ∈ s.heap.targets m, s.strongCount e.2 ≠ 0

theorem Held.reclaimed (held : Held trace s) (reg : Registered trace s)
    (acc : Accounted trace s) : Reclaimed trace s := by
  intro m waited through unclaimed
  obtain ⟨⟨id, d⟩, left, alive⟩ := held m waited unclaimed
  obtain ⟨_, member, notOn⟩ := acc.waiting id d m left
  rcases through d member with gone | on
  · have before := reg.dropped d gone
    exact alive (reg.dead d before.1 before.2).1
  · exact notOn on

theorem Held.checked (held : Held trace s) (acc : Accounted trace s) {self : MessageConsumer}
    {m : Nat} (waited : ∃ d, InSnapshot trace d m)
    (unclaimed : (checked true s.strongCount s.heap self).Unclaimed m) :
    ∃ e ∈ (checked true s.strongCount s.heap self).targets m, s.strongCount e.2 ≠ 0 := by
  by_cases here : m = self.current
  · subst here
    obtain ⟨d, member⟩ := waited
    rw [checked_current]
    exact checked_held (acc.pushed d _ member).2 unclaimed
  · rw [unclaimed_checked _ _ _ _ here] at unclaimed
    rw [checked_other _ _ _ _ here]
    exact held m waited unclaimed

theorem step_held (held : Held trace s) (sound : Sound s) (reg : Registered trace s)
    (acc : Accounted trace s) (ids : DistinctIds trace) (another : LeavesAnother s op)
    (move : Step true s op t) : Held (trace ++ [(s, op)]) t := by
  intro m waited unclaimed
  have older : (∀ payload, op ≠ .push payload) → ∃ d, InSnapshot trace d m := by
    intro noPush
    obtain ⟨d, member⟩ := waited
    rcases inSnapshot_snoc.mp member with earlier | ⟨⟨payload, now⟩, _⟩
    · exact ⟨d, earlier⟩
    · exact absurd now (noPush payload)
  cases op with
  | push payload =>
    obtain ⟨e, walk, stop, rfl⟩ := step_push sound move
    have node : (appended s.heap e (newNode true s.active s.queue.tail payload)).targets m =
        if m = s.heap.size then s.active else s.heap.targets m := by
      rw [Heap.targets, appended, targets_setNext, targets_alloc]
      split <;> rfl
    change ∃ e' ∈ (appended s.heap e (newNode true s.active s.queue.tail payload)).targets m,
      s.strongCount e'.2 ≠ 0
    rw [node]
    obtain ⟨d, member⟩ := waited
    rcases inSnapshot_snoc.mp member with earlier | ⟨_, new, id, entry⟩
    · have range := (acc.pushed d m earlier).1
      rw [if_neg (Nat.ne_of_lt range)]
      refine held m ⟨d, earlier⟩ ?_
      simpa [appended, unclaimed_alloc, Nat.ne_of_lt range] using unclaimed
    · rw [if_pos new.symm]
      obtain ⟨self, live⟩ := reg.active id d entry
      exact ⟨(id, d), entry, (reg.live d self live).2.2⟩
  | createConsumer id =>
    obtain rfl := step_create move
    obtain ⟨⟨i, d⟩, left, alive⟩ := held m (older (by simp)) unclaimed
    have range := createdIds_lt (acc.waiting i d m left).1
    rw [← reg.created] at range
    refine ⟨(i, d), left, ?_⟩
    simpa [createConsumer, Function.update_of_ne (Nat.ne_of_lt range)] using alive
  | tryNext c =>
    obtain ⟨self, h', dest, live, _, spec, rfl⟩ := step_tryNext sound move
    have after := held.checked acc (older (by simp)) ((spec.relinked.unclaimed m).mp unclaimed)
    simpa only [Heap.targets, spec.relinked.targets] using after
  | claim handle =>
    obtain ⟨x, _, rfl⟩ := step_claim move
    have before := held m (older (by simp)) ((unclaimed_claim s.heap x m).mp unclaimed).2
    simpa only [Heap.targets, targets_claim] using before
  | drop c =>
    obtain ⟨self, live, rfl⟩ := step_drop move
    have tracker := (sound.tracked c self live).1
    have after := held.checked acc (older (by simp)) unclaimed
    -- The one that is left must not be the consumer that goes.
    have apart : ∃ e ∈ (Lmq.checked true s.strongCount s.heap self).targets m,
        e.2 ≠ c ∧ s.strongCount e.2 ≠ 0 := by
      by_cases here : m = self.current
      · obtain ⟨⟨id, d⟩, left, alive⟩ := after
        have both := (checked_targets reg acc ids live id d m).mp left
        exact ⟨(id, d), left, fun atC => both.2 ⟨atC, here.symm⟩, alive⟩
      · rw [checked_other _ _ _ _ here] at after ⊢
        obtain ⟨⟨id, d⟩, left, alive⟩ := after
        by_cases atC : d = c
        · subst atC
          have entry := (acc.waiting id d m left).1
          have mine : id = self.id := Option.some.inj (entry.symm.trans (reg.live d self live).1)
          subst mine
          exact another d self m rfl live here
            ((unclaimed_checked _ _ _ _ here).mp unclaimed) left
        · exact ⟨(id, d), left, atC, alive⟩
    obtain ⟨e, left, atC, alive⟩ := apart
    refine ⟨e, left, ?_⟩
    simpa [dropConsumer, tracker, Function.update_of_ne atC] using alive

theorem not_reclaimed (reg : Registered trace s) (acc : Accounted trace s)
    (alone : ¬ LeavesAnother s op) (move : Step true s op t) :
    ¬ Reclaimed (trace ++ [(s, op)]) t := by
  simp only [LeavesAnother, not_forall] at alone
  obtain ⟨c, self, m, rfl, live, here, unclaimed, mine, alone⟩ := alone
  obtain ⟨mover, liveM, rfl⟩ := step_drop move
  obtain rfl : self = mover := Option.some.inj (live.symm.trans liveM)
  intro reclaimed
  have member := (acc.waiting _ c m mine).2.1
  refine reclaimed m ⟨c, inSnapshot_snoc.mpr (Or.inl member)⟩ ?_
    ((unclaimed_checked true s.strongCount s.heap self here).mpr unclaimed)
  intro d memberD
  rw [dropped_snoc, passedOn_snoc]
  rcases inSnapshot_snoc.mp memberD with earlier | ⟨⟨payload, now⟩, _⟩
  · rcases acc.settled d m earlier with ⟨id, left⟩ | on | gone
    · by_cases atC : d = c
      · exact Or.inl (Or.inr (atC ▸ rfl))
      · have range := createdIds_lt (acc.waiting id d m left).1
        rw [← reg.created] at range
        cases liveD : s.consumers d with
        | none => exact Or.inl (Or.inl (reg.dead d range liveD).2)
        | some other =>
          exact absurd ⟨(id, d), left, atC, (reg.live d other liveD).2.2⟩ alone
    · exact Or.inr (Or.inl on)
    · exact Or.inl (Or.inl gone)
  · cases now

theorem held_init : Held [] System.init := by
  intro m ⟨d, u, payload, id, member, _⟩
  cases member

/-- Messages are reclaimed throughout a run exactly when no consumer is dropped away from a
    message that waits for it alone. -/
theorem reclaimed_iff (run : QueueRun true trace s) (ids : DistinctIds trace) :
    Throughout Reclaimed trace s ↔ Meets LeavesAnother trace := by
  constructor
  · intro reclaimed
    induction run with
    | nil first => exact meets_nil _
    | @snoc trace s t op before move ih =>
      have earlier := distinctIds_before ids
      rw [throughout_snoc] at reclaimed
      refine (meets_snoc ..).mpr ⟨ih earlier reclaimed.2, ?_⟩
      by_contra alone
      exact not_reclaimed (run_registered before earlier) (run_accounted before earlier) alone
        move reclaimed.1
  · intro another
    have both : Throughout Reclaimed trace s ∧ Held trace s := by
      induction run with
      | nil first =>
        subst first
        have held := held_init
        exact ⟨(throughout_nil ..).mpr (held.reclaimed (run_registered (.nil rfl) ids)
          (run_accounted (.nil rfl) ids)), held⟩
      | @snoc trace s t op before move ih =>
        have earlier := distinctIds_before ids
        rw [meets_snoc] at another
        obtain ⟨reclaimed, held⟩ := ih earlier another.1
        have after := step_held held (run_sound before) (run_registered before earlier)
          (run_accounted before earlier) earlier another.2 move
        have whole := before.snoc move
        have now := after.reclaimed (run_registered whole ids) (run_accounted whole ids)
        exact ⟨(throughout_snoc ..).mpr ⟨now, reclaimed⟩, after⟩
    exact both.1

def LeavesAnotherBelow (s : System) : Op → Prop
  | .drop c => ∀ self ∈ s.consumers c, ∀ m < s.heap.size, m ≠ self.current →
      s.heap.Unclaimed m → (self.id, c) ∈ s.heap.targets m →
        ∃ e ∈ s.heap.targets m, e.2 ≠ c ∧ s.strongCount e.2 ≠ 0
  | _ => True

instance (s : System) : (op : Op) → Decidable (LeavesAnotherBelow s op)
  | .drop c => inferInstanceAs (Decidable (∀ self ∈ s.consumers c, ∀ m < s.heap.size,
      m ≠ self.current → s.heap.Unclaimed m → (self.id, c) ∈ s.heap.targets m →
        ∃ e ∈ s.heap.targets m, e.2 ≠ c ∧ s.strongCount e.2 ≠ 0))
  | .push _ | .createConsumer _ | .tryNext _ | .claim _ => inferInstanceAs (Decidable True)

theorem leavesAnother_of_below (sound : Sound s) (below : LeavesAnotherBelow s op) :
    LeavesAnother s op := by
  rintro c self m rfl live apart unclaimed waits
  exact below self live m (sound.well.unclaimed_range m unclaimed).2 apart unclaimed waits

theorem reclaimed_iff_two_consumers : ∃ trace s, QueueRun true trace s ∧
    Meets LeavesAnother trace ∧ Throughout Reclaimed trace s ∧ ¬ s.heap.Unclaimed 2 := by
  obtain ⟨trace, s, run, ids, below, claimed⟩ := execute_run (step true) System.init
    [.createConsumer 7, .createConsumer 8, .push [1], .tryNext 0, .tryNext 1, .tryNext 0, .drop 1]
    (fun trace s => createdIds trace = [7, 8] ∧ (∀ e ∈ trace, LeavesAnotherBelow e.1 e.2) ∧
      ¬ s.heap.Unclaimed 2) (by decide +kernel)
  have distinct : DistinctIds trace := by
    rw [DistinctIds, ids]
    decide
  have another : Meets LeavesAnother trace :=
    Meets.weaken below run fun before => leavesAnother_of_below (run_sound before)
  exact ⟨trace, s, run, another, (reclaimed_iff run distinct).mpr another, claimed⟩

/- Consumer 1 is dropped at the root, where nothing is checked; message 2 waits for it. -/
def leakingOps : List Op :=
  [.createConsumer 7, .createConsumer 8, .push [1], .tryNext 0, .tryNext 0, .drop 1]

theorem message_never_reclaimed : ∃ trace s, QueueRun true trace s ∧ DistinctIds trace ∧
    trace.map (·.2) = leakingOps ∧ s.heap.Unclaimed 2 ∧ ¬ Reclaimed trace s := by
  obtain ⟨trace, s, run, ops, ids, unclaimed, gone, targets, trackers⟩ :=
    execute_run (step true) System.init leakingOps
      (fun trace s => trace.map (·.2) = leakingOps ∧ createdIds trace = [7, 8] ∧
        s.heap.Unclaimed 2 ∧ s.consumers 1 = none ∧ s.heap.targets 2 = [(8, 1)] ∧
        s.trackers = 2)
      (by decide +kernel)
  have distinct : DistinctIds trace := by
    rw [DistinctIds, ids]
    decide
  have reg := run_registered run distinct
  have acc := run_accounted run distinct
  refine ⟨trace, s, run, distinct, ops, unclaimed, ?_⟩
  intro reclaimed
  have left : ((8 : UInt64), 1) ∈ s.heap.targets 2 := by simp [targets]
  refine reclaimed 2 ⟨1, (acc.waiting 8 1 2 left).2.1⟩ ?_ unclaimed
  intro d member
  rcases acc.settled d 2 member with ⟨id, left⟩ | on | dropped
  · rw [targets] at left
    have atOne : d = 1 := by simpa using (Prod.mk.inj (List.mem_singleton.mp left)).2
    subst atOne
    exact Or.inl (reg.dead 1 (by omega) gone).2
  · exact Or.inr on
  · exact Or.inl dropped

end Lmq
