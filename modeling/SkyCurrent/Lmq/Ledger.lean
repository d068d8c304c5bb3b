import SkyCurrent.Lmq.Sound

/- The books of autodrop: the registry of consumers, the snapshot push takes of it, and
   what is left of that snapshot, against what has happened to the consumers in the run.
   Consumer ids are drawn at random by the code; runs in which two agree are set aside. -/
namespace Lmq

open Runs

@[simp] theorem mem_remove (m : Consumers) (id : UInt64) (e : UInt64 × Nat) :
    e ∈ m.remove id ↔ e ∈ m ∧ e.1 ≠ id := by
  simp [Consumers.remove]

@[simp] theorem mem_insert (m : Consumers) (id : UInt64) (tracker : Nat) (e : UInt64 × Nat) :
    e ∈ m.insert id tracker ↔ e = (id, tracker) ∨ e ∈ m ∧ e.1 ≠ id := by
  simp [Consumers.insert]

@[simp] theorem mem_retainLive (m : Consumers) (strongCount : Nat → Nat) (e : UInt64 × Nat) :
    e ∈ m.retainLive strongCount ↔ e ∈ m ∧ strongCount e.2 ≠ 0 := by
  simp [Consumers.retainLive]

theorem allDead_iff (m : Consumers) (strongCount : Nat → Nat) :
    m.allDead strongCount = true ↔ ∀ e ∈ m, strongCount e.2 = 0 := by
  simp [Consumers.allDead]

def Heap.targets (h : Heap) (m : Nat) : Consumers := (h.node m).targetConsumers.getD []

theorem checked_other (autodrop : Bool) (strongCount : Nat → Nat) (h : Heap)
    (self : MessageConsumer) {m : Nat} (apart : m ≠ self.current) :
    (checked autodrop strongCount h self).targets m = h.targets m := by
  unfold checked checkShouldNowAutodrop Heap.targets
  split
  · split
    · rfl
    · dsimp only
      split
      · rw [targets_claim, targets_setTargets, if_neg apart]
      · rw [targets_setTargets, if_neg apart]
  · rfl

theorem checked_current (strongCount : Nat → Nat) (h : Heap) (self : MessageConsumer) :
    (checked true strongCount h self).targets self.current =
      (h.targets self.current).remove self.id := by
  unfold checked checkShouldNowAutodrop Heap.targets
  rw [if_pos rfl]
  split
  · rename_i none_
    simp [none_, Consumers.remove]
  · rename_i targets some_
    dsimp only
    split
    · rw [targets_claim, targets_setTargets, if_pos rfl, some_]
      rfl
    · rw [targets_setTargets, if_pos rfl, some_]
      rfl

theorem checked_held {strongCount : Nat → Nat} {h : Heap} {self : MessageConsumer}
    (message : (h.node self.current).targetConsumers.isSome)
    (unclaimed : (checked true strongCount h self).Unclaimed self.current) :
    ∃ e ∈ (h.targets self.current).remove self.id, strongCount e.2 ≠ 0 := by
  obtain ⟨targets, some_⟩ := Option.isSome_iff_exists.mp message
  unfold checked checkShouldNowAutodrop at unclaimed
  simp only [if_true, some_] at unclaimed
  split at unclaimed
  · exact absurd rfl ((unclaimed_claim ..).mp unclaimed).1
  · rename_i live
    rw [allDead_iff] at live
    simpa [Heap.targets, some_, and_assoc] using live

section History

/- What has happened in a run so far; a consumer is known by its drop tracker. -/

def createdIds (trace : List (System × Op)) : List UInt64 :=
  trace.filterMap fun e => match e.2 with
    | .createConsumer id => some id
    | _ => none

def DistinctIds (trace : List (System × Op)) : Prop := (createdIds trace).Nodup

def Dropped (trace : List (System × Op)) (d : Nat) : Prop :=
  ∃ u, (u, Op.drop d) ∈ trace

def PassedOn (trace : List (System × Op)) (d m : Nat) : Prop :=
  ∃ u self, (u, Op.tryNext d) ∈ trace ∧ u.consumers d = some self ∧ self.current = m

def AliveAtPush (trace : List (System × Op)) (d m : Nat) : Prop :=
  ∃ u payload self, (u, Op.push payload) ∈ trace ∧ u.heap.size = m ∧ u.consumers d = some self

/-- The consumer is in the copy of the registry that was made when `m` was pushed. -/
def InSnapshot (trace : List (System × Op)) (d m : Nat) : Prop :=
  ∃ u payload id, (u, Op.push payload) ∈ trace ∧ u.heap.size = m ∧ (id, d) ∈ u.active

variable {trace : List (System × Op)} {s : System} {op : Op} {d m : Nat}

theorem createdIds_snoc (trace : List (System × Op)) (s : System) (op : Op) :
    createdIds (trace ++ [(s, op)]) = createdIds trace ++ createdIds [(s, op)] := by
  simp [createdIds]

theorem distinctIds_before (ids : DistinctIds (trace ++ [(s, op)])) : DistinctIds trace := by
  unfold DistinctIds at ids
  rw [createdIds_snoc, List.nodup_append] at ids
  exact ids.1

@[simp] theorem dropped_snoc :
    Dropped (trace ++ [(s, op)]) d ↔ Dropped trace d ∨ op = .drop d := by
  simp only [Dropped, List.mem_append, List.mem_singleton, Prod.mk.injEq, exists_or,
    exists_eq_left', eq_comm]

@[simp] theorem passedOn_snoc : PassedOn (trace ++ [(s, op)]) d m ↔
    PassedOn trace d m ∨
      op = .tryNext d ∧ ∃ self, s.consumers d = some self ∧ self.current = m := by
  simp only [PassedOn, List.mem_append, List.mem_singleton, Prod.mk.injEq]
  constructor
  · intro ⟨u, self, member, live, place⟩
    rcases member with earlier | ⟨rfl, rfl⟩
    · exact Or.inl ⟨u, self, earlier, live, place⟩
    · exact Or.inr ⟨rfl, self, live, place⟩
  · intro either
    rcases either with ⟨u, self, earlier, live, place⟩ | ⟨rfl, self, live, place⟩
    · exact ⟨u, self, Or.inl earlier, live, place⟩
    · exact ⟨s, self, Or.inr ⟨rfl, rfl⟩, live, place⟩

@[simp] theorem aliveAtPush_snoc : AliveAtPush (trace ++ [(s, op)]) d m ↔
    AliveAtPush trace d m ∨
      (∃ payload, op = .push payload) ∧ s.heap.size = m ∧ ∃ self, s.consumers d = some self := by
  simp only [AliveAtPush, List.mem_append, List.mem_singleton, Prod.mk.injEq]
  constructor
  · intro ⟨u, payload, self, member, new, live⟩
    rcases member with earlier | ⟨rfl, rfl⟩
    · exact Or.inl ⟨u, payload, self, earlier, new, live⟩
    · exact Or.inr ⟨⟨payload, rfl⟩, new, self, live⟩
  · intro either
    rcases either with ⟨u, payload, self, earlier, new, live⟩ | ⟨⟨payload, rfl⟩, new, self, live⟩
    · exact ⟨u, payload, self, Or.inl earlier, new, live⟩
    · exact ⟨s, payload, self, Or.inr ⟨rfl, rfl⟩, new, live⟩

@[simp] theorem inSnapshot_snoc : InSnapshot (trace ++ [(s, op)]) d m ↔
    InSnapshot trace d m ∨
      (∃ payload, op = .push payload) ∧ s.heap.size = m ∧ ∃ id, (id, d) ∈ s.active := by
  simp only [InSnapshot, List.mem_append, List.mem_singleton, Prod.mk.injEq]
  constructor
  · intro ⟨u, payload, id, member, new, entry⟩
    rcases member with earlier | ⟨rfl, rfl⟩
    · exact Or.inl ⟨u, payload, id, earlier, new, entry⟩
    · exact Or.inr ⟨⟨payload, rfl⟩, new, id, entry⟩
  · intro either
    rcases either with ⟨u, payload, id, earlier, new, entry⟩ | ⟨⟨payload, rfl⟩, new, id, entry⟩
    · exact ⟨u, payload, id, Or.inl earlier, new, entry⟩
    · exact ⟨s, payload, id, Or.inr ⟨rfl, rfl⟩, new, entry⟩

end History

variable {trace : List (System × Op)} {s t : System} {op : Op}

structure Registered (trace : List (System × Op)) (s : System) : Prop where
  created : s.trackers = (createdIds trace).length
  entry : ∀ id d, (id, d) ∈ s.active → (createdIds trace)[d]? = some id
  live : ∀ d self, s.consumers d = some self →
    (createdIds trace)[d]? = some self.id ∧ (self.id, d) ∈ s.active ∧ s.strongCount d ≠ 0
  dead : ∀ d, d < s.trackers → s.consumers d = none → s.strongCount d = 0 ∧ Dropped trace d
  dropped : ∀ d, Dropped trace d → d < s.trackers ∧ s.consumers d = none
  active : ∀ id d, (id, d) ∈ s.active → ∃ self, s.consumers d = some self

theorem createdIds_lt {id : UInt64} {d : Nat} (entry : (createdIds trace)[d]? = some id) :
    d < (createdIds trace).length := by
  by_contra beyond
  rw [List.getElem?_eq_none (by omega)] at entry
  cases entry

theorem DistinctIds.same (ids : DistinctIds trace) {id : UInt64} {c d : Nat}
    (first : (createdIds trace)[c]? = some id) (second : (createdIds trace)[d]? = some id) :
    c = d := by
  have range := createdIds_lt first
  exact (List.getElem?_inj range ids).mp (first.trans second.symm)

theorem Registered.kept (reg : Registered trace s) (noCreate : createdIds [(s, op)] = [])
    (noDrop : ∀ d, op ≠ .drop d) (trackers : t.trackers = s.trackers)
    (strongCount : t.strongCount = s.strongCount) (active : t.active = s.active)
    (same : ∀ d, (t.consumers d).map (·.id) = (s.consumers d).map (·.id)) :
    Registered (trace ++ [(s, op)]) t := by
  have ids : createdIds (trace ++ [(s, op)]) = createdIds trace := by
    rw [createdIds_snoc, noCreate, List.append_nil]
  have none_ : ∀ d, t.consumers d = none ↔ s.consumers d = none := by
    intro d
    have both := same d
    cases before : s.consumers d <;> cases after : t.consumers d <;> simp [before, after] at both ⊢
  have some_ : ∀ d self, t.consumers d = some self →
      ∃ old, s.consumers d = some old ∧ old.id = self.id := by
    intro d self after
    have both := same d
    rw [after] at both
    cases before : s.consumers d with
    | none => simp [before] at both
    | some old => exact ⟨old, rfl, by simpa [before] using both.symm⟩
  constructor
  · rw [trackers, ids]
    exact reg.created
  · rw [active, ids]
    exact reg.entry
  · intro d self after
    obtain ⟨old, before, id⟩ := some_ d self after
    rw [ids, active, strongCount, ← id]
    exact reg.live d old before
  · intro d range after
    rw [strongCount, dropped_snoc]
    have before := reg.dead d (trackers ▸ range) ((none_ d).mp after)
    exact ⟨before.1, Or.inl before.2⟩
  · intro d gone
    rw [dropped_snoc] at gone
    rcases gone with earlier | now
    · rw [trackers, none_]
      exact reg.dropped d earlier
    · exact absurd now (noDrop d)
  · intro id d entry
    rw [active] at entry
    obtain ⟨self, before⟩ := reg.active id d entry
    cases after : t.consumers d with
    | none =>
      rw [none_, before] at after
      cases after
    | some new => exact ⟨new, rfl⟩

theorem Registered.create (reg : Registered trace s) {id : UInt64}
    (ids : DistinctIds (trace ++ [(s, .createConsumer id)]))
    (move : Step true s (.createConsumer id) t) :
    Registered (trace ++ [(s, .createConsumer id)]) t := by
  obtain rfl := step_create move
  have snoc : createdIds (trace ++ [(s, .createConsumer id)]) = createdIds trace ++ [id] := by
    rw [createdIds_snoc]
    rfl
  have fresh : id ∉ createdIds trace := by
    unfold DistinctIds at ids
    rw [snoc, List.nodup_append] at ids
    intro member
    exact ids.2.2 id member id (by simp) rfl
  have older : ∀ {i : UInt64} {d : Nat}, (createdIds trace)[d]? = some i →
      (createdIds trace ++ [id])[d]? = some i ∧ i ≠ id ∧ d ≠ s.trackers := by
    intro i d entry
    have range := createdIds_lt entry
    have created := reg.created
    refine ⟨by rw [List.getElem?_append_left range, entry], ?_, by omega⟩
    intro same
    exact fresh (same ▸ List.mem_of_getElem? entry)
  have newest : (createdIds trace ++ [id])[s.trackers]? = some id := by
    simp [reg.created]
  have listed : ∀ i d, (i, d) ∈ ((s.active.retainLive
      (Function.update s.strongCount s.trackers 1)).insert id s.trackers) ↔
      (i = id ∧ d = s.trackers) ∨ (i, d) ∈ s.active := by
    intro i d
    simp only [mem_insert, mem_retainLive, Prod.mk.injEq]
    constructor
    · intro either
      rcases either with new | ⟨⟨old, _⟩, _⟩
      · exact Or.inl new
      · exact Or.inr old
    · intro either
      rcases either with new | old
      · exact Or.inl new
      · obtain ⟨_, other, apart⟩ := older (reg.entry i d old)
        obtain ⟨self, live⟩ := reg.active i d old
        refine Or.inr ⟨⟨old, ?_⟩, other⟩
        rw [Function.update_of_ne apart]
        exact (reg.live d self live).2.2
  constructor
  · rw [snoc]
    simp [createConsumer, reg.created]
  · intro i d entry
    rw [snoc]
    rcases (listed i d).mp entry with ⟨rfl, rfl⟩ | old
    · exact newest
    · exact (older (reg.entry i d old)).1
  · intro d self live
    rw [snoc]
    by_cases same : d = s.trackers
    · subst same
      simp only [Function.update_self, Option.some.injEq] at live
      subst live
      exact ⟨newest, (listed _ _).mpr (Or.inl ⟨rfl, rfl⟩), by simp [createConsumer]⟩
    · simp only [Function.update_of_ne same] at live
      have before := reg.live d self live
      refine ⟨(older before.1).1, (listed _ _).mpr (Or.inr before.2.1), ?_⟩
      simpa [createConsumer, Function.update_of_ne same] using before.2.2
  · intro d range live
    by_cases same : d = s.trackers
    · subst same
      simp at live
    · simp only [Function.update_of_ne same] at live
      have before := reg.dead d (by change d < s.trackers + 1 at range; omega) live
      refine ⟨?_, dropped_snoc.mpr (Or.inl before.2)⟩
      simpa [createConsumer, Function.update_of_ne same] using before.1
  · intro d gone
    simp only [dropped_snoc, reduceCtorEq, or_false] at gone
    have before := reg.dropped d gone
    refine ⟨Nat.lt_succ_of_lt before.1, ?_⟩
    simpa [Function.update_of_ne (Nat.ne_of_lt before.1)] using before.2
  · intro i d entry
    rcases (listed i d).mp entry with ⟨_, rfl⟩ | old
    · exact ⟨⟨s.queue.root, id, s.trackers⟩, by simp⟩
    · obtain ⟨self, live⟩ := reg.active i d old
      obtain ⟨_, _, apart⟩ := older (reg.entry i d old)
      exact ⟨self, by simp [Function.update_of_ne apart, live]⟩

theorem Registered.drop (reg : Registered trace s) (sound : Sound s) {c : Nat}
    (ids : DistinctIds trace) (move : Step true s (.drop c) t) :
    Registered (trace ++ [(s, .drop c)]) t := by
  obtain ⟨self, live, rfl⟩ := step_drop move
  have same : createdIds (trace ++ [(s, .drop c)]) = createdIds trace := by
    rw [createdIds_snoc]
    exact List.append_nil _
  have tracker := (sound.tracked c self live).1
  have mine := reg.live c self live
  have others : ∀ i d, (i, d) ∈ s.active.remove self.id → d ≠ c := by
    intro i d entry
    simp only [mem_remove] at entry
    have before := reg.entry i d entry.1
    intro atC
    subst atC
    exact entry.2 (Option.some.inj (before.symm.trans mine.1))
  constructor
  · rw [same]
    exact reg.created
  · intro i d entry
    rw [same]
    exact reg.entry i d ((mem_remove ..).mp entry).1
  · intro d other liveD
    rw [same]
    by_cases atC : d = c
    · subst atC
      simp at liveD
    · simp only [Function.update_of_ne atC] at liveD
      have before := reg.live d other liveD
      refine ⟨before.1, (mem_remove ..).mpr ⟨before.2.1, ?_⟩, ?_⟩
      · intro clash
        simp only at clash
        exact atC (ids.same before.1 (clash ▸ mine.1))
      · simpa [dropConsumer, tracker, Function.update_of_ne atC] using before.2.2
  · intro d range liveD
    by_cases atC : d = c
    · subst atC
      exact ⟨by simp [dropConsumer, tracker], dropped_snoc.mpr (Or.inr rfl)⟩
    · simp only [Function.update_of_ne atC] at liveD
      have before := reg.dead d range liveD
      refine ⟨?_, dropped_snoc.mpr (Or.inl before.2)⟩
      simpa [dropConsumer, tracker, Function.update_of_ne atC] using before.1
  · intro d gone
    rcases dropped_snoc.mp gone with earlier | now
    · have before := reg.dropped d earlier
      refine ⟨before.1, ?_⟩
      by_cases atC : d = c
      · simp [atC]
      · simpa [Function.update_of_ne atC] using before.2
    · obtain rfl : c = d := Op.drop.inj now
      exact ⟨(sound.tracked c self live).2, by simp⟩
  · intro i d entry
    have atC := others i d entry
    obtain ⟨other, liveD⟩ := reg.active i d ((mem_remove ..).mp entry).1
    exact ⟨other, by simp [Function.update_of_ne atC, liveD]⟩

theorem run_registered (run : QueueRun true trace s) (ids : DistinctIds trace) :
    Registered trace s := by
  induction run with
  | nil first =>
    subst first
    refine ⟨rfl, ?_, ?_, ?_, ?_, ?_⟩ <;> simp [System.init, Dropped]
  | @snoc trace s t op before move ih =>
    have sound := run_sound before
    have earlier := distinctIds_before ids
    have reg := ih earlier
    cases op with
    | push payload =>
      obtain ⟨e, _, _, rfl⟩ := step_push sound move
      exact reg.kept rfl (by simp) rfl rfl rfl (fun d => rfl)
    | createConsumer id => exact reg.create ids move
    | tryNext c =>
      obtain ⟨self, h', dest, live, _, _, rfl⟩ := step_tryNext sound move
      refine reg.kept rfl (by simp) rfl rfl rfl ?_
      intro d
      by_cases same : d = c
      · subst same
        simp [live]
      · simp [Function.update_of_ne same]
    | claim handle =>
      obtain ⟨m, _, rfl⟩ := step_claim move
      exact reg.kept rfl (by simp) rfl rfl rfl (fun d => rfl)
    | drop c => exact reg.drop sound earlier move

/-- What is left of the snapshot of a message: the consumers in it that have neither
    passed the message on nor been dropped while they stood on it. -/
structure Accounted (trace : List (System × Op)) (s : System) : Prop where
  pushed : ∀ d m, InSnapshot trace d m →
    m < s.heap.size ∧ (s.heap.node m).targetConsumers.isSome
  passed : ∀ d m, PassedOn trace d m → m < s.heap.size
  waiting : ∀ id d m, (id, d) ∈ s.heap.targets m →
    (createdIds trace)[d]? = some id ∧ InSnapshot trace d m ∧ ¬ PassedOn trace d m
  settled : ∀ d m, InSnapshot trace d m →
    (∃ id, (id, d) ∈ s.heap.targets m) ∨ PassedOn trace d m ∨ Dropped trace d
  alive : ∀ d m, AliveAtPush trace d m → InSnapshot trace d m

theorem createdIds_stay (s : System) (op : Op) {d : Nat} {id : UInt64}
    (entry : (createdIds trace)[d]? = some id) :
    (createdIds (trace ++ [(s, op)]))[d]? = some id := by
  rw [createdIds_snoc, List.getElem?_append_left (createdIds_lt entry), entry]

theorem Accounted.kept (acc : Accounted trace s) (sound : Sound s)
    (noPush : ∀ payload, op ≠ .push payload) (size : t.heap.size = s.heap.size)
    (isSome : ∀ m, (t.heap.node m).targetConsumers.isSome =
      (s.heap.node m).targetConsumers.isSome)
    (stays : ∀ id d m, (id, d) ∈ t.heap.targets m → (id, d) ∈ s.heap.targets m ∧
      ¬ (op = .tryNext d ∧ ∃ self, s.consumers d = some self ∧ self.current = m))
    (goes : ∀ id d m, (id, d) ∈ s.heap.targets m → (id, d) ∈ t.heap.targets m ∨
      (op = .tryNext d ∧ ∃ self, s.consumers d = some self ∧ self.current = m) ∨ op = .drop d) :
    Accounted (trace ++ [(s, op)]) t := by
  have noSnapshot : ∀ d m, InSnapshot (trace ++ [(s, op)]) d m ↔ InSnapshot trace d m := by
    intro d m
    rw [inSnapshot_snoc]
    constructor
    · intro either
      rcases either with earlier | ⟨⟨payload, now⟩, _⟩
      · exact earlier
      · exact absurd now (noPush payload)
    · exact Or.inl
  constructor
  · intro d m member
    rw [size, isSome]
    exact acc.pushed d m ((noSnapshot d m).mp member)
  · intro d m on
    rw [size]
    rcases passedOn_snoc.mp on with earlier | ⟨_, self, live, place⟩
    · exact acc.passed d m earlier
    · exact place ▸ (sound.placed d self live).1
  · intro id d m left
    obtain ⟨before, notNow⟩ := stays id d m left
    obtain ⟨created, member, notEarlier⟩ := acc.waiting id d m before
    refine ⟨createdIds_stay s op created, (noSnapshot d m).mpr member, ?_⟩
    rw [passedOn_snoc]
    exact fun either => either.elim notEarlier notNow
  · intro d m member
    rw [passedOn_snoc, dropped_snoc]
    rcases acc.settled d m ((noSnapshot d m).mp member) with ⟨id, before⟩ | on | gone
    · rcases goes id d m before with left | on | gone
      · exact Or.inl ⟨id, left⟩
      · exact Or.inr (Or.inl (Or.inr on))
      · exact Or.inr (Or.inr (Or.inr gone))
    · exact Or.inr (Or.inl (Or.inl on))
    · exact Or.inr (Or.inr (Or.inl gone))
  · intro d m up
    rw [noSnapshot]
    rcases aliveAtPush_snoc.mp up with earlier | ⟨⟨payload, now⟩, _⟩
    · exact acc.alive d m earlier
    · exact absurd now (noPush payload)

theorem Accounted.push (acc : Accounted trace s) (sound : Sound s) (reg : Registered trace s)
    {payload : List UInt8} (move : Step true s (.push payload) t) :
    Accounted (trace ++ [(s, .push payload)]) t := by
  obtain ⟨e, walk, stop, rfl⟩ := step_push sound move
  have old := sound.well.reaches_range sound.well.last_range walk
  have node : ∀ m, ((appended s.heap e (newNode true s.active s.queue.tail payload)).node
      m).targetConsumers = if m = s.heap.size then some s.active
        else (s.heap.node m).targetConsumers := by
    intro m
    rw [appended, targets_setNext, targets_alloc]
    rfl
  have newest : ∀ d, ¬ InSnapshot trace d s.heap.size := by
    intro d member
    exact Nat.lt_irrefl _ (acc.pushed d _ member).1
  have noNext : ∀ d m, PassedOn (trace ++ [(s, .push payload)]) d m ↔ PassedOn trace d m := by
    intro d m
    simp
  constructor
  · intro d m member
    change m < s.heap.size + 1 ∧ _
    rw [node]
    rcases inSnapshot_snoc.mp member with earlier | ⟨_, rfl, _⟩
    · obtain ⟨range, message⟩ := acc.pushed d m earlier
      exact ⟨Nat.lt_succ_of_lt range, by rw [if_neg (Nat.ne_of_lt range)]; exact message⟩
    · simp
  · intro d m on
    exact Nat.lt_succ_of_lt (acc.passed d m ((noNext d m).mp on))
  · intro id d m left
    rw [noNext, inSnapshot_snoc]
    rw [Heap.targets, node] at left
    by_cases new : m = s.heap.size
    · subst new
      rw [if_pos rfl] at left
      refine ⟨createdIds_stay _ _ (reg.entry id d left),
        Or.inr ⟨⟨payload, rfl⟩, rfl, id, left⟩, ?_⟩
      intro on
      exact Nat.lt_irrefl _ (acc.passed d _ on)
    · rw [if_neg new] at left
      obtain ⟨created, member, notOn⟩ := acc.waiting id d m left
      exact ⟨createdIds_stay _ _ created, Or.inl member, notOn⟩
  · intro d m member
    rw [noNext, dropped_snoc, Heap.targets, node]
    rcases inSnapshot_snoc.mp member with earlier | ⟨_, new, id, entry⟩
    · have range := (acc.pushed d m earlier).1
      rw [if_neg (Nat.ne_of_lt range)]
      rcases acc.settled d m earlier with left | on | gone
      · exact Or.inl left
      · exact Or.inr (Or.inl on)
      · exact Or.inr (Or.inr (Or.inl gone))
    · rw [if_pos new.symm]
      exact Or.inl ⟨id, entry⟩
  · intro d m up
    rw [inSnapshot_snoc]
    rcases aliveAtPush_snoc.mp up with earlier | ⟨now, new, self, live⟩
    · exact Or.inl (acc.alive d m earlier)
    · exact Or.inr ⟨now, new, self.id, (reg.live d self live).2.1⟩

theorem checked_isSome (autodrop : Bool) (strongCount : Nat → Nat) (h : Heap)
    (self : MessageConsumer) (m : Nat) :
    ((checked autodrop strongCount h self).node m).targetConsumers.isSome =
      (h.node m).targetConsumers.isSome := by
  unfold checked checkShouldNowAutodrop
  split
  · split
    · rfl
    · rename_i targets some_
      have same : ∀ v, ((h.setTargets self.current (some v)).node m).targetConsumers.isSome =
          (h.node m).targetConsumers.isSome := by
        intro v
        rw [targets_setTargets]
        split
        · rename_i here
          simp [here, some_]
        · rfl
      dsimp only
      split
      · rw [targets_claim, same]
      · rw [same]
  · rfl

theorem checked_targets (reg : Registered trace s) (acc : Accounted trace s)
    (ids : DistinctIds trace) {c : Nat} {self : MessageConsumer}
    (live : s.consumers c = some self) (id : UInt64) (d m : Nat) :
    (id, d) ∈ (checked true s.strongCount s.heap self).targets m ↔
      (id, d) ∈ s.heap.targets m ∧ ¬ (d = c ∧ self.current = m) := by
  by_cases here : m = self.current
  · subst here
    rw [checked_current, mem_remove]
    constructor
    · intro ⟨before, other⟩
      refine ⟨before, ?_⟩
      intro ⟨atC, _⟩
      subst atC
      have entry := (acc.waiting id d _ before).1
      exact other (Option.some.inj (entry.symm.trans (reg.live d self live).1))
    · intro ⟨before, other⟩
      refine ⟨before, ?_⟩
      intro clash
      simp only at clash
      have entry := (acc.waiting id d _ before).1
      exact other ⟨ids.same entry (clash ▸ (reg.live c self live).1), rfl⟩
  · rw [checked_other _ _ _ _ here]
    constructor
    · exact fun before => ⟨before, fun both => here both.2.symm⟩
    · exact fun both => both.1

theorem run_accounted (run : QueueRun true trace s) (ids : DistinctIds trace) :
    Accounted trace s := by
  induction run with
  | nil first =>
    subst first
    constructor
    · simp [InSnapshot]
    · simp [PassedOn]
    · intro id d m left
      have none_ : (System.init.heap.node m).targetConsumers = none := by
        simp only [System.init, LinkMessageQueue.new, Heap.alloc, Heap.empty, Function.update_apply]
        split
        · rfl
        · split <;> rfl
      simp [Heap.targets, none_] at left
    · simp [InSnapshot]
    · simp [AliveAtPush]
  | @snoc trace s t op before move ih =>
    have sound := run_sound before
    have earlier := distinctIds_before ids
    have reg := run_registered before earlier
    have acc := ih earlier
    cases op with
    | push payload => exact acc.push sound reg move
    | createConsumer id =>
      obtain rfl := step_create move
      exact acc.kept sound (by simp) rfl (fun m => rfl) (fun id d m left => ⟨left, by simp⟩)
        (fun id d m left => Or.inl left)
    | tryNext c =>
      obtain ⟨self, h', dest, live, _, spec, rfl⟩ := step_tryNext sound move
      have same : ∀ m, h'.targets m = (checked true s.strongCount s.heap self).targets m := by
        intro m
        rw [Heap.targets, spec.relinked.targets, Heap.targets]
      refine acc.kept sound (by simp) (by rw [spec.relinked.size, size_checked]) ?_ ?_ ?_
      · intro m
        rw [spec.relinked.targets, checked_isSome]
      · intro id d m left
        change (id, d) ∈ h'.targets m at left
        rw [same, checked_targets reg acc earlier live] at left
        refine ⟨left.1, ?_⟩
        rintro ⟨now, _, liveD, place⟩
        cases now
        rw [live] at liveD
        cases liveD
        exact left.2 ⟨rfl, place⟩
      · intro id d m left
        by_cases mine : d = c ∧ self.current = m
        · obtain ⟨rfl, place⟩ := mine
          exact Or.inr (Or.inl ⟨rfl, self, live, place⟩)
        · left
          change (id, d) ∈ h'.targets m
          rw [same, checked_targets reg acc earlier live]
          exact ⟨left, mine⟩
    | claim handle =>
      obtain ⟨m, _, rfl⟩ := step_claim move
      have same : ∀ x, (claim s.heap m).1.targets x = s.heap.targets x := by
        intro x
        rw [Heap.targets, targets_claim, Heap.targets]
      refine acc.kept sound (by simp) rfl (fun x => by rw [targets_claim]) ?_ ?_
      · intro id d x left
        change (id, d) ∈ (claim s.heap m).1.targets x at left
        exact ⟨same x ▸ left, by simp⟩
      · intro id d x left
        change (id, d) ∈ (claim s.heap m).1.targets x ∨ _
        exact Or.inl (same x ▸ left)
    | drop c =>
      obtain ⟨self, live, rfl⟩ := step_drop move
      refine acc.kept sound (by simp) (size_checked true s.strongCount s.heap self)
        (checked_isSome true s.strongCount s.heap self) ?_ ?_
      · intro id d m left
        change (id, d) ∈ (checked true s.strongCount s.heap self).targets m at left
        rw [checked_targets reg acc earlier live] at left
        exact ⟨left.1, by simp⟩
      · intro id d m left
        by_cases mine : d = c ∧ self.current = m
        · exact Or.inr (Or.inr (mine.1 ▸ rfl))
        · left
          change (id, d) ∈ (checked true s.strongCount s.heap self).targets m
          rw [checked_targets reg acc earlier live]
          exact ⟨left, mine⟩

end Lmq
