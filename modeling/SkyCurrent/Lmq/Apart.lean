import SkyCurrent.Lmq.Queues

/- What the queues of a process do not share: an operation on one of them touches no node
   and no drop tracker of another. The registry is the only thing that is left. -/
namespace Lmq

structure StaysIn (N : List Nat) (h h' : Heap) : Prop where
  size : h'.size = h.size
  nodes : ∀ x, x ∉ N → h'.node x = h.node x
  links : ∀ x y, h'.next x = some y → h.next x = some y ∨ y ∈ N
  targets : ∀ x, ∀ e ∈ h'.targets x, e ∈ h.targets x

section StaysIn

variable {N : List Nat} {h h₁ h₂ : Heap} {x : Nat}

theorem StaysIn.refl (N : List Nat) (h : Heap) : StaysIn N h h :=
  ⟨rfl, fun _ _ => rfl, fun _ _ link => Or.inl link, fun _ _ entry => entry⟩

theorem StaysIn.trans (first : StaysIn N h h₁) (second : StaysIn N h₁ h₂) :
    StaysIn N h h₂ := by
  refine ⟨second.size.trans first.size, ?_, ?_, ?_⟩
  · intro x outside
    rw [second.nodes x outside, first.nodes x outside]
  · intro x y link
    rcases second.links x y link with before | inside
    · exact first.links x y before
    · exact Or.inr inside
  · intro x e entry
    exact first.targets x e (second.targets x e entry)

theorem StaysIn.closed (stays : StaysIn N h h₁)
    (closed : ∀ x ∈ N, ∀ y, h.next x = some y → y ∈ N) :
    ∀ x ∈ N, ∀ y, h₁.next x = some y → y ∈ N := by
  intro x member y link
  rcases stays.links x y link with before | inside
  · exact closed x member y before
  · exact inside

theorem staysIn_setNext (member : x ∈ N) {y : Nat} (target : y ∈ N) :
    StaysIn N h (h.setNext x (some y)) := by
  refine ⟨rfl, ?_, ?_, ?_⟩
  · intro z outside
    have apart : z ≠ x := fun same => outside (same ▸ member)
    simp [Heap.setNext, Heap.modify, Function.update_of_ne apart]
  · intro z w link
    by_cases same : z = x
    · subst same
      simp only [next_setNext, Function.update_self, Option.some.injEq] at link
      exact Or.inr (link ▸ target)
    · simp only [next_setNext, Function.update_of_ne same] at link
      exact Or.inl link
  · intro z e entry
    simpa [Heap.targets] using entry

theorem staysIn_claim (member : x ∈ N) : StaysIn N h (claim h x).1 := by
  refine ⟨rfl, ?_, ?_, ?_⟩
  · intro z outside
    have apart : z ≠ x := fun same => outside (same ▸ member)
    simp [claim, Heap.modify, Function.update_of_ne apart]
  · intro z w link
    rw [next_claim] at link
    exact Or.inl link
  · intro z e entry
    simpa [Heap.targets] using entry

theorem staysIn_setTargets (member : x ∈ N) {targets : Consumers}
    (fewer : ∀ e ∈ targets, e ∈ h.targets x) :
    StaysIn N h (h.setTargets x (some targets)) := by
  refine ⟨rfl, ?_, ?_, ?_⟩
  · intro z outside
    have apart : z ≠ x := fun same => outside (same ▸ member)
    simp [Heap.setTargets, Heap.modify, Function.update_of_ne apart]
  · intro z w link
    rw [next_setTargets] at link
    exact Or.inl link
  · intro z e entry
    rw [Heap.targets, targets_setTargets] at entry
    split at entry
    · rename_i same
      subst same
      exact fewer e entry
    · exact entry

variable (autodrop : Bool) (strongCount : Nat → Nat) {self : MessageConsumer}

theorem staysIn_checked (member : self.current ∈ N) :
    StaysIn N h (checked autodrop strongCount h self) := by
  unfold checked checkShouldNowAutodrop
  split
  · split
    · exact StaysIn.refl N h
    · rename_i targets found
      have removed : StaysIn N h (h.setTargets self.current (some (targets.remove self.id))) := by
        apply staysIn_setTargets member
        intro e entry
        rw [Heap.targets, found]
        exact ((mem_remove ..).mp entry).1
      dsimp only
      split
      · exact removed.trans (staysIn_claim member)
      · exact removed
  · exact StaysIn.refl N h

theorem staysIn_walk {p : Nat} {c : Bool} (member : p ∈ N) {n : Nat} {y dest : Option Nat}
    (closed : ∀ x ∈ N, ∀ y, h.next x = some y → y ∈ N) (start : ∀ x, y = some x → x ∈ N)
    (run : walk p c n h y = some (h₁, dest)) :
    StaysIn N h h₁ ∧ ∀ x, dest = some x → x ∈ N := by
  refine walk_induct (P := fun _ h y h₁ dest =>
    (∀ x ∈ N, ∀ y, h.next x = some y → y ∈ N) → (∀ x, y = some x → x ∈ N) →
      StaysIn N h h₁ ∧ ∀ x, dest = some x → x ∈ N) ?_ ?_ ?_ run closed start
  · intro _ h _ start
    exact ⟨StaysIn.refl N h, start⟩
  · intro _ h y _ _ _ start
    have inside := start y rfl
    refine ⟨staysIn_setNext member inside, ?_⟩
    intro x same
    obtain ⟨_, _, rfl⟩ := Option.map_eq_some_iff.mp same
    exact inside
  · intro _ h y w h₁ dest _ _ link rest closed start
    have inside := start y rfl
    have target := closed y inside w link
    have round : StaysIn N h (pruned h p c y w) := by
      have first : StaysIn N h (h.setNext p (some w)) := staysIn_setNext member target
      cases c with
      | true => exact first
      | false => exact first.trans (staysIn_setNext inside member)
    obtain ⟨later, ends⟩ := rest (round.closed closed)
      (fun x same => Option.some.inj same ▸ target)
    exact ⟨round.trans later, ends⟩

theorem staysIn_tryNext (member : self.current ∈ N) {dest : Option Nat} {self' : MessageConsumer}
    (closed : ∀ x ∈ N, ∀ y, h.next x = some y → y ∈ N)
    (run : tryNext autodrop strongCount h self = some (h₁, self', dest)) :
    StaysIn N h h₁ ∧ self' = { self with current := dest.getD self.current } ∧
      ∀ x, dest = some x → x ∈ N := by
  have first := staysIn_checked (N := N) (h := h) autodrop strongCount member
  obtain ⟨walked, moved⟩ := tryNext_walks run
  have closed' := first.closed closed
  obtain ⟨second, ends⟩ := staysIn_walk member closed'
    (fun x link => closed' _ member x link) walked
  exact ⟨first.trans second, moved, ends⟩

theorem findLast_mem {tail : Nat} (closed : ∀ x ∈ N, ∀ y, h.next x = some y → y ∈ N) {n e : Nat}
    (member : x ∈ N) (run : findLast h tail n x = some e) : e ∈ N := by
  induction n generalizing x with
  | zero => simp [findLast] at run
  | succ n ih =>
    cases link : h.next x with
    | none =>
      simp only [findLast, link, Option.some.injEq] at run
      exact run ▸ member
    | some y =>
      simp only [findLast, link] at run
      split at run
      · exact Option.some.inj run ▸ member
      · exact ih (closed x member y link) run

end StaysIn

def Member.usesId (m : Member) : Op → Option UInt64
  | .createConsumer id => some id
  | .drop c => (m.consumers c).map (·.id)
  | _ => none

structure Spares (N own : List Nat) (id : Option UInt64) (p p' : Process) : Prop where
  size : p.heap.size ≤ p'.heap.size
  nodes : ∀ x, x < p.heap.size → x ∉ N → p'.heap.node x = p.heap.node x
  trackers : p.trackers ≤ p'.trackers
  counts : ∀ t, t < p.trackers → t ∉ own → p'.strongCount t = p.strongCount t
  back : ∀ e ∈ p'.active, e.2 < p.trackers → e ∈ p.active
  stays : ∀ e ∈ p.active, e.2 < p.trackers → p.strongCount e.2 ≠ 0 → id ≠ some e.1 → e ∈ p'.active
  registered : (∀ e ∈ p.active, e.2 < p.trackers) → ∀ e ∈ p'.active, e.2 < p'.trackers

structure Keeps (m m' : Member) (p p' : Process) : Prop where
  holds : m'.Holds p'
  nodes : ∀ x ∈ m'.nodes, x ∈ m.nodes ∨ p.heap.size ≤ x
  trackers : ∀ t ∈ m'.trackers, t ∈ m.trackers ∨ p.trackers ≤ t

def Member.grown (m : Member) (new : Nat) : Member :=
  { m with queue := { m.queue with last := new }, pushed := m.pushed ++ [new] }

theorem nodes_grown (m : Member) (new : Nat) : (m.grown new).nodes = m.nodes ++ [new] := rfl

section Member

variable {autodrop : Bool} {p p' : Process} {m m' : Member}

theorem member_push {payload : List UInt8}
    (move : m.step autodrop p (.push payload) = some (p', m')) :
    ∃ e, findLast (p.heap.alloc (newNode autodrop p.active m.queue.tail payload)).1 m.queue.tail
        (p.heap.size + 1) m.queue.last = some e ∧
      p' = { p with heap := appended p.heap e (newNode autodrop p.active m.queue.tail payload) } ∧
      m' = m.grown p.heap.size := by
  simp only [Member.step, push, Option.bind_eq_bind, Option.bind_eq_some_iff,
    Option.map_eq_some_iff, Option.some.injEq, Prod.mk.injEq, Prod.exists] at move
  obtain ⟨heap, queue, ⟨e, found, rfl, rfl⟩, rfl, rfl⟩ := move
  exact ⟨e, found, rfl, rfl⟩

theorem member_create {id : UInt64}
    (move : m.step autodrop p (.createConsumer id) = some (p', m')) :
    p' = (createConsumer autodrop p m.queue id).1 ∧
      m' = { m with
        trackers := m.trackers ++ [p.trackers]
        consumers := Function.update m.consumers m.trackers.length
          (some ⟨m.queue.root, id, p.trackers⟩) } := by
  have both := Option.some.inj move
  rw [Prod.mk.injEq] at both
  exact ⟨both.1.symm, both.2.symm⟩

theorem member_tryNext {c : Nat} (move : m.step autodrop p (.tryNext c) = some (p', m')) :
    ∃ self self' h' dest, m.consumers c = some self ∧
      tryNext autodrop p.strongCount p.heap self = some (h', self', dest) ∧
      p' = { p with heap := h' } ∧
      m' = { m with
        consumers := Function.update m.consumers c (some self')
        handles := m.handles ++ dest.toList } := by
  simp only [Member.step, Option.bind_eq_bind, Option.bind_eq_some_iff, Option.some.injEq,
    Prod.mk.injEq, Prod.exists] at move
  obtain ⟨self, live, h', self', dest, run, rfl, rfl⟩ := move
  exact ⟨self, self', h', dest, live, run, rfl, rfl⟩

theorem member_claim {handle : Nat}
    (move : m.step autodrop p (.claim handle) = some (p', m')) :
    ∃ x, m.handles[handle]? = some x ∧ p' = { p with heap := (claim p.heap x).1 } ∧ m' = m := by
  simp only [Member.step, Option.bind_eq_bind, Option.bind_eq_some_iff, Option.some.injEq,
    Prod.mk.injEq] at move
  obtain ⟨x, found, rfl, rfl⟩ := move
  exact ⟨x, found, rfl, rfl⟩

theorem member_drop {c : Nat} (move : m.step autodrop p (.drop c) = some (p', m')) :
    ∃ self, m.consumers c = some self ∧ p' = dropConsumer autodrop p self ∧
      m' = { m with consumers := Function.update m.consumers c none } := by
  simp only [Member.step, Option.bind_eq_bind, Option.bind_eq_some_iff, Option.some.injEq,
    Prod.mk.injEq] at move
  obtain ⟨self, live, rfl, rfl⟩ := move
  exact ⟨self, live, rfl, rfl⟩

theorem spares_heap {N own : List Nat} {h' : Heap} (stays : StaysIn N p.heap h') :
    Spares N own none p { p with heap := h' } :=
  ⟨Nat.le_of_eq stays.size.symm, fun x _ outside => stays.nodes x outside, Nat.le_refl _,
    fun _ _ _ => rfl, fun _ entry _ => entry, fun _ entry _ _ _ => entry, fun all => all⟩

theorem Member.Holds.found (holds : m.Holds p) {n : NextMessage} {tail fuel e : Nat}
    (found : findLast (p.heap.alloc n).1 tail fuel m.queue.last = some e) : e ∈ m.nodes := by
  refine findLast_mem ?_ holds.last found
  intro x member y link
  have apart : x ≠ p.heap.size := Nat.ne_of_lt (holds.nodes x member)
  rw [next_alloc, Function.update_of_ne apart] at link
  exact holds.closed x member y link

theorem spares_create (own : List Nat) (q : LinkMessageQueue) (id : UInt64) :
    Spares [] own (some id) p (createConsumer true p q id).1 := by
  refine ⟨Nat.le_refl _, fun _ _ _ => rfl, Nat.le_succ _, ?_, ?_, ?_, ?_⟩
  · intro t older _
    exact Function.update_of_ne (Nat.ne_of_lt older) ..
  · intro e entry older
    rcases (mem_insert ..).mp entry with new | ⟨kept, _⟩
    · rw [new] at older
      exact absurd older (Nat.lt_irrefl _)
    · exact ((mem_retainLive ..).mp kept).1
  · intro e entry older alive other
    refine (mem_insert ..).mpr (Or.inr ⟨(mem_retainLive ..).mpr ⟨entry, ?_⟩, ?_⟩)
    · rwa [Function.update_of_ne (Nat.ne_of_lt older)]
    · exact fun same => other (congrArg some same.symm)
  · intro older e entry
    rcases (mem_insert ..).mp entry with new | ⟨kept, _⟩
    · rw [new]
      exact Nat.lt_succ_self _
    · exact Nat.lt_succ_of_lt (older e ((mem_retainLive ..).mp kept).1)

theorem spares_drop {N own : List Nat} {self : MessageConsumer} (inside : self.current ∈ N)
    (tracked : self.dropTracker ∈ own) :
    Spares N own (some self.id) p (dropConsumer true p self) := by
  have stays := staysIn_checked (N := N) (h := p.heap) true p.strongCount inside
  refine ⟨Nat.le_of_eq stays.size.symm, fun x _ outside => stays.nodes x outside, Nat.le_refl _,
    ?_, ?_, ?_, ?_⟩
  · intro t _ outside
    have apart : t ≠ self.dropTracker := fun same => outside (same ▸ tracked)
    exact Function.update_of_ne apart ..
  · intro e entry _
    exact ((mem_remove ..).mp entry).1
  · intro e entry _ _ other
    exact (mem_remove ..).mpr ⟨entry, fun same => other (congrArg some same.symm)⟩
  · intro older e entry
    exact older e ((mem_remove ..).mp entry).1

theorem member_spares (holds : m.Holds p) {op : Op} (move : m.step true p op = some (p', m')) :
    Spares m.nodes m.trackers (m.usesId op) p p' := by
  cases op with
  | push payload =>
    obtain ⟨e, found, rfl, rfl⟩ := member_push move
    have inside := holds.found found
    refine ⟨Nat.le_succ _, ?_, Nat.le_refl _, fun _ _ _ => rfl, fun _ entry _ => entry,
      fun _ entry _ _ _ => entry, fun all => all⟩
    intro x older outside
    have apart : x ≠ e := fun same => outside (same ▸ inside)
    simp [appended, Heap.setNext, Heap.modify, Heap.alloc, apart, Nat.ne_of_lt older]
  | createConsumer id =>
    obtain ⟨rfl, rfl⟩ := member_create move
    have spares := spares_create (p := p) m.trackers m.queue id
    exact ⟨spares.size, fun x older _ => spares.nodes x older List.not_mem_nil, spares.trackers,
      spares.counts, spares.back, spares.stays, spares.registered⟩
  | tryNext c =>
    obtain ⟨self, self', h', dest, live, run, rfl, rfl⟩ := member_tryNext move
    have stays := staysIn_tryNext true p.strongCount (holds.placed c self live) holds.closed run
    exact spares_heap stays.1
  | claim handle =>
    obtain ⟨x, found, rfl, rfl⟩ := member_claim move
    exact spares_heap (staysIn_claim (holds.handed x (List.mem_of_getElem? found)))
  | drop c =>
    obtain ⟨self, live, rfl, rfl⟩ := member_drop move
    rw [Member.usesId, live]
    exact spares_drop (holds.placed c self live) (holds.tracked c self live)

theorem Member.Holds.keeps (holds : m.Holds p) {h' : Heap} (stays : StaysIn m.nodes p.heap h')
    (active : Consumers) (strongCount : Nat → Nat) {consumers : Nat → Option MessageConsumer}
    {handles : List Nat}
    (placed : ∀ c self, consumers c = some self →
      self.current ∈ m.nodes ∧ self.dropTracker ∈ m.trackers)
    (handed : ∀ x ∈ handles, x ∈ m.nodes) :
    Keeps m { m with consumers, handles } p ⟨h', active, p.trackers, strongCount⟩ := by
  refine ⟨⟨?_, stays.closed holds.closed, holds.last, fun c self live => (placed c self live).1,
    handed, holds.trackers, fun c self live => (placed c self live).2, ?_⟩,
    fun x member => Or.inl member, fun t member => Or.inl member⟩
  · intro x member
    change x < h'.size
    rw [stays.size]
    exact holds.nodes x member
  · intro x member e entry
    exact holds.waiting x member e (stays.targets x e entry)

theorem keeps_push (holds : m.Holds p) (older : ∀ e ∈ p.active, e.2 < p.trackers)
    {payload : List UInt8} (move : m.step autodrop p (.push payload) = some (p', m')) :
    Keeps m m' p p' := by
  obtain ⟨e, found, rfl, rfl⟩ := member_push move
  have inside := holds.found found
  have range := holds.nodes e inside
  have nodes_eq : ∀ x, x ∈ (m.grown p.heap.size).nodes ↔ x ∈ m.nodes ∨ x = p.heap.size := by
    intro x
    rw [nodes_grown, List.mem_append, List.mem_singleton]
  refine ⟨⟨?_, ?_, ?_, ?_, ?_, holds.trackers, holds.tracked, ?_⟩, ?_,
    fun t member => Or.inl member⟩
  · intro x member
    change x < p.heap.size + 1
    rcases (nodes_eq x).mp member with before | rfl
    · exact Nat.lt_succ_of_lt (holds.nodes x before)
    · exact Nat.lt_succ_self _
  · intro x member y link
    rw [nodes_eq]
    by_cases new : x = p.heap.size
    · have link' : (newNode autodrop p.active m.queue.tail payload).next = some y := by
        simpa [appended, next_alloc, new, Function.update_of_ne (Nat.ne_of_gt range)] using link
      obtain rfl := Option.some.inj link'
      exact Or.inl (List.mem_cons_self ..)
    · rcases next_appended (q := m.queue) rfl range link with ⟨_, rfl⟩ | ⟨now, _⟩ | before
      · exact Or.inr rfl
      · exact absurd now new
      · exact Or.inl (holds.closed x (((nodes_eq x).mp member).resolve_right new) y before)
  · rw [nodes_eq]
    exact Or.inr rfl
  · intro c self live
    rw [nodes_eq]
    exact Or.inl (holds.placed c self live)
  · intro x member
    rw [nodes_eq]
    exact Or.inl (holds.handed x member)
  · intro x member entry left
    rw [Heap.targets, appended, targets_setNext, targets_alloc] at left
    split at left
    · cases autodrop with
      | true => exact older entry left
      | false => exact absurd left List.not_mem_nil
    · rename_i apart
      exact holds.waiting x (((nodes_eq x).mp member).resolve_right apart) entry left
  · intro x member
    rcases (nodes_eq x).mp member with before | rfl
    · exact Or.inl before
    · exact Or.inr (Nat.le_refl _)

theorem member_keeps (holds : m.Holds p) (older : ∀ e ∈ p.active, e.2 < p.trackers) {op : Op}
    (move : m.step true p op = some (p', m')) : Keeps m m' p p' := by
  cases op with
  | push payload => exact keeps_push holds older move
  | createConsumer id =>
    obtain ⟨rfl, rfl⟩ := member_create move
    refine ⟨⟨holds.nodes, holds.closed, holds.last, ?_, holds.handed, ?_, ?_, ?_⟩,
      fun x member => Or.inl member, ?_⟩
    · intro c self live
      by_cases same : c = m.trackers.length
      · subst same
        simp only [Function.update_self, Option.some.injEq] at live
        subst live
        exact List.mem_cons_of_mem _ (List.mem_cons_self ..)
      · simp only [Function.update_of_ne same] at live
        exact holds.placed c self live
    · intro t member
      change t < p.trackers + 1
      rcases List.mem_append.mp member with before | new
      · exact Nat.lt_succ_of_lt (holds.trackers t before)
      · rw [List.mem_singleton.mp new]
        exact Nat.lt_succ_self _
    · intro c self live
      by_cases same : c = m.trackers.length
      · subst same
        simp only [Function.update_self, Option.some.injEq] at live
        subst live
        simp
      · simp only [Function.update_of_ne same] at live
        exact List.mem_append_left _ (holds.tracked c self live)
    · intro x member e entry
      exact Nat.lt_succ_of_lt (holds.waiting x member e entry)
    · intro t member
      rcases List.mem_append.mp member with before | new
      · exact Or.inl before
      · exact Or.inr (Nat.le_of_eq (List.mem_singleton.mp new).symm)
  | tryNext c =>
    obtain ⟨self, self', h', dest, live, run, rfl, rfl⟩ := member_tryNext move
    have inside := holds.placed c self live
    obtain ⟨stays, rfl, ends⟩ := staysIn_tryNext true p.strongCount inside holds.closed run
    refine holds.keeps stays p.active p.strongCount ?_ ?_
    · intro d other liveD
      by_cases same : d = c
      · subst same
        simp only [Function.update_self, Option.some.injEq] at liveD
        subst liveD
        refine ⟨?_, holds.tracked d self live⟩
        cases dest with
        | none => exact inside
        | some f => exact ends f rfl
      · simp only [Function.update_of_ne same] at liveD
        exact ⟨holds.placed d other liveD, holds.tracked d other liveD⟩
    · intro x member
      rcases List.mem_append.mp member with before | new
      · exact holds.handed x before
      · exact ends x (Option.mem_toList.mp new)
  | claim handle =>
    obtain ⟨x, found, rfl, rfl⟩ := member_claim move
    exact holds.keeps (staysIn_claim (holds.handed x (List.mem_of_getElem? found))) p.active
      p.strongCount (fun c self live => ⟨holds.placed c self live, holds.tracked c self live⟩)
      holds.handed
  | drop c =>
    obtain ⟨self, live, rfl, rfl⟩ := member_drop move
    refine holds.keeps (staysIn_checked true p.strongCount (holds.placed c self live)) _ _ ?_
      holds.handed
    intro d other liveD
    by_cases same : d = c
    · subst same
      simp at liveD
    · simp only [Function.update_of_ne same] at liveD
      exact ⟨holds.placed d other liveD, holds.tracked d other liveD⟩

theorem Member.Holds.spared (holds : m.Holds p) {N own : List Nat} {id : Option UInt64}
    (spares : Spares N own id p p') (apart : List.Disjoint N m.nodes) : m.Holds p' := by
  have same : ∀ x ∈ m.nodes, p'.heap.node x = p.heap.node x := fun x member =>
    spares.nodes x (holds.nodes x member) (fun other => apart other member)
  refine ⟨?_, ?_, holds.last, holds.placed, holds.handed, ?_, holds.tracked, ?_⟩
  · intro x member
    exact Nat.lt_of_lt_of_le (holds.nodes x member) spares.size
  · intro x member y link
    rw [Heap.next, same x member] at link
    exact holds.closed x member y link
  · intro t member
    exact Nat.lt_of_lt_of_le (holds.trackers t member) spares.trackers
  · intro x member e entry
    rw [Heap.targets, same x member] at entry
    exact Nat.lt_of_lt_of_le (holds.waiting x member e entry) spares.trackers

end Member

def Queues.nodes (s : Queues) (q : Nat) : List Nat := (s.member q).elim [] Member.nodes

def Queues.own (s : Queues) (q : Nat) : List Nat := (s.member q).elim [] Member.trackers

def Queues.usesId (s : Queues) : Call → Option UInt64
  | .new _ => none
  | .on q op => (s.member q).bind (·.usesId op)

/-- Each queue holds what is its own, and no two of them hold the same. -/
structure Apart (s : Queues) : Prop where
  holds : ∀ q m, s.member q = some m → m.Holds s.toProcess
  registered : ∀ e ∈ s.active, e.2 < s.trackers
  nodes : ∀ q q', q ≠ q' → List.Disjoint (s.nodes q) (s.nodes q')
  trackers : ∀ q q', q ≠ q' → List.Disjoint (s.own q) (s.own q')

structure Called (s t : Queues) (call : Call) (m' : Member) : Prop where
  member : t.member = Function.update s.member call.queue (some m')
  spares : Spares (s.nodes call.queue) (s.own call.queue) (s.usesId call) s.toProcess t.toProcess
  holds : m'.Holds t.toProcess
  nodes : ∀ x ∈ m'.nodes, x ∈ s.nodes call.queue ∨ s.heap.size ≤ x
  trackers : ∀ t ∈ m'.trackers, t ∈ s.own call.queue ∨ s.trackers ≤ t

section Queues

variable {s t : Queues} {call : Call} {q : Nat} {m : Member}

theorem Queues.nodes_of (found : s.member q = some m) : s.nodes q = m.nodes := by
  rw [Queues.nodes, found]
  rfl

theorem Queues.own_of (found : s.member q = some m) : s.own q = m.trackers := by
  rw [Queues.own, found]
  rfl

theorem call_on {op : Op} (move : s.step true (.on q op) = some t) :
    ∃ m p' m', s.member q = some m ∧ m.step true s.toProcess op = some (p', m') ∧
      t = { toProcess := p', member := Function.update s.member q (some m') } := by
  simp only [Queues.step, Option.bind_eq_bind, Option.bind_eq_some_iff, Option.some.injEq,
    Prod.exists] at move
  obtain ⟨m, found, p', m', run, rfl⟩ := move
  exact ⟨m, p', m', found, run, rfl⟩

theorem call_new (move : s.step true (.new q) = some t) :
    s.member q = none ∧ t = { s with
      heap := (LinkMessageQueue.new s.heap).1
      member := Function.update s.member q (some (.new (LinkMessageQueue.new s.heap).2)) } := by
  simp only [Queues.step] at move
  split at move
  · cases move
  · rename_i none_
    rw [Option.not_isSome_iff_eq_none] at none_
    exact ⟨none_, (Option.some.inj move).symm⟩

theorem node_new (h : Heap) (x : Nat) : (LinkMessageQueue.new h).1.node x =
    if x = h.size + 1 then ⟨none, some h.size, none⟩
    else if x = h.size then ⟨none, none, none⟩ else h.node x := by
  simp only [LinkMessageQueue.new, Heap.alloc, Function.update_apply]

theorem called (apart : Apart s) (move : s.step true call = some t) :
    ∃ m', Called s t call m' := by
  cases call with
  | new q =>
    obtain ⟨none_, rfl⟩ := call_new move
    have nodes_eq : ∀ x, x ∈ (Member.new (LinkMessageQueue.new s.heap).2).nodes ↔
        x = s.heap.size ∨ x = s.heap.size + 1 := by
      intro x
      simp [Member.nodes, Member.new, LinkMessageQueue.new, Heap.alloc]
    refine ⟨_, rfl, ⟨Nat.le_add_right _ 2, ?_, Nat.le_refl _, fun _ _ _ => rfl,
      fun _ entry _ => entry, fun _ entry _ _ _ => entry, fun all => all⟩, ?_, ?_, ?_⟩
    · intro x older _
      change (LinkMessageQueue.new s.heap).1.node x = _
      rw [node_new, if_neg (by omega), if_neg (Nat.ne_of_lt older)]
    · refine ⟨?_, ?_, ?_, by simp [Member.new], by simp [Member.new], by simp [Member.new],
        by simp [Member.new], ?_⟩
      · intro x member
        change x < s.heap.size + 2
        rcases (nodes_eq x).mp member with rfl | rfl <;> omega
      · intro x member y link
        rw [Heap.next, node_new] at link
        rcases (nodes_eq x).mp member with rfl | rfl
        · simp at link
        · rw [if_pos rfl] at link
          exact (nodes_eq y).mpr (Or.inl (Option.some.inj link).symm)
      · exact (nodes_eq _).mpr (Or.inr rfl)
      · intro x member e entry
        rw [Heap.targets, node_new] at entry
        rcases (nodes_eq x).mp member with rfl | rfl <;> simp at entry
    · intro x member
      rcases (nodes_eq x).mp member with rfl | rfl
      · exact Or.inr (Nat.le_refl _)
      · exact Or.inr (Nat.le_succ _)
    · intro t member
      exact absurd member List.not_mem_nil
  | on q op =>
    obtain ⟨m, p', m', found, run, rfl⟩ := call_on move
    have holds := apart.holds q m found
    have keeps := member_keeps holds apart.registered run
    have spares := member_spares holds run
    refine ⟨m', rfl, ?_, keeps.holds, ?_, ?_⟩
    · rw [Call.queue, Queues.nodes_of found, Queues.own_of found, Queues.usesId, found]
      exact spares
    · rw [Call.queue, Queues.nodes_of found]
      exact keeps.nodes
    · rw [Call.queue, Queues.own_of found]
      exact keeps.trackers

theorem disjoint_kept {f g : Nat → List Nat} {k bound : Nat}
    (before : ∀ q q', q ≠ q' → List.Disjoint (f q) (f q')) (others : ∀ q, q ≠ k → g q = f q)
    (here : ∀ x ∈ g k, x ∈ f k ∨ bound ≤ x) (below : ∀ q, ∀ x ∈ f q, x < bound) :
    ∀ q q', q ≠ q' → List.Disjoint (g q) (g q') := by
  have one : ∀ q, q ≠ k → List.Disjoint (g k) (g q) := by
    intro q other x mine theirs
    rw [others q other] at theirs
    rcases here x mine with old | new
    · exact before k q (Ne.symm other) old theirs
    · exact absurd (below q x theirs) (Nat.not_lt.mpr new)
  intro q q' differ
  by_cases first : q = k
  · subst first
    exact one q' (Ne.symm differ)
  · by_cases second : q' = k
    · subst second
      exact (one q first).symm
    · rw [others q first, others q' second]
      exact before q q' differ

theorem apart_init : Apart Queues.init := by
  refine ⟨?_, ?_, ?_, ?_⟩ <;> simp [Queues.init, Queues.nodes, Queues.own]

theorem step_apart (apart : Apart s) (move : s.step true call = some t) : Apart t := by
  obtain ⟨m', did⟩ := called apart move
  have here : t.member call.queue = some m' := by rw [did.member, Function.update_self]
  have others : ∀ q, q ≠ call.queue → t.member q = s.member q := by
    intro q other
    rw [did.member, Function.update_of_ne other]
  have nodes_others : ∀ q, q ≠ call.queue → t.nodes q = s.nodes q := by
    intro q other
    rw [Queues.nodes, others q other, Queues.nodes]
  have own_others : ∀ q, q ≠ call.queue → t.own q = s.own q := by
    intro q other
    rw [Queues.own, others q other, Queues.own]
  have nodes_lt : ∀ q, ∀ x ∈ s.nodes q, x < s.heap.size := by
    intro q x member
    cases found : s.member q with
    | none => simp [Queues.nodes, found] at member
    | some m => exact (apart.holds q m found).nodes x (Queues.nodes_of found ▸ member)
  have own_lt : ∀ q, ∀ c ∈ s.own q, c < s.trackers := by
    intro q c member
    cases found : s.member q with
    | none => simp [Queues.own, found] at member
    | some m => exact (apart.holds q m found).trackers c (Queues.own_of found ▸ member)
  refine ⟨?_, did.spares.registered apart.registered,
    disjoint_kept apart.nodes nodes_others ?_ nodes_lt,
    disjoint_kept apart.trackers own_others ?_ own_lt⟩
  · intro q m found
    by_cases same : q = call.queue
    · subst same
      obtain rfl := Option.some.inj (here.symm.trans found)
      exact did.holds
    · rw [others q same] at found
      refine (apart.holds q m found).spared did.spares ?_
      have disjoint := apart.nodes _ _ (Ne.symm same)
      rwa [Queues.nodes_of found] at disjoint
  · intro x member
    exact did.nodes x (Queues.nodes_of here ▸ member)
  · intro x member
    exact did.trackers x (Queues.own_of here ▸ member)

theorem run_apart {trace : List (Queues × Call)} (run : ProcessRun true trace s) : Apart s := by
  induction run with
  | nil first => exact first ▸ apart_init
  | snoc _ move ih => exact step_apart ih move

end Queues

end Lmq
