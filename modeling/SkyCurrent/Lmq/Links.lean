import SkyCurrent.Base.PointerForest
import SkyCurrent.Lmq.Model

/- The next links of one queue. Every node leads to the tail, and between the two ends
   of a link lies no unclaimed message, whichever way the link points. -/
namespace Lmq

open StateTransition Relation PointerForest

@[simp] theorem next_setNext (h : Heap) (r : Nat) (v : Option Nat) :
    (h.setNext r v).next = Function.update h.next r v := by
  funext x
  by_cases same : x = r
  · subst same
    simp [Heap.next, Heap.setNext, Heap.modify]
  · simp [Heap.next, Heap.setNext, Heap.modify, same]

@[simp] theorem size_setNext (h : Heap) (r : Nat) (v : Option Nat) :
    (h.setNext r v).size = h.size := rfl

@[simp] theorem isClaimed_setNext (h : Heap) (r x : Nat) (v : Option Nat) :
    ((h.setNext r v).node x).isClaimed = (h.node x).isClaimed := by
  by_cases same : x = r
  · subst same
    simp [Heap.setNext, Heap.modify, NextMessage.isClaimed]
  · simp [Heap.setNext, Heap.modify, same]

@[simp] theorem unclaimed_setNext (h : Heap) (r x : Nat) (v : Option Nat) :
    (h.setNext r v).Unclaimed x ↔ h.Unclaimed x := by
  simp [Heap.Unclaimed]

@[simp] theorem targets_setNext (h : Heap) (r x : Nat) (v : Option Nat) :
    ((h.setNext r v).node x).targetConsumers = (h.node x).targetConsumers := by
  by_cases same : x = r
  · subst same
    simp [Heap.setNext, Heap.modify]
  · simp [Heap.setNext, Heap.modify, same]

theorem setNext_same (h : Heap) (r : Nat) (v : Option Nat) (same : h.next r = v) :
    h.setNext r v = h := by
  subst same
  simp [Heap.setNext, Heap.modify, Heap.next]

@[simp] theorem next_claim (h : Heap) (m : Nat) : (claim h m).1.next = h.next := by
  funext x
  by_cases same : x = m
  · subst same
    simp [claim, Heap.next, Heap.modify]
  · simp [claim, Heap.next, Heap.modify, same]

@[simp] theorem size_claim (h : Heap) (m : Nat) : (claim h m).1.size = h.size := rfl

@[simp] theorem targets_claim (h : Heap) (m x : Nat) :
    ((claim h m).1.node x).targetConsumers = (h.node x).targetConsumers := by
  by_cases same : x = m
  · subst same
    simp [claim, Heap.modify]
  · simp [claim, Heap.modify, same]

theorem unclaimed_claim (h : Heap) (m x : Nat) :
    (claim h m).1.Unclaimed x ↔ x ≠ m ∧ h.Unclaimed x := by
  by_cases same : x = m
  · subst same
    simp [Heap.Unclaimed, claim, Heap.modify, NextMessage.isClaimed]
  · simp [Heap.Unclaimed, claim, Heap.modify, same]

@[simp] theorem next_setTargets (h : Heap) (r : Nat) (v : Option Consumers) :
    (h.setTargets r v).next = h.next := by
  funext x
  by_cases same : x = r
  · subst same
    simp [Heap.next, Heap.setTargets, Heap.modify]
  · simp [Heap.next, Heap.setTargets, Heap.modify, same]

@[simp] theorem size_setTargets (h : Heap) (r : Nat) (v : Option Consumers) :
    (h.setTargets r v).size = h.size := rfl

@[simp] theorem unclaimed_setTargets (h : Heap) (r x : Nat) (v : Option Consumers) :
    (h.setTargets r v).Unclaimed x ↔ h.Unclaimed x := by
  by_cases same : x = r
  · subst same
    simp [Heap.Unclaimed, Heap.setTargets, Heap.modify, NextMessage.isClaimed]
  · simp [Heap.Unclaimed, Heap.setTargets, Heap.modify, same]

theorem targets_setTargets (h : Heap) (r x : Nat) (v : Option Consumers) :
    ((h.setTargets r v).node x).targetConsumers =
      if x = r then v else (h.node x).targetConsumers := by
  by_cases same : x = r
  · subst same
    simp [Heap.setTargets, Heap.modify]
  · simp [Heap.setTargets, Heap.modify, same]

structure ClaimedSince (h h' : Heap) : Prop where
  size : h'.size = h.size
  next : h'.next = h.next
  unclaimed : ∀ m, h'.Unclaimed m → h.Unclaimed m

theorem ClaimedSince.refl (h : Heap) : ClaimedSince h h := ⟨rfl, rfl, fun _ open_ => open_⟩

theorem claimedSince_claim (h : Heap) (m : Nat) : ClaimedSince h (claim h m).1 :=
  ⟨size_claim h m, next_claim h m, fun x hx => ((unclaimed_claim h m x).mp hx).2⟩

theorem claimedSince_check (strongCount : Nat → Nat) (id : UInt64) (h : Heap) (current : Nat) :
    ClaimedSince h (checkShouldNowAutodrop strongCount id h current) := by
  unfold checkShouldNowAutodrop
  split
  · exact ⟨rfl, rfl, fun m hm => hm⟩
  · rename_i targets _
    dsimp only
    split
    · refine ⟨rfl, by simp, ?_⟩
      intro m hm
      have before := ((unclaimed_claim _ current m).mp hm).2
      simpa using before
    · exact ⟨rfl, by simp, fun m hm => by simpa using hm⟩

theorem claimedSince_checked (autodrop : Bool) (strongCount : Nat → Nat) (h : Heap)
    (self : MessageConsumer) : ClaimedSince h (checked autodrop strongCount h self) := by
  unfold checked
  split
  · exact claimedSince_check strongCount self.id h self.current
  · exact ⟨rfl, rfl, fun m hm => hm⟩

structure Rooted (h : Heap) (tail : Nat) : Prop where
  forest : Forest h.next tail {x | x < h.size}
  closed : ∀ x y, x < h.size → h.next x = some y → y < h.size
  tail_range : tail < h.size

section Rooted

variable {h : Heap} {tail : Nat}

theorem Rooted.reaches_range (rooted : Rooted h tail) {x y : Nat} (range : x < h.size)
    (walk : Reaches h.next x y) : y < h.size := by
  induction walk with
  | refl => exact range
  | @tail a b _ link ih => exact rooted.closed a b ih link

theorem Rooted.next_some (rooted : Rooted h tail) {x : Nat} (range : x < h.size)
    (inner : x ≠ tail) : ∃ y, h.next x = some y := by
  rcases ReflTransGen.cases_head (rooted.forest.leads x range) with same | ⟨y, link, _⟩
  · exact absurd same inner
  · exact ⟨y, link⟩

theorem Rooted.claimedSince (rooted : Rooted h tail) {h' : Heap} (since : ClaimedSince h h') :
    Rooted h' tail := by
  constructor
  · rw [since.next, since.size]
    exact rooted.forest
  · rw [since.next, since.size]
    exact rooted.closed
  · rw [since.size]
    exact rooted.tail_range

end Rooted

/-- No unclaimed message lies between `x` and `y`, nor is `x` one if `y` comes before it. -/
def Skips (h : Heap) (x y : Nat) : Prop :=
  ∀ m, h.Unclaimed m → m ≠ y → (x < m ↔ y < m)

structure WellLinked (h : Heap) (q : LinkMessageQueue) : Prop where
  tail_first : q.tail = 0
  root_second : q.root = 1
  newest : q.last + 1 = h.size
  root_stays : q.root ≤ q.last
  unclaimed_range : ∀ m, h.Unclaimed m → q.root < m ∧ m < h.size
  forest : Forest h.next q.tail {x | x < h.size}
  closed : ∀ x y, x < h.size → h.next x = some y → y < h.size ∧ y ≠ q.root
  links : ∀ x y, x < h.size → h.next x = some y → y ≠ q.tail → Skips h x y

section WellLinked

variable {h : Heap} {q : LinkMessageQueue}

theorem WellLinked.tail_lt (well : WellLinked h q) : q.tail < q.root := by
  rw [well.tail_first, well.root_second]
  exact Nat.zero_lt_one

theorem WellLinked.root_lt (well : WellLinked h q) : q.root < h.size := by
  have newest := well.newest
  have stays := well.root_stays
  omega

theorem WellLinked.tail_claimed (well : WellLinked h q) : ¬ h.Unclaimed q.tail := by
  intro unclaimed
  have range := well.unclaimed_range _ unclaimed
  have order := well.tail_lt
  omega

theorem WellLinked.root_claimed (well : WellLinked h q) : ¬ h.Unclaimed q.root := by
  intro unclaimed
  exact Nat.lt_irrefl _ (well.unclaimed_range _ unclaimed).1

theorem WellLinked.rooted (well : WellLinked h q) : Rooted h q.tail := by
  refine ⟨well.forest, ?_, Nat.lt_trans well.tail_lt well.root_lt⟩
  intro x y range link
  exact (well.closed x y range link).1

theorem WellLinked.next_some (well : WellLinked h q) {x : Nat} (range : x < h.size)
    (inner : x ≠ q.tail) : ∃ y, h.next x = some y :=
  well.rooted.next_some range inner

theorem WellLinked.reaches_range (well : WellLinked h q) {x y : Nat} (range : x < h.size)
    (walk : Reaches h.next x y) : y < h.size :=
  well.rooted.reaches_range range walk

/-- The links from an unclaimed message only lead to later ones, or to the tail. -/
theorem WellLinked.reaches_later (well : WellLinked h q) {x y : Nat} (unclaimed : h.Unclaimed x)
    (walk : Reaches h.next x y) (inner : y ≠ q.tail) : x ≤ y := by
  induction walk with
  | refl => exact Nat.le_refl x
  | @tail a b before link ih =>
    have range : a < h.size := well.reaches_range (well.unclaimed_range x unclaimed).2 before
    have middle : a ≠ q.tail := by
      intro same
      subst same
      have stop := well.forest.sink_end
      exact absurd (show h.next q.tail = some b from link) (by simp [stop])
    have lower := ih middle
    by_cases same : x = b
    · exact Nat.le_of_eq same
    · have skip := well.links a b range link inner x unclaimed same
      by_contra before
      have smaller : b < x := by omega
      have impossible := skip.mpr smaller
      omega

/-- Following the links past nodes where no later message is left never opens one up again. -/
theorem WellLinked.reaches_exhausted (well : WellLinked h q) {x y : Nat} (range : x < h.size)
    (walk : Reaches h.next x y) (inner : y ≠ q.tail)
    (exhausted : ∀ m, h.Unclaimed m → ¬ x < m) : ∀ m, h.Unclaimed m → ¬ y < m := by
  induction walk with
  | refl => exact exhausted
  | @tail a b before link ih =>
    have middle : a ≠ q.tail := by
      intro same
      subst same
      have stop := well.forest.sink_end
      exact absurd (show h.next q.tail = some b from link) (by simp [stop])
    intro m unclaimed later
    have inside := well.reaches_range range before
    have skip := well.links a b inside link inner m unclaimed (by omega)
    exact ih middle m unclaimed (skip.mpr later)

theorem WellLinked.claimedSince (well : WellLinked h q) {h' : Heap} (since : ClaimedSince h h') :
    WellLinked h' q := by
  refine ⟨well.tail_first, well.root_second, ?_, well.root_stays, ?_, ?_, ?_, ?_⟩
  · rw [since.size]
    exact well.newest
  · intro m hm
    rw [since.size]
    exact well.unclaimed_range m (since.unclaimed m hm)
  · rw [since.next, since.size]
    exact well.forest
  · rw [since.next, since.size]
    exact well.closed
  · intro x y range link inner m unclaimed apart
    rw [since.size] at range
    rw [since.next] at link
    exact well.links x y range link inner m (since.unclaimed m unclaimed) apart

end WellLinked

theorem wellLinked_new :
    WellLinked (LinkMessageQueue.new .empty).1 (LinkMessageQueue.new .empty).2 := by
  have next_eq : (LinkMessageQueue.new .empty).1.next =
      fun x => if x = 1 then some 0 else none := by
    funext x
    by_cases root : x = 1
    · subst root
      rfl
    · by_cases tail : x = 0
      · subst tail
        rfl
      · simp [LinkMessageQueue.new, Heap.alloc, Heap.empty, Heap.next, Function.update, root]
  refine ⟨rfl, rfl, rfl, Nat.le_refl _, ?_, ⟨?_, ?_⟩, ?_, ?_⟩
  · intro m unclaimed
    by_cases root : m = 1
    · subst root
      exact absurd unclaimed (by decide)
    · by_cases tail : m = 0
      · subst tail
        exact absurd unclaimed (by decide)
      · simp [LinkMessageQueue.new, Heap.alloc, Heap.empty, Heap.Unclaimed, Function.update, root,
          NextMessage.isClaimed] at unclaimed
  · rw [next_eq]
    rfl
  · intro x range
    have small : x < 2 := range
    rw [next_eq]
    by_cases root : x = 1
    · subst root
      exact reaches_next rfl
    · have tail : x = 0 := by omega
      subst tail
      exact ReflTransGen.refl
  · intro x y range link
    simp only [next_eq] at link
    split at link
    · obtain rfl : (0 : Nat) = y := Option.some.inj link
      exact ⟨by decide, by decide⟩
    · simp at link
  · intro x y range link inner
    simp only [next_eq] at link
    split at link
    · obtain rfl : (0 : Nat) = y := Option.some.inj link
      exact absurd rfl inner
    · simp at link

end Lmq
