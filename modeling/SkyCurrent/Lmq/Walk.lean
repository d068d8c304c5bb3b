import SkyCurrent.Lmq.Links

/- The loops of push and try_next on a well linked heap: each of them ends, and each
   single rearrangement of links keeps the heap well linked. -/
namespace Lmq

open StateTransition Relation PointerForest

structure Relinked (h h' : Heap) : Prop where
  size : h'.size = h.size
  claimed : ∀ x, (h'.node x).isClaimed = (h.node x).isClaimed
  targets : ∀ x, (h'.node x).targetConsumers = (h.node x).targetConsumers

theorem Relinked.refl (h : Heap) : Relinked h h := ⟨rfl, fun _ => rfl, fun _ => rfl⟩

theorem Relinked.trans {h₁ h₂ h₃ : Heap} (a : Relinked h₁ h₂) (b : Relinked h₂ h₃) :
    Relinked h₁ h₃ :=
  ⟨b.size.trans a.size, fun x => (b.claimed x).trans (a.claimed x),
    fun x => (b.targets x).trans (a.targets x)⟩

theorem Relinked.unclaimed {h h' : Heap} (r : Relinked h h') (x : Nat) :
    h'.Unclaimed x ↔ h.Unclaimed x := by
  simp [Heap.Unclaimed, r.claimed x]

/-- The links after one round of try_next that stepped over the claimed node `y`. -/
def pruned (h : Heap) (p : Nat) (currentIsClaimed : Bool) (y w : Nat) : Heap :=
  if currentIsClaimed then h.setNext p (some w)
  else (h.setNext p (some w)).setNext y (some p)

theorem relinked_pruned (h : Heap) (p : Nat) (c : Bool) (y w : Nat) :
    Relinked h (pruned h p c y w) := by
  cases c <;> exact ⟨rfl, fun x => by simp [pruned], fun x => by simp [pruned]⟩

theorem visit_tail {h : Heap} {p y : Nat} {c : Bool} (link : h.next p = some y)
    (stop : h.next y = none) : visit h p c y = (h, .reachedTail) := by
  simp [visit, stop, setNext_same h p (some y) link]

theorem visit_found {h : Heap} {p y w : Nat} {c : Bool} (link : h.next p = some y)
    (unclaimed : h.Unclaimed y) (go : h.next y = some w) :
    visit h p c y = (h, .found y) := by
  have open_ : (h.node y).isClaimed = false := unclaimed
  simp [visit, open_, go, setNext_same h p (some y) link]

theorem visit_prune {h : Heap} {p y w : Nat} {c : Bool} (claimed : ¬ h.Unclaimed y)
    (go : h.next y = some w) :
    visit h p c y = (pruned h p c y w, .advance (some w)) := by
  have closed : (h.node y).isClaimed = true := by simpa [Heap.Unclaimed] using claimed
  cases c <;> simp [visit, closed, go, pruned]

/- The walk round by round, whatever the links are like. -/

theorem walk_stop {h : Heap} {p y n : Nat} {c : Bool} (apart : y ≠ p)
    (stops : h.Unclaimed y ∨ h.next y = none) :
    walk p c (n + 1) h (some y) = some (h.setNext p (some y), (h.next y).map fun _ => y) := by
  have stop : (!(h.node y).isClaimed || (h.next y).isNone) = true := by
    rcases stops with unclaimed | none_
    · rw [Heap.Unclaimed] at unclaimed
      simp [unclaimed]
    · simp [none_]
  simp only [walk, if_neg apart, visit, if_pos stop]
  cases link : h.next y <;> simp

theorem walk_prune {h : Heap} {p y w n : Nat} {c : Bool} (apart : y ≠ p)
    (claimed : ¬ h.Unclaimed y) (go : h.next y = some w) :
    walk p c (n + 1) h (some y) = walk p c n (pruned h p c y w) (some w) := by
  simp only [walk, if_neg apart, visit_prune claimed go]

theorem walk_induct {p : Nat} {c : Bool} {P : Nat → Heap → Option Nat → Heap → Option Nat → Prop}
    (ends : ∀ n h, P n h none h none)
    (stop : ∀ n h y, y ≠ p → h.Unclaimed y ∨ h.next y = none →
      P (n + 1) h (some y) (h.setNext p (some y)) ((h.next y).map fun _ => y))
    (prune : ∀ n h y w h' dest, y ≠ p → ¬ h.Unclaimed y → h.next y = some w →
      P n (pruned h p c y w) (some w) h' dest → P (n + 1) h (some y) h' dest)
    {n : Nat} {h h' : Heap} {y dest : Option Nat} (run : walk p c n h y = some (h', dest)) :
    P n h y h' dest := by
  induction n generalizing h y with
  | zero =>
    cases y with
    | none =>
      simp only [walk, Option.some.injEq, Prod.mk.injEq] at run
      obtain ⟨rfl, rfl⟩ := run
      exact ends 0 h
    | some y => simp [walk] at run
  | succ n ih =>
    cases y with
    | none =>
      simp only [walk, Option.some.injEq, Prod.mk.injEq] at run
      obtain ⟨rfl, rfl⟩ := run
      exact ends (n + 1) h
    | some y =>
      by_cases back : y = p
      · simp [walk, back] at run
      · by_cases stops : h.Unclaimed y ∨ h.next y = none
        · rw [walk_stop back stops, Option.some.injEq, Prod.mk.injEq] at run
          obtain ⟨rfl, rfl⟩ := run
          exact stop n h y back stops
        · obtain ⟨claimed, inner⟩ := not_or.mp stops
          obtain ⟨w, link⟩ := Option.ne_none_iff_exists'.mp inner
          rw [walk_prune back claimed link] at run
          exact prune n h y w h' dest back claimed link (ih run)

theorem relinked_walk {h h' : Heap} {p n : Nat} {c : Bool} {y dest : Option Nat}
    (run : walk p c n h y = some (h', dest)) : Relinked h h' := by
  refine walk_induct (P := fun _ h _ h' _ => Relinked h h') ?_ ?_ ?_ run
  · intro _ h
    exact Relinked.refl h
  · intro _ h y _ _
    exact ⟨rfl, fun x => by simp, fun x => by simp⟩
  · intro _ h y w h' _ _ _ _ rest
    exact (relinked_pruned h p c y w).trans rest

theorem tryNext_walks {autodrop : Bool} {strongCount : Nat → Nat} {h h' : Heap}
    {self self' : MessageConsumer} {dest : Option Nat}
    (run : tryNext autodrop strongCount h self = some (h', self', dest)) :
    walk self.current ((checked autodrop strongCount h self).node self.current).isClaimed
        (checked autodrop strongCount h self).size (checked autodrop strongCount h self)
        ((checked autodrop strongCount h self).next self.current) = some (h', dest) ∧
      self' = { self with current := dest.getD self.current } := by
  simp only [tryNext, Option.map_eq_some_iff, Prod.mk.injEq, Prod.exists] at run
  obtain ⟨_, _, walked, rfl, rfl, rfl⟩ := run
  exact ⟨walked, rfl⟩

theorem next_pruned (h : Heap) (p : Nat) (c : Bool) (y w : Nat) (apart : y ≠ p) :
    (pruned h p c y w).next p = some w := by
  cases c <;> simp [pruned, Function.update_of_ne apart.symm]

theorem forest_pruned {h : Heap} {tail p y w : Nat} {c : Bool} {nodes : Set Nat}
    (forest : Forest h.next tail nodes) (range : p ∈ nodes) (first : h.next p = some y)
    (second : h.next y = some w) : Forest (pruned h p c y w).next tail nodes := by
  cases c with
  | true => simpa [pruned] using forest.shortcut range first second
  | false => simpa [pruned] using forest.rotate range first second

theorem Rooted.chain_lt_size {h : Heap} {tail : Nat} (rooted : Rooted h tail) {x n : Nat}
    (range : x < h.size) (chain : Chain h.next tail n x) : n < h.size := by
  have bound := chain_lt_card rooted.forest.sink_end chain (Finset.range h.size)
    (fun y walk => Finset.mem_range.mpr (rooted.reaches_range range walk))
  simpa using bound

section Pruned

variable {h : Heap} {q : LinkMessageQueue} {p y w : Nat} {c : Bool}

theorem pruned_cases (x v : Nat) (link : (pruned h p c y w).next x = some v) :
    (x = p ∧ v = w) ∨ (x = y ∧ v = p ∧ c = false) ∨ h.next x = some v := by
  cases c with
  | true =>
    by_cases same : x = p
    · subst same
      simp [pruned] at link
      exact Or.inl ⟨rfl, link.symm⟩
    · simp [pruned, same] at link
      exact Or.inr (Or.inr link)
  | false =>
    by_cases atY : x = y
    · subst atY
      simp [pruned] at link
      exact Or.inr (Or.inl ⟨rfl, link.symm, rfl⟩)
    · by_cases same : x = p
      · subst same
        simp [pruned, atY] at link
        exact Or.inl ⟨rfl, link.symm⟩
      · simp [pruned, same, atY] at link
        exact Or.inr (Or.inr link)

theorem Rooted.pruned {tail : Nat} (rooted : Rooted h tail) (range : p < h.size)
    (first : h.next p = some y) (second : h.next y = some w) :
    Rooted (Lmq.pruned h p c y w) tail := by
  have frame := relinked_pruned h p c y w
  constructor
  · rw [frame.size]
    exact forest_pruned rooted.forest range first second
  · intro x v rangeX link
    rw [frame.size] at rangeX ⊢
    rcases pruned_cases x v link with ⟨_, rfl⟩ | ⟨_, rfl, _⟩ | old
    · exact rooted.closed y v (rooted.closed p y range first) second
    · exact range
    · exact rooted.closed x v rangeX old
  · rw [frame.size]
    exact rooted.tail_range

theorem visit_cases {tail : Nat} (rooted : Rooted h tail) (range : p < h.size)
    (first : h.next p = some y) :
    (y = tail ∧ visit h p c y = (h, .reachedTail)) ∨
    ∃ w, h.next y = some w ∧
      (h.Unclaimed y ∧ visit h p c y = (h, .found y) ∨
        ¬ h.Unclaimed y ∧ visit h p c y = (Lmq.pruned h p c y w, .advance (some w))) := by
  by_cases stop : y = tail
  · subst stop
    exact Or.inl ⟨rfl, visit_tail first rooted.forest.sink_end⟩
  · obtain ⟨w, go⟩ := rooted.next_some (rooted.closed p y range first) stop
    by_cases unclaimed : h.Unclaimed y
    · exact Or.inr ⟨w, go, Or.inl ⟨unclaimed, visit_found first unclaimed go⟩⟩
    · exact Or.inr ⟨w, go, Or.inr ⟨unclaimed, visit_prune unclaimed go⟩⟩

theorem WellLinked.pruned (well : WellLinked h q) (range : p < h.size)
    (first : h.next p = some y) (claimed : ¬ h.Unclaimed y) (second : h.next y = some w)
    (standing : c = false → h.Unclaimed p) : WellLinked (pruned h p c y w) q := by
  have frame := relinked_pruned h p c y w
  have rangeY := (well.closed p y range first).1
  have innerP := well.forest.ne_sink first
  have innerY := well.forest.ne_sink second
  refine ⟨well.tail_first, well.root_second, ?_, well.root_stays, ?_, ?_, ?_, ?_⟩
  · rw [frame.size]
    exact well.newest
  · intro m unclaimed
    rw [frame.size]
    exact well.unclaimed_range m ((frame.unclaimed m).mp unclaimed)
  · rw [frame.size]
    exact forest_pruned well.forest range first second
  · intro x v rangeX link
    rw [frame.size] at rangeX ⊢
    rcases pruned_cases x v link with ⟨_, rfl⟩ | ⟨_, rfl, open_⟩ | old
    · exact well.closed y v rangeY second
    · refine ⟨range, ?_⟩
      rintro rfl
      exact well.root_claimed (standing open_)
    · exact well.closed x v rangeX old
  · intro x v rangeX link inner m unclaimed apart
    rw [frame.size] at rangeX
    have open_ := (frame.unclaimed m).mp unclaimed
    have other : m ≠ y := by
      rintro rfl
      exact claimed open_
    -- `y` is claimed, so a link over it skips what the two links it replaces skip.
    have skip := well.links p y range first innerY m open_ other
    rcases pruned_cases x v link with ⟨rfl, rfl⟩ | ⟨rfl, rfl, _⟩ | old
    · exact skip.trans (well.links y v rangeY second inner m open_ apart)
    · exact skip.symm
    · exact well.links x v rangeX old inner m open_ apart

variable {tail : Nat} {nodes : Set Nat}

theorem reaches_pruned (forest : Forest h.next tail nodes) (range : p ∈ nodes)
    (first : h.next p = some y)
    (second : h.next y = some w) (z : Nat) :
    Reaches (Lmq.pruned h p c y w).next w z ↔ Reaches h.next w z := by
  have leadsY := forest.next_leads range first
  have leadsW := reaches_tail_of_next forest.sink_end second leadsY
  have avoidsP : ¬ Reaches h.next w p := fun back =>
    not_reaches_back forest.sink_end leadsY first (back.head second)
  have avoidsY : ¬ Reaches h.next w y := not_reaches_back forest.sink_end leadsW second
  have avoids : ¬ Reaches (h.setNext p (some w)).next w y := by
    rw [next_setNext]
    exact fun back => avoidsY (reaches_of_update back avoidsP)
  cases c with
  | true =>
    simp only [Lmq.pruned, if_true, next_setNext]
    exact ⟨fun walk => reaches_of_update walk avoidsP, fun walk => reaches_update walk avoidsP⟩
  | false =>
    simp only [Lmq.pruned, Bool.false_eq_true, if_false]
    rw [next_setNext (h.setNext p (some w))]
    constructor
    · intro walk
      have short := reaches_of_update walk avoids
      rw [next_setNext] at short
      exact reaches_of_update short avoidsP
    · intro walk
      refine reaches_update ?_ avoids
      rw [next_setNext]
      exact reaches_update walk avoidsP

theorem chain_pruned (forest : Forest h.next tail nodes) (range : p ∈ nodes)
    (first : h.next p = some y)
    (second : h.next y = some w) {n : Nat} (chain : Chain h.next tail n w) :
    Chain (Lmq.pruned h p c y w).next tail n w := by
  have leadsY := forest.next_leads range first
  have leadsW := reaches_tail_of_next forest.sink_end second leadsY
  have avoidsP : ¬ Reaches h.next w p := fun back =>
    not_reaches_back forest.sink_end leadsY first (back.head second)
  have avoidsY : ¬ Reaches h.next w y := not_reaches_back forest.sink_end leadsW second
  cases c with
  | true =>
    simp only [Lmq.pruned, if_true, next_setNext]
    exact chain_update chain avoidsP
  | false =>
    simp only [Lmq.pruned, Bool.false_eq_true, if_false]
    rw [next_setNext (h.setNext p (some w)), next_setNext]
    exact chain_update (chain_update chain avoidsP)
      fun back => avoidsY (reaches_of_update back avoidsP)

end Pruned

/-- What the walk from `p` leaves behind: it stopped at the tail or at an unclaimed message,
    and `p` now points there. -/
structure Walked (q : LinkMessageQueue) (p : Nat) (h h' : Heap) (dest : Option Nat)
    (P : Heap → Nat → Prop) : Prop where
  well : WellLinked h' q
  relinked : Relinked h h'
  stopped : ∃ y, h'.next p = some y ∧ P h' y ∧
    ((y = q.tail ∧ dest = none) ∨ (h'.Unclaimed y ∧ dest = some y))

section Walk

variable {q : LinkMessageQueue} {p : Nat} {c : Bool} {P : Heap → Nat → Prop}

/-- Induction over the walk, with whatever each of its rounds keeps. -/
theorem walk_rule
    (keep : ∀ h y w, WellLinked h q → p < h.size → P h y → h.next p = some y →
      ¬ h.Unclaimed y → h.next y = some w → P (pruned h p c y w) w)
    {n fuel : Nat} {h : Heap} {y : Nat} (well : WellLinked h q) (range : p < h.size)
    (standing : c = false → h.Unclaimed p) (link : h.next p = some y)
    (chain : Chain h.next q.tail n y) (enough : n < fuel) (first : P h y) :
    ∃ h' dest, walk p c fuel h (some y) = some (h', dest) ∧ Walked q p h h' dest P := by
  induction fuel generalizing n h y with
  | zero => omega
  | succ fuel ih =>
    have apart : y ≠ p := next_ne_self well.forest.sink_end (well.forest.leads p range) link
    cases chain with
    | zero =>
      refine ⟨h, none, ?_, well, Relinked.refl h, q.tail, link, first, Or.inl ⟨rfl, rfl⟩⟩
      simp [walk, apart, visit_tail link well.forest.sink_end]
    | @succ n _ w go rest =>
      by_cases unclaimed : h.Unclaimed y
      · refine ⟨h, some y, ?_, well, Relinked.refl h, y, link, first, Or.inr ⟨unclaimed, rfl⟩⟩
        simp [walk, apart, visit_found link unclaimed go]
      · have well' := well.pruned range link unclaimed go standing
        have frame := relinked_pruned h p c y w
        have standing' : c = false → (pruned h p c y w).Unclaimed p := fun open_ =>
          (frame.unclaimed p).mpr (standing open_)
        obtain ⟨h', dest, run, walked⟩ := ih well' (by rw [frame.size]; exact range) standing'
          (next_pruned h p c y w apart) (chain_pruned well.forest range link go rest) (by omega)
          (keep h y w well range first link unclaimed go)
        refine ⟨h', dest, ?_, walked.well, frame.trans walked.relinked, walked.stopped⟩
        simp only [walk, apart, if_false, visit_prune unclaimed go]
        exact run

variable (autodrop : Bool) (strongCount : Nat → Nat) {h : Heap} {self : MessageConsumer}

theorem tryNext_rule (well : WellLinked h q) (range : self.current < h.size)
    (inner : self.current ≠ q.tail)
    (keep : ∀ h' y w, WellLinked h' q → self.current < h'.size → P h' y →
      h'.next self.current = some y → ¬ h'.Unclaimed y → h'.next y = some w →
      P (pruned h' self.current
        ((checked autodrop strongCount h self).node self.current).isClaimed y w) w)
    (first : ∀ y, h.next self.current = some y →
      P (checked autodrop strongCount h self) y) :
    ∃ h' dest,
      tryNext autodrop strongCount h self =
        some (h', { self with current := dest.getD self.current }, dest) ∧
      Walked q self.current (checked autodrop strongCount h self) h' dest P := by
  have since := claimedSince_checked autodrop strongCount h self
  have well' := well.claimedSince since
  have range' : self.current < (checked autodrop strongCount h self).size := by
    rw [since.size]
    exact range
  obtain ⟨y, link⟩ := well'.next_some range' inner
  obtain ⟨n, chain⟩ := exists_chain (well'.forest.next_leads range' link)
  have bound := well'.rooted.chain_lt_size (well'.closed _ y range' link).1 chain
  obtain ⟨h', dest, run, walked⟩ := walk_rule (P := P)
    (c := ((checked autodrop strongCount h self).node self.current).isClaimed) keep well' range'
    (fun open_ => open_) link chain bound (first y (by rw [← since.next]; exact link))
  refine ⟨h', dest, ?_, walked⟩
  simp [tryNext, link, run]

end Walk

section Push

theorem findLast_spec {h : Heap} {tail n fuel x : Nat} (inner : x ≠ tail)
    (chain : Chain h.next tail n x) (enough : n ≤ fuel) :
    ∃ e, findLast h tail fuel x = some e ∧ Reaches h.next x e ∧ h.next e = some tail := by
  induction fuel generalizing n x with
  | zero =>
    have empty : n = 0 := by omega
    subst empty
    cases chain
    exact absurd rfl inner
  | succ fuel ih =>
    cases chain with
    | zero => exact absurd rfl inner
    | @succ n _ y link rest =>
      by_cases last : y = tail
      · subst last
        exact ⟨x, by simp [findLast, link], ReflTransGen.refl, link⟩
      · obtain ⟨e, run, walk, stop⟩ := ih last rest (by omega)
        refine ⟨e, ?_, walk.head link, stop⟩
        simp [findLast, link, last, run]

def appended (h : Heap) (e : Nat) (m : NextMessage) : Heap :=
  (h.alloc m).1.setNext e (some h.size)

variable {h : Heap} {q : LinkMessageQueue} {m : NextMessage}

theorem next_alloc (h : Heap) (m : NextMessage) :
    (h.alloc m).1.next = Function.update h.next h.size m.next := by
  funext x
  by_cases same : x = h.size
  · subst same
    simp [Heap.alloc, Heap.next]
  · simp [Heap.alloc, Heap.next, same]

theorem unclaimed_alloc (h : Heap) (m : NextMessage) (x : Nat) :
    (h.alloc m).1.Unclaimed x ↔ if x = h.size then m.isClaimed = false else h.Unclaimed x := by
  by_cases same : x = h.size
  · subst same
    simp [Heap.alloc, Heap.Unclaimed]
  · simp [Heap.alloc, Heap.Unclaimed, same]

theorem targets_alloc (h : Heap) (m : NextMessage) (x : Nat) :
    ((h.alloc m).1.node x).targetConsumers =
      if x = h.size then m.targetConsumers else (h.node x).targetConsumers := by
  by_cases same : x = h.size
  · subst same
    simp [Heap.alloc]
  · simp [Heap.alloc, same]

theorem next_appended {e : Nat} (link : m.next = some q.tail) (old : e < h.size) {x v : Nat}
    (step : (appended h e m).next x = some v) :
    (x = e ∧ v = h.size) ∨ (x = h.size ∧ v = q.tail) ∨ h.next x = some v := by
  simp only [appended, next_setNext, next_alloc, link] at step
  by_cases atE : x = e
  · subst atE
    simp at step
    exact Or.inl ⟨rfl, step.symm⟩
  · by_cases new : x = h.size
    · subst new
      simp [atE] at step
      exact Or.inr (Or.inl ⟨rfl, step.symm⟩)
    · simp [atE, new] at step
      exact Or.inr (Or.inr step)

theorem WellLinked.fresh (well : WellLinked h q) {x : Nat} (range : x < h.size) :
    ¬ Reaches h.next x h.size := fun walk =>
  Nat.lt_irrefl _ (well.reaches_range range walk)

theorem WellLinked.last_range (well : WellLinked h q) : q.last < h.size := by
  have newest := well.newest
  omega

theorem WellLinked.last_inner (well : WellLinked h q) : q.last ≠ q.tail := by
  have stays := well.root_stays
  have order := well.tail_lt
  omega

theorem Rooted.alloc {tail : Nat} (rooted : Rooted h tail) (link : m.next = some tail) :
    Rooted (h.alloc m).1 tail := by
  have inner : h.size ≠ tail := Nat.ne_of_gt rooted.tail_range
  have fresh : ∀ x, x < h.size → ¬ Reaches h.next x h.size := fun x range walk =>
    Nat.lt_irrefl _ (rooted.reaches_range range walk)
  have joined := rooted.forest.insert inner fresh
  refine ⟨?_, ?_, Nat.lt_succ_of_lt rooted.tail_range⟩
  · rw [next_alloc, link]
    refine ⟨joined.sink_end, ?_⟩
    intro x range
    apply joined.leads
    rcases Nat.lt_succ_iff_lt_or_eq.mp range with old | new
    · exact Or.inr old
    · exact Or.inl new
  · intro x y range step
    change y < h.size + 1
    rw [next_alloc, link] at step
    by_cases new : x = h.size
    · subst new
      rw [Function.update_self] at step
      exact Option.some.inj step ▸ Nat.lt_succ_of_lt rooted.tail_range
    · rw [Function.update_of_ne new] at step
      have old : x < h.size := Nat.lt_of_le_of_ne (Nat.le_of_lt_succ range) new
      exact Nat.lt_succ_of_lt (rooted.closed x y old step)

theorem WellLinked.appended (well : WellLinked h q) {e : Nat} (link : m.next = some q.tail)
    (walk : Reaches h.next q.last e) (stop : h.next e = some q.tail) :
    WellLinked (appended h e m) { q with last := h.size } := by
  have range : e < h.size := well.reaches_range well.last_range walk
  have inner : e ≠ q.tail := well.forest.ne_sink stop
  have order := well.tail_lt
  have rootRange := well.root_lt
  -- Nothing unclaimed is later than the newest node, hence nothing is later than `e`.
  have exhausted := well.reaches_exhausted well.last_range walk inner (by
    intro x unclaimed later
    have bound := (well.unclaimed_range x unclaimed).2
    have newest := well.newest
    omega)
  have unclaimed_iff : ∀ x, (Lmq.appended h e m).Unclaimed x ↔
      if x = h.size then m.isClaimed = false else h.Unclaimed x := by
    intro x
    simp [Lmq.appended, unclaimed_alloc]
  have old_of_ne : ∀ x, (Lmq.appended h e m).Unclaimed x → x ≠ h.size → h.Unclaimed x := by
    intro x unclaimed new
    simpa [new] using (unclaimed_iff x).mp unclaimed
  have size : (Lmq.appended h e m).size = h.size + 1 := rfl
  refine ⟨well.tail_first, well.root_second, rfl, Nat.le_of_lt rootRange, ?_, ?_, ?_, ?_⟩
  · intro x unclaimed
    rw [size]
    by_cases new : x = h.size
    · subst new
      exact ⟨rootRange, Nat.lt_succ_self _⟩
    · have bounds := well.unclaimed_range x (old_of_ne x unclaimed new)
      exact ⟨bounds.1, by omega⟩
  · rw [size, Lmq.appended, next_setNext]
    refine ((well.rooted.alloc link).forest).append inner ?_ (by omega)
    rw [next_alloc, link]
    exact Function.update_self ..
  · intro x v rangeX go
    rw [size] at rangeX ⊢
    rcases next_appended link range go with ⟨_, rfl⟩ | ⟨_, rfl⟩ | before
    · exact ⟨Nat.lt_succ_self _, Nat.ne_of_gt rootRange⟩
    · exact ⟨by omega, Nat.ne_of_lt order⟩
    · by_cases new : x = h.size
      · subst new
        simp [Lmq.appended, next_alloc, link, Function.update_of_ne (Nat.ne_of_gt range)] at go
        subst go
        exact ⟨by omega, Nat.ne_of_lt order⟩
      · have closed := well.closed x v (by omega) before
        exact ⟨by omega, closed.2⟩
  · intro x v rangeX go innerV u unclaimed apart
    rw [size] at rangeX
    rcases next_appended link range go with ⟨rfl, rfl⟩ | ⟨_, rfl⟩ | before
    · have open_ := old_of_ne u unclaimed apart
      have bound := (well.unclaimed_range u open_).2
      have late := exhausted u open_
      constructor
      · intro later
        exact absurd later late
      · intro later
        omega
    · exact absurd rfl innerV
    · by_cases newX : x = h.size
      · subst newX
        simp [Lmq.appended, next_alloc, link, Function.update_of_ne (Nat.ne_of_gt range)] at go
        exact absurd go.symm innerV
      · have closed := well.closed x v (by omega) before
        by_cases new : u = h.size
        · omega
        · exact well.links x v (by omega) before innerV u (old_of_ne u unclaimed new) apart

/-- push always returns, and hangs the new message behind a node that points at the tail. -/
theorem push_spec (autodrop : Bool) (active : Consumers) (payload : List UInt8)
    (well : WellLinked h q) :
    ∃ e, Reaches h.next q.last e ∧ h.next e = some q.tail ∧
      push autodrop h active q payload =
        some (appended h e (newNode autodrop active q.tail payload),
          { q with last := h.size }) := by
  obtain ⟨n, chain⟩ := exists_chain (well.forest.leads _ well.last_range)
  have bound := well.rooted.chain_lt_size well.last_range chain
  have chain' :
      Chain (h.alloc (newNode autodrop active q.tail payload)).1.next q.tail n q.last := by
    rw [next_alloc]
    exact chain_update chain (well.fresh well.last_range)
  obtain ⟨e, run, walk, stop⟩ := findLast_spec well.last_inner chain'
    (Nat.le_of_lt (Nat.lt_succ_of_lt bound) : n ≤ h.size + 1)
  rw [next_alloc] at walk stop
  have walk' := reaches_of_update walk (well.fresh well.last_range)
  have old : e ≠ h.size := Nat.ne_of_lt (well.reaches_range well.last_range walk')
  rw [Function.update_of_ne old] at stop
  refine ⟨e, walk', stop, ?_⟩
  simp only [push]
  rw [show (h.alloc (newNode autodrop active q.tail payload)).1.size = h.size + 1 from rfl, run]
  rfl

end Push

end Lmq
