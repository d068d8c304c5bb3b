import Mathlib.Computability.StateTransition
import Mathlib.Data.Finset.Card
import Mathlib.Data.Set.Basic
import Mathlib.Logic.Function.Basic

/- Forests of nodes with one outgoing pointer each, all rooted at one sink.
   The pointers of the nodes are a partial function, and following them is
   reachability of that function. -/
namespace PointerForest

open StateTransition Relation

variable {α : Type} [DecidableEq α] {next : α → Option α} {sink : α}

/-- The sink points nowhere, and every node of the domain leads to it. -/
structure Forest (next : α → Option α) (sink : α) (nodes : Set α) : Prop where
  sink_end : next sink = none
  leads : ∀ x ∈ nodes, Reaches next x sink

omit [DecidableEq α] in
theorem reaches_next {x y : α} (link : next x = some y) : Reaches next x y :=
  ReflTransGen.single link

omit [DecidableEq α] in
theorem reaches_tail_of_next (stop : next sink = none) {x y : α} (link : next x = some y)
    (leads : Reaches next x sink) : Reaches next y sink := by
  rcases ReflTransGen.cases_head leads with same | ⟨z, first, rest⟩
  · subst same
    simp [stop] at link
  · have same : y = z := Option.mem_unique link first
    exact same ▸ rest

omit [DecidableEq α] in
theorem reaches_sink_iff (stop : next sink = none) {x : α} :
    Reaches next sink x ↔ x = sink := by
  constructor
  · intro h
    rcases ReflTransGen.cases_head h with same | ⟨z, first, _⟩
    · exact same.symm
    · simp [stop] at first
  · rintro rfl
    exact ReflTransGen.refl

omit [DecidableEq α] in
theorem not_reaches_back (stop : next sink = none) {x y : α} (leads : Reaches next y sink)
    (link : next x = some y) : ¬ Reaches next y x := by
  induction leads using ReflTransGen.head_induction_on generalizing x with
  | refl =>
    intro back
    rw [reaches_sink_iff stop] at back
    subst back
    simp [stop] at link
  | @head a b first rest ih =>
    intro back
    have loop : Reaches next b a := by
      rcases ReflTransGen.cases_head back with same | ⟨c, firstC, restC⟩
      · subst same
        have same : b = a := Option.mem_unique first link
        exact same ▸ ReflTransGen.refl
      · have same : b = c := Option.mem_unique first firstC
        subst same
        exact restC.tail link
    exact ih first loop

omit [DecidableEq α] in
theorem next_ne_self (stop : next sink = none) {x y : α} (leads : Reaches next x sink)
    (link : next x = some y) : y ≠ x := by
  rintro rfl
  exact not_reaches_back stop leads link ReflTransGen.refl

theorem reaches_update {a b p : α} {v : Option α} (walk : Reaches next a b)
    (avoids : ¬ Reaches next a p) : Reaches (Function.update next p v) a b := by
  induction walk using ReflTransGen.head_induction_on with
  | refl => exact ReflTransGen.refl
  | @head c d first rest ih =>
    have apart : c ≠ p := fun same => avoids (same ▸ ReflTransGen.refl)
    have later : ¬ Reaches next d p := fun h => avoids (h.head first)
    have kept : d ∈ Function.update next p v c := by
      simpa [Function.update_of_ne apart] using first
    exact (ih later).head kept

theorem reaches_of_update {a b p : α} {v : Option α}
    (walk : Reaches (Function.update next p v) a b) (avoids : ¬ Reaches next a p) :
    Reaches next a b := by
  induction walk using ReflTransGen.head_induction_on with
  | refl => exact ReflTransGen.refl
  | @head c d first rest ih =>
    have apart : c ≠ p := fun same => avoids (same ▸ ReflTransGen.refl)
    have kept : d ∈ next c := by
      simpa [Function.update_of_ne apart] using first
    exact (ih fun h => avoids (h.head kept)).head kept

theorem reaches_updated {a p : α} {v : Option α}
    (walk : Reaches (Function.update next p v) a p) : Reaches next a p := by
  induction walk using ReflTransGen.head_induction_on with
  | refl => exact ReflTransGen.refl
  | @head c d first rest ih =>
    by_cases same : c = p
    · exact same ▸ ReflTransGen.refl
    · have kept : d ∈ next c := by
        simpa [Function.update_of_ne same] using first
      exact ih.head kept

/-- The one way a pointer may move: to a node that leads to the sink without `p`. -/
theorem Forest.redirect {nodes : Set α} (forest : Forest next sink nodes) {p w : α}
    (inner : p ≠ sink) (leads : Reaches next w sink) (avoids : ¬ Reaches next w p) :
    Forest (Function.update next p (some w)) sink nodes := by
  have viaW : Reaches (Function.update next p (some w)) w sink := reaches_update leads avoids
  have step : w ∈ Function.update next p (some w) p := by simp
  constructor
  · rw [Function.update_of_ne inner.symm]
    exact forest.sink_end
  · intro x hx
    have walk := forest.leads x hx
    clear hx
    induction walk using ReflTransGen.head_induction_on with
    | refl => exact ReflTransGen.refl
    | @head a b first rest ih =>
      by_cases same : a = p
      · subst same
        exact viaW.head step
      · have kept : b ∈ Function.update next p (some w) a := by
          simpa [Function.update_of_ne same] using first
        exact ih.head kept

omit [DecidableEq α] in
theorem Forest.next_leads {nodes : Set α} (forest : Forest next sink nodes) {x y : α}
    (hx : x ∈ nodes) (link : next x = some y) : Reaches next y sink :=
  reaches_tail_of_next forest.sink_end link (forest.leads x hx)

omit [DecidableEq α] in
theorem Forest.ne_sink {nodes : Set α} (forest : Forest next sink nodes) {x y : α}
    (link : next x = some y) : x ≠ sink := by
  rintro rfl
  simp [forest.sink_end] at link

theorem Forest.shortcut {nodes : Set α} (forest : Forest next sink nodes) {p y w : α}
    (hp : p ∈ nodes) (first : next p = some y) (second : next y = some w) :
    Forest (Function.update next p (some w)) sink nodes := by
  have leadsY := forest.next_leads hp first
  have leadsW := reaches_tail_of_next forest.sink_end second leadsY
  refine forest.redirect (forest.ne_sink first) leadsW ?_
  intro back
  exact not_reaches_back forest.sink_end leadsY first (back.head second)

theorem Forest.rotate {nodes : Set α} (forest : Forest next sink nodes) {p y w : α}
    (hp : p ∈ nodes) (first : next p = some y) (second : next y = some w) :
    Forest (Function.update (Function.update next p (some w)) y (some p)) sink nodes := by
  have short := forest.shortcut hp first second
  have leadsY := forest.next_leads hp first
  have leadsW := reaches_tail_of_next forest.sink_end second leadsY
  have avoidsP : ¬ Reaches next w p := fun back =>
    not_reaches_back forest.sink_end leadsY first (back.head second)
  have avoidsY : ¬ Reaches next w y := not_reaches_back forest.sink_end leadsW second
  have apart : y ≠ p := next_ne_self forest.sink_end (forest.leads p hp) first
  refine short.redirect (forest.ne_sink second) (short.leads p hp) ?_
  intro back
  rcases ReflTransGen.cases_head back with same | ⟨z, firstZ, restZ⟩
  · exact apart same.symm
  · have same : w = z := by simpa using firstZ
    subst same
    -- From `w` on, the new pointers are the old ones: its walk never meets `p`.
    have old : Reaches (Function.update (Function.update next p (some w)) p (next p)) w y := by
      apply reaches_update restZ
      intro backP
      exact not_reaches_back short.sink_end (short.leads p hp |> reaches_tail_of_next
        short.sink_end (by simp)) (by simp : Function.update next p (some w) p = some w) backP
    simp only [Function.update_idem, Function.update_eq_self] at old
    exact avoidsY old

theorem Forest.insert {nodes : Set α} (forest : Forest next sink nodes) {n : α} (inner : n ≠ sink)
    (fresh : ∀ x ∈ nodes, ¬ Reaches next x n) :
    Forest (Function.update next n (some sink)) sink (insert n nodes) := by
  constructor
  · rw [Function.update_of_ne inner.symm]
    exact forest.sink_end
  · intro x hx
    rcases hx with rfl | old
    · exact reaches_next (by simp)
    · exact reaches_update (forest.leads x old) (fresh x old)

theorem Forest.append {nodes : Set α} (forest : Forest next sink nodes) {e n : α}
    (inner : e ≠ sink) (fresh : next n = some sink) (apart : n ≠ e) :
    Forest (Function.update next e (some n)) sink nodes := by
  refine forest.redirect inner (reaches_next fresh) ?_
  intro back
  rcases ReflTransGen.cases_head back with same | ⟨z, first, rest⟩
  · exact apart same
  · have same : sink = z := Option.mem_unique fresh first
    subst same
    exact inner ((reaches_sink_iff forest.sink_end).mp rest)

omit [DecidableEq α] in
/-- No set of nodes goes round in circles. -/
theorem Forest.no_closed_set {nodes : Set α} (forest : Forest next sink nodes) (T : Set α)
    (inside : T ⊆ nodes) (closed : ∀ x ∈ T, ∃ y ∈ T, next x = some y) : T = ∅ := by
  rw [Set.eq_empty_iff_forall_notMem]
  intro x member
  have walk := forest.leads x (inside member)
  induction walk using ReflTransGen.head_induction_on with
  | refl =>
    obtain ⟨y, _, link⟩ := closed sink member
    rw [forest.sink_end] at link
    cases link
  | @head a b first rest ih =>
    obtain ⟨y, later, link⟩ := closed a member
    have same : b = y := Option.mem_unique first link
    exact ih (same ▸ later)

inductive Chain (next : α → Option α) (sink : α) : Nat → α → Prop where
  | zero : Chain next sink 0 sink
  | succ {n : Nat} {x y : α} (link : next x = some y) (rest : Chain next sink n y) :
      Chain next sink (n + 1) x

omit [DecidableEq α] in
theorem chain_reaches {n : Nat} {x : α} (chain : Chain next sink n x) : Reaches next x sink := by
  induction chain with
  | zero => exact ReflTransGen.refl
  | succ link rest ih => exact ih.head link

omit [DecidableEq α] in
theorem exists_chain {x : α} (leads : Reaches next x sink) : ∃ n, Chain next sink n x := by
  induction leads using ReflTransGen.head_induction_on with
  | refl => exact ⟨0, .zero⟩
  | head first rest ih =>
    obtain ⟨n, chain⟩ := ih
    exact ⟨n + 1, .succ first chain⟩

theorem chain_update {n : Nat} {x p : α} {v : Option α} (chain : Chain next sink n x)
    (avoids : ¬ Reaches next x p) : Chain (Function.update next p v) sink n x := by
  induction chain with
  | zero => exact .zero
  | @succ n x y link rest ih =>
    have apart : x ≠ p := fun same => avoids (same ▸ ReflTransGen.refl)
    refine .succ ?_ (ih fun h => avoids (h.head link))
    rw [Function.update_of_ne apart]
    exact link

theorem chain_lt_card (stop : next sink = none) {n : Nat} {x : α} (chain : Chain next sink n x)
    (nodes : Finset α) (visited : ∀ y, Reaches next x y → y ∈ nodes) : n < nodes.card := by
  induction chain generalizing nodes with
  | zero => exact Finset.card_pos.mpr ⟨sink, visited sink ReflTransGen.refl⟩
  | @succ n x y link rest ih =>
    have here : x ∈ nodes := visited x ReflTransGen.refl
    have later : n < (nodes.erase x).card := by
      apply ih
      intro z hz
      have apart : z ≠ x := by
        intro same
        subst same
        exact not_reaches_back stop (chain_reaches rest) link hz
      exact Finset.mem_erase.mpr ⟨apart, visited z (hz.head link)⟩
    rw [Finset.card_erase_of_mem here] at later
    omega

end PointerForest
