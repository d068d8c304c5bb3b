import Mathlib.Data.Fintype.Basic
import Mathlib.Data.List.Nodup
import Mathlib.Data.Set.Function

/- Senders that each send one series of items after another, to everybody. An item does not reach
   everybody at once, but its sender waits for the last before it goes on. -/
namespace Broadcast

variable {ι : Type}

structure State (ι : Type) where
  /-- Whose series it is, in the order in which they were started. -/
  owner : List ι
  /-- The series that somebody is in. -/
  sender : ι → Option Nat
  /-- How many items of a series have been sent. -/
  sent : Nat → Nat
  /-- Who has still to get the last item of a sender. -/
  waiting : ι → Finset ι
  /-- What somebody has got: item `p.2` of series `p.1`. -/
  log : ι → List (Nat × Nat)

def State.empty : State ι := ⟨[], fun _ => none, fun _ => 0, fun _ => ∅, fun _ => []⟩

variable [DecidableEq ι] [Fintype ι]

def State.starts (b : State ι) (i : ι) : State ι :=
  { b with
    owner := b.owner ++ [i]
    sender := Function.update b.sender i (some b.owner.length) }

def State.sends (b : State ι) (i : ι) (a : Nat) : State ι :=
  { b with
    sent := Function.update b.sent a (b.sent a + 1)
    waiting := Function.update b.waiting i Finset.univ }

def State.delivers (b : State ι) (i j : ι) (a : Nat) : State ι :=
  { b with
    waiting := Function.update b.waiting i ((b.waiting i).erase j)
    log := Function.update b.log j (b.log j ++ [(a, b.sent a - 1)]) }

def State.stops (b : State ι) (i : ι) : State ι :=
  { b with sender := Function.update b.sender i none }

inductive Step (b : State ι) : State ι → Prop where
  | starts {i : ι} (idle : b.sender i = none) : Step b (b.starts i)
  | sends {i : ι} {a : Nat} (busy : b.sender i = some a) (through : b.waiting i = ∅) :
      Step b (b.sends i a)
  | delivers {i j : ι} {a : Nat} (busy : b.sender i = some a) (waits : j ∈ b.waiting i) :
      Step b (b.delivers i j a)
  | stops {i : ι} (through : b.waiting i = ∅) : Step b (b.stops i)

def State.Lacks (b : State ι) (j : ι) (a : Nat) : Prop :=
  ∃ i, b.sender i = some a ∧ j ∈ b.waiting i

instance (b : State ι) (j : ι) (a : Nat) : Decidable (b.Lacks j a) :=
  inferInstanceAs (Decidable (∃ _, _))

def State.got (b : State ι) (j : ι) (a : Nat) : Nat := b.sent a - if b.Lacks j a then 1 else 0

/-- Everybody gets each series from its beginning, without a gap and without an item twice, and
    the series of one sender one after another. -/
structure Kept (b : State ι) : Prop where
  owned : ∀ i a, b.sender i = some a → b.owner[a]? = some i
  latest : ∀ i a a', b.sender i = some a → b.owner[a']? = some i → a' ≤ a
  still : ∀ a, b.owner.length ≤ a → b.sent a = 0
  busy : ∀ i j, j ∈ b.waiting i → ∃ a, b.sender i = some a ∧ 0 < b.sent a
  each : ∀ j a, (b.log j).filter (fun p => p.1 = a) = (List.range (b.got j a)).map (Prod.mk a)
  ordered : ∀ j, (b.log j).Pairwise fun p q =>
    b.owner[p.1]? = b.owner[q.1]? → p.1 < q.1 ∨ p.1 = q.1 ∧ p.2 < q.2

variable {b c : State ι}

theorem kept_empty : Kept (State.empty : State ι) := by
  refine ⟨by simp [State.empty], by simp [State.empty], fun _ _ => rfl, by simp [State.empty], ?_,
    fun _ => List.Pairwise.nil⟩
  intro j a
  simp [State.empty, State.got]

section Kept

variable (kept : Kept b)
include kept

theorem Kept.alone {i i' : ι} {a : Nat} (here : b.sender i = some a)
    (there : b.sender i' = some a) : i = i' :=
  Option.some.inj ((kept.owned i a here).symm.trans (kept.owned i' a there))

theorem Kept.mem_log {j : ι} {a k : Nat} : (a, k) ∈ b.log j ↔ k < b.got j a := by
  have both : (a, k) ∈ (b.log j).filter (fun p => p.1 = a) ↔
      (a, k) ∈ (List.range (b.got j a)).map (Prod.mk a) := by rw [kept.each j a]
  simpa using both

theorem Kept.nodup (j : ι) : (b.log j).Nodup := by
  rw [List.nodup_iff_count_le_one]
  rintro ⟨a, k⟩
  have same : (b.log j).count (a, k) = ((b.log j).filter (fun p => p.1 = a)).count (a, k) :=
    (List.count_filter (by simp)).symm
  rw [same, kept.each j a]
  apply List.nodup_iff_count_le_one.mp
  exact List.nodup_range.map fun k k' both => (Prod.mk.inj both).2

theorem Kept.inside {j : ι} {p : Nat × Nat} (member : p ∈ b.log j) : p.1 < b.owner.length := by
  have few := kept.mem_log.mp member
  by_contra late
  have none_ := kept.still p.1 (by omega)
  unfold State.got at few
  omega

theorem Kept.lacks {i j : ι} {a : Nat} (busy : b.sender i = some a) :
    b.Lacks j a ↔ j ∈ b.waiting i := by
  constructor
  · rintro ⟨i', there, member⟩
    rwa [kept.alone busy there]
  · intro member
    exact ⟨i, busy, member⟩

theorem Kept.idle {i : ι} (none_ : b.sender i = none) : b.waiting i = ∅ := by
  rw [Finset.eq_empty_iff_forall_notMem]
  intro j member
  obtain ⟨a, busy, _⟩ := kept.busy i j member
  rw [none_] at busy
  cases busy

theorem Kept.unread (owner : ∀ a, a < b.owner.length → c.owner[a]? = b.owner[a]?)
    (log : c.log = b.log) (got : ∀ j a, c.got j a = b.got j a)
    (owned : ∀ i a, c.sender i = some a → c.owner[a]? = some i)
    (latest : ∀ i a a', c.sender i = some a → c.owner[a']? = some i → a' ≤ a)
    (still : ∀ a, c.owner.length ≤ a → c.sent a = 0)
    (busy : ∀ i j, j ∈ c.waiting i → ∃ a, c.sender i = some a ∧ 0 < c.sent a) : Kept c := by
  refine ⟨owned, latest, still, busy, ?_, ?_⟩
  · intro j a
    rw [log, got]
    exact kept.each j a
  · intro j
    rw [log]
    apply (kept.ordered j).imp_of_mem
    intro p q first second order
    rwa [owner p.1 (kept.inside first), owner q.1 (kept.inside second)]

theorem Kept.starts {i : ι} (idle : b.sender i = none) : Kept (b.starts i) := by
  have through := kept.idle idle
  have before : ∀ {i' a}, b.sender i' = some a → a < b.owner.length :=
    fun here => (List.getElem?_eq_some_iff.mp (kept.owned _ _ here)).1
  apply kept.unread
  · intro a inside
    exact List.getElem?_append_left inside
  · rfl
  · intro j a
    have same : (b.starts i).Lacks j a ↔ b.Lacks j a := by
      simp only [State.Lacks, State.starts]
      apply exists_congr
      intro i'
      by_cases own : i' = i
      · subst own
        simp [through]
      · rw [Function.update_of_ne own]
    simp only [State.got, same]
    rfl
  · intro i' a busy
    simp only [State.starts] at busy ⊢
    by_cases own : i' = i
    · subst own
      rw [Function.update_self, Option.some.injEq] at busy
      subst busy
      simp
    · rw [Function.update_of_ne own] at busy
      rw [List.getElem?_append_left (before busy)]
      exact kept.owned i' a busy
  · intro i' a a' busy owner
    simp only [State.starts] at busy owner
    by_cases own : i' = i
    · subst own
      rw [Function.update_self, Option.some.injEq] at busy
      have inside := (List.getElem?_eq_some_iff.mp owner).1
      rw [List.length_append, List.length_singleton] at inside
      omega
    · rw [Function.update_of_ne own] at busy
      rw [List.getElem?_append] at owner
      split at owner
      · exact kept.latest i' a a' busy owner
      · rename_i late
        obtain ⟨_, there⟩ := List.getElem?_eq_some_iff.mp owner
        rw [List.getElem_singleton] at there
        exact absurd there.symm own
  · intro a late
    simp only [State.starts, List.length_append] at late
    exact kept.still a (by omega)
  · intro i' j member
    obtain ⟨a, busy, positive⟩ := kept.busy i' j member
    refine ⟨a, ?_, positive⟩
    simp only [State.starts]
    rw [Function.update_of_ne ?_]
    · exact busy
    · rintro rfl
      rw [idle] at busy
      cases busy

theorem Kept.sends {i : ι} {a : Nat} (busy : b.sender i = some a) (through : b.waiting i = ∅) :
    Kept (b.sends i a) := by
  have inside := (List.getElem?_eq_some_iff.mp (kept.owned i a busy)).1
  apply kept.unread
  · intro _ _
    rfl
  · rfl
  · intro j a'
    by_cases same : a' = a
    · subst same
      have has : ¬ b.Lacks j a' := by
        rw [kept.lacks busy, through]
        simp
      have lacks : (b.sends i a').Lacks j a' := ⟨i, busy, by simp [State.sends]⟩
      rw [State.got, State.got, if_pos lacks, if_neg has]
      simp [State.sends]
    · have lacks : (b.sends i a).Lacks j a' ↔ b.Lacks j a' := by
        simp only [State.Lacks, State.sends]
        apply exists_congr
        intro i'
        by_cases own : i' = i
        · subst own
          simp [busy, Ne.symm same]
        · rw [Function.update_of_ne own]
      simp only [State.got, lacks]
      simp only [State.sends, Function.update_of_ne same]
  · exact kept.owned
  · exact kept.latest
  · intro a' late
    simp only [State.sends] at late ⊢
    rw [Function.update_of_ne (by omega)]
    exact kept.still a' late
  · intro i' j member
    simp only [State.sends] at member ⊢
    by_cases own : i' = i
    · subst own
      exact ⟨a, busy, by simp⟩
    · rw [Function.update_of_ne own] at member
      obtain ⟨a', busy', positive⟩ := kept.busy i' j member
      refine ⟨a', busy', ?_⟩
      by_cases same : a' = a
      · subst same
        simp
      · rwa [Function.update_of_ne same]

theorem Kept.delivers {i j : ι} {a : Nat} (busy : b.sender i = some a)
    (waits : j ∈ b.waiting i) :
    Kept (b.delivers i j a) := by
  obtain ⟨a', busy', positive⟩ := kept.busy i j waits
  obtain rfl := Option.some.inj (busy.symm.trans busy')
  have lacked : b.Lacks j a := (kept.lacks busy).mpr waits
  have before : b.got j a = b.sent a - 1 := by rw [State.got, if_pos lacked]
  refine ⟨kept.owned, kept.latest, kept.still, ?_, ?_, ?_⟩
  · intro i' j' member
    simp only [State.delivers] at member
    apply kept.busy i' j'
    by_cases own : i' = i
    · subst own
      rw [Function.update_self] at member
      exact Finset.mem_of_mem_erase member
    · rwa [Function.update_of_ne own] at member
  · intro j' a'
    have lacks : (b.delivers i j a).Lacks j' a' ↔ b.Lacks j' a' ∧ ¬ (j' = j ∧ a' = a) := by
      simp only [State.Lacks, State.delivers]
      constructor
      · rintro ⟨i', there, member⟩
        by_cases own : i' = i
        · subst own
          rw [Function.update_self, Finset.mem_erase] at member
          exact ⟨⟨i', there, member.2⟩, fun both => member.1 both.1⟩
        · rw [Function.update_of_ne own] at member
          refine ⟨⟨i', there, member⟩, ?_⟩
          rintro ⟨rfl, rfl⟩
          exact own (kept.alone there busy)
      · rintro ⟨⟨i', there, member⟩, apart⟩
        refine ⟨i', there, ?_⟩
        by_cases own : i' = i
        · subst own
          rw [Function.update_self, Finset.mem_erase]
          refine ⟨?_, member⟩
          rintro rfl
          exact apart ⟨rfl, Option.some.inj (there.symm.trans busy)⟩
        · rwa [Function.update_of_ne own]
    have old := kept.each j' a'
    by_cases here : j' = j ∧ a' = a
    · obtain ⟨rfl, rfl⟩ := here
      have now : (b.delivers i j' a').got j' a' = b.sent a' - 1 + 1 := by
        rw [State.got, if_neg (by simp [lacks])]
        simp only [State.delivers]
        omega
      rw [now, List.range_succ, List.map_append]
      simp only [State.delivers, Function.update_self, List.filter_append]
      rw [old, before]
      simp
    · have now : (b.delivers i j a).got j' a' = b.got j' a' := by
        simp only [State.got, lacks, here, not_false_eq_true, and_true]
        rfl
      rw [now, ← old]
      simp only [State.delivers]
      by_cases same : j' = j
      · subst same
        have other : a ≠ a' := fun same => here ⟨rfl, same.symm⟩
        rw [Function.update_self, List.filter_append]
        simp [other]
      · rw [Function.update_of_ne same]
  · intro j'
    simp only [State.delivers]
    by_cases same : j' = j
    · subst same
      rw [Function.update_self, List.pairwise_append]
      refine ⟨kept.ordered j', List.pairwise_singleton _ _, ?_⟩
      intro p member q last owner
      obtain rfl := List.mem_singleton.mp last
      have own := kept.owned i a busy
      have early := kept.latest i a p.1 busy (owner.trans own)
      rcases Nat.lt_or_eq_of_le early with earlier | now
      · exact Or.inl earlier
      · refine Or.inr ⟨now, ?_⟩
        have count := kept.mem_log.mp member
        rwa [now, before] at count
    · rw [Function.update_of_ne same]
      exact kept.ordered j'

theorem Kept.stops {i : ι} (through : b.waiting i = ∅) : Kept (b.stops i) := by
  have before : ∀ {i' a}, Function.update b.sender i none i' = some a → b.sender i' = some a := by
    intro i' a busy
    by_cases own : i' = i
    · subst own
      rw [Function.update_self] at busy
      cases busy
    · rwa [Function.update_of_ne own] at busy
  have after : ∀ {i' j}, j ∈ b.waiting i' → Function.update b.sender i none i' = b.sender i' := by
    intro i' j member
    apply Function.update_of_ne
    rintro rfl
    simp [through] at member
  apply kept.unread
  · intro _ _
    rfl
  · rfl
  · intro j a
    have lacks : (b.stops i).Lacks j a ↔ b.Lacks j a := by
      constructor
      · rintro ⟨i', busy, member⟩
        exact ⟨i', before busy, member⟩
      · rintro ⟨i', busy, member⟩
        exact ⟨i', (after member).trans busy, member⟩
    simp only [State.got, lacks]
    rfl
  · intro i' a busy
    exact kept.owned i' a (before busy)
  · intro i' a a' busy owner
    exact kept.latest i' a a' (before busy) owner
  · exact kept.still
  · intro i' j member
    obtain ⟨a, busy, positive⟩ := kept.busy i' j member
    exact ⟨a, (after member).trans busy, positive⟩

theorem Kept.step (move : Step b c) : Kept c := by
  cases move with
  | starts idle => exact kept.starts idle
  | sends busy through => exact kept.sends busy through
  | delivers busy waits => exact kept.delivers busy waits
  | stops through => exact kept.stops through

end Kept

end Broadcast
