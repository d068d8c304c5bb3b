import Mathlib.Data.List.Basic
import Mathlib.Data.List.ReduceOption
import Mathlib.Logic.Function.Basic
import SkyCurrent.Base.Simulation

/- An append-only log that many readers go over, each at its own pace. An entry may be taken
   out by anybody who has seen it; readers that come to it later pass it over. -/
namespace SharedLog

open Runs

variable {α : Type}

section FirstFrom

def firstFrom (entries : List (Option α)) (k : Nat) : Option Nat :=
  ((entries.drop k).findIdx? Option.isSome).map (k + ·)

def Holds (entries : List (Option α)) (i : Nat) : Prop := ∃ a, entries[i]? = some (some a)

theorem firstFrom_some {entries : List (Option α)} {k i : Nat} :
    firstFrom entries k = some i ↔
      k ≤ i ∧ Holds entries i ∧ ∀ j, k ≤ j → j < i → ¬ Holds entries j := by
  simp only [firstFrom, Option.map_eq_some_iff, List.findIdx?_eq_some_iff_getElem]
  constructor
  · rintro ⟨n, ⟨inside, found, earlier⟩, rfl⟩
    rw [List.length_drop] at inside
    refine ⟨Nat.le_add_right k n, ?_, ?_⟩
    · rw [List.getElem_drop] at found
      obtain ⟨a, here⟩ := Option.isSome_iff_exists.mp found
      exact ⟨a, by rw [List.getElem?_eq_getElem (by omega), here]⟩
    · rintro j from_ before ⟨a, here⟩
      have taken := earlier (j - k) (by omega)
      rw [List.getElem_drop] at taken
      obtain ⟨inside', value⟩ := List.getElem?_eq_some_iff.mp here
      simp [show k + (j - k) = j by omega, value] at taken
  · rintro ⟨from_, ⟨a, here⟩, earlier⟩
    obtain ⟨inside, value⟩ := List.getElem?_eq_some_iff.mp here
    refine ⟨i - k, ⟨by simp; omega, ?_, ?_⟩, by omega⟩
    · simp [show k + (i - k) = i by omega, value]
    · intro j before
      rw [List.getElem_drop]
      intro found
      obtain ⟨b, held⟩ := Option.isSome_iff_exists.mp found
      apply earlier (k + j) (Nat.le_add_right k j) (by omega)
      exact ⟨b, by rw [List.getElem?_eq_getElem (by omega), held]⟩

theorem firstFrom_none {entries : List (Option α)} {k : Nat} :
    firstFrom entries k = none ↔ ∀ j, k ≤ j → ¬ Holds entries j := by
  simp only [firstFrom, Option.map_eq_none_iff, List.findIdx?_eq_none_iff]
  constructor
  · rintro none_ j from_ ⟨a, here⟩
    have member : some a ∈ entries.drop k := by
      rw [List.mem_iff_getElem?]
      exact ⟨j - k, by rw [List.getElem?_drop, show k + (j - k) = j by omega, here]⟩
    simpa using none_ _ member
  · intro none_ x member
    obtain ⟨n, here⟩ := List.mem_iff_getElem?.mp member
    cases x with
    | none => rfl
    | some a =>
      rw [List.getElem?_drop] at here
      exact absurd ⟨a, here⟩ (none_ (k + n) (Nat.le_add_right k n))

end FirstFrom

structure Log (α : Type) where
  entries : List (Option α)
  readers : Nat
  cursor : Nat → Option Nat

def Log.empty : Log α := ⟨[], 0, fun _ => none⟩

inductive Event (α : Type) where
  | appends (a : α)
  | enters
  | reads (r : Nat) (result : Option Nat)
  | takes (i : Nat) (result : Option α)
  | leaves (r : Nat)
  deriving DecidableEq, Repr

def Log.reads (log : Log α) (r k : Nat) : Log α :=
  { log with
    cursor := Function.update log.cursor r (some (((firstFrom log.entries k).map (· + 1)).getD k)) }

@[simp] theorem reads_entries (log : Log α) (r k : Nat) :
    (log.reads r k).entries = log.entries := rfl

inductive Step (log : Log α) : Event α → Log α → Prop where
  | appends (a : α) : Step log (.appends a) { log with entries := log.entries ++ [some a] }
  | enters : Step log .enters
      { log with
        readers := log.readers + 1
        cursor := Function.update log.cursor log.readers (some 0) }
  | reads {r k : Nat} (here : log.cursor r = some k) :
      Step log (.reads r (firstFrom log.entries k)) (log.reads r k)
  | takes {i : Nat} {result : Option α} (here : log.entries[i]? = some result) :
      Step log (.takes i result) { log with entries := log.entries.set i none }
  | leaves {r : Nat} (here : log.cursor r ≠ none) :
      Step log (.leaves r) { log with cursor := Function.update log.cursor r none }

section Holds

theorem holds_append {entries : List (Option α)} {a : α} {i : Nat} :
    Holds (entries ++ [some a]) i ↔ Holds entries i ∨ i = entries.length := by
  constructor
  · rintro ⟨b, here⟩
    rw [List.getElem?_append] at here
    split at here
    · exact Or.inl ⟨b, here⟩
    · obtain ⟨inside, _⟩ := List.getElem?_eq_some_iff.mp here
      rw [List.length_singleton] at inside
      exact Or.inr (by omega)
  · rintro (⟨b, here⟩ | rfl)
    · obtain ⟨inside, _⟩ := List.getElem?_eq_some_iff.mp here
      exact ⟨b, by rw [List.getElem?_append_left inside, here]⟩
    · exact ⟨a, by simp⟩

theorem holds_set {entries : List (Option α)} {i j : Nat} :
    Holds (entries.set i none) j ↔ j ≠ i ∧ Holds entries j := by
  unfold Holds
  rw [List.getElem?_set]
  by_cases same : i = j
  · subst same
    by_cases inside : i < entries.length <;> simp [inside]
  · rw [if_neg same]
    exact ⟨fun holds => ⟨Ne.symm same, holds⟩, fun holds => holds.2⟩

theorem holds_inside {entries : List (Option α)} {i : Nat} (holds : Holds entries i) :
    i < entries.length := by
  obtain ⟨a, here⟩ := holds
  exact (List.getElem?_eq_some_iff.mp here).1

end Holds

section History

def readBy (r : Nat) (events : List (Event α)) : List Nat :=
  events.filterMap fun
    | .reads r' result => if r' = r then result else none
    | _ => none

def takenOut (i : Nat) (events : List (Event α)) : List α :=
  events.filterMap fun
    | .takes i' result => if i' = i then result else none
    | _ => none

def taken (events : List (Event α)) : List α :=
  events.filterMap fun
    | .takes _ result => result
    | _ => none

def appended (events : List (Event α)) : List α :=
  events.filterMap fun
    | .appends a => some a
    | _ => none

theorem readBy_snoc (r : Nat) (events : List (Event α)) (e : Event α) :
    readBy r (events ++ [e]) = readBy r events ++ readBy r [e] :=
  List.filterMap_append

theorem takenOut_snoc (i : Nat) (events : List (Event α)) (e : Event α) :
    takenOut i (events ++ [e]) = takenOut i events ++ takenOut i [e] :=
  List.filterMap_append

theorem appended_snoc (events : List (Event α)) (e : Event α) :
    appended (events ++ [e]) = appended events ++ appended [e] :=
  List.filterMap_append

end History

section Cells

inductive Cells (entries : List (Option α)) : Event α → List (Option α) → Prop where
  | appends (a : α) : Cells entries (.appends a) (entries ++ [some a])
  | takes {i : Nat} {result : Option α} (here : entries[i]? = some result) :
      Cells entries (.takes i result) (entries.set i none)
  | other {e : Event α} (append : appended [e] = []) (take : ∀ i, takenOut i [e] = []) :
      Cells entries e entries

structure Accounted (events : List (Event α)) (entries : List (Option α)) : Prop where
  length : entries.length = (appended events).length
  held : ∀ i, Holds entries i → entries[i]? = (appended events)[i]?.map some ∧
    takenOut i events = []
  taken : ∀ i, ¬ Holds entries i → takenOut i events = ((appended events)[i]?).toList

variable {events : List (Event α)} {entries entries' : List (Option α)}

theorem accounted_nil : Accounted ([] : List (Event α)) [] := by
  refine ⟨rfl, ?_, fun i _ => rfl⟩
  rintro i ⟨a, here⟩
  simp at here

theorem Accounted.appends (acc : Accounted events entries) (a : α) :
    Accounted (events ++ [.appends a]) (entries ++ [some a]) := by
  have takes : ∀ i, takenOut i (events ++ [.appends a]) = takenOut i events := by
    intro i
    rw [takenOut_snoc]
    exact List.append_nil _
  have more : appended (events ++ [.appends a]) = appended events ++ [a] := by
    rw [appended_snoc]
    rfl
  refine ⟨?_, ?_, ?_⟩
  · rw [more]
    simp [acc.length]
  · intro i holds
    rw [takes, more]
    rcases holds_append.mp holds with before | rfl
    · have inside := holds_inside before
      rw [List.getElem?_append_left inside, List.getElem?_append_left (acc.length ▸ inside)]
      exact acc.held i before
    · have none_ : ¬ Holds entries entries.length := by
        intro holds'
        exact Nat.lt_irrefl _ (holds_inside holds')
      refine ⟨?_, ?_⟩
      · simp [acc.length]
      · rw [acc.taken _ none_, List.getElem?_eq_none (Nat.le_of_eq acc.length.symm)]
        rfl
  · intro i gone
    rw [takes, more]
    have before : ¬ Holds entries i := fun holds => gone (holds_append.mpr (Or.inl holds))
    have apart : i ≠ (appended events).length := by
      intro same
      exact gone (holds_append.mpr (Or.inr (same.trans acc.length.symm)))
    rw [acc.taken i before, List.getElem?_append]
    split
    · rfl
    · rw [List.getElem?_eq_none (by omega), List.getElem?_eq_none (by simp; omega)]

theorem Accounted.takes (acc : Accounted events entries) {i : Nat} {result : Option α}
    (here : entries[i]? = some result) :
    Accounted (events ++ [.takes i result]) (entries.set i none) := by
  have same : appended (events ++ [.takes i result]) = appended events := by
    rw [appended_snoc]
    exact List.append_nil _
  have others : ∀ j, j ≠ i → takenOut j (events ++ [.takes i result]) = takenOut j events := by
    intro j apart
    simp [takenOut, Ne.symm apart]
  have own : takenOut i (events ++ [.takes i result]) = takenOut i events ++ result.toList := by
    cases result <;> simp [takenOut]
  refine ⟨?_, ?_, ?_⟩
  · rw [same]
    simpa using acc.length
  · intro j holds
    obtain ⟨apart, before⟩ := holds_set.mp holds
    rw [others j apart, same, List.getElem?_set_ne (Ne.symm apart)]
    exact acc.held j before
  · intro j gone
    rw [same]
    by_cases apart : j = i
    · subst apart
      rw [own]
      by_cases before : Holds entries j
      · obtain ⟨value, none_⟩ := acc.held j before
        rw [here] at value
        rw [none_, List.nil_append]
        cases pushed : (appended events)[j]? with
        | none => simp [pushed] at value
        | some a =>
          rw [pushed] at value
          obtain rfl : result = some a := by simpa using value
          rfl
      · rw [acc.taken j before]
        cases result with
        | none => exact List.append_nil _
        | some a => exact absurd ⟨a, here⟩ before
    · rw [others j apart]
      exact acc.taken j (fun holds => gone (holds_set.mpr ⟨apart, holds⟩))

theorem Accounted.step (acc : Accounted events entries) {e : Event α}
    (move : Cells entries e entries') : Accounted (events ++ [e]) entries' := by
  cases move with
  | appends a => exact acc.appends a
  | takes here => exact acc.takes here
  | other append take =>
    have takes : ∀ i, takenOut i (events ++ [e]) = takenOut i events := by
      intro i
      rw [takenOut_snoc, take, List.append_nil]
    have same : appended (events ++ [e]) = appended events := by
      rw [appended_snoc, append, List.append_nil]
    refine ⟨?_, ?_, ?_⟩
    · rw [same]
      exact acc.length
    · intro i holds
      rw [takes, same]
      exact acc.held i holds
    · intro i gone
      rw [takes, same]
      exact acc.taken i gone

theorem accounted_of_path (path : Path Cells [] events entries) : Accounted events entries := by
  have acc := path.invariant (fun events entries => Accounted events entries)
    (fun _ _ _ _ acc move => acc.step move) accounted_nil
  simpa using acc

end Cells

section Readers

variable {events : List (Event α)} {log log' : Log α} {entries' : List (Option α)}

theorem Step.cells {e : Event α} (move : Step log e log') : Cells log.entries e log'.entries := by
  cases move with
  | appends a => exact .appends a
  | takes here => exact .takes here
  | enters => exact .other rfl fun i => rfl
  | reads here => exact .other rfl fun i => rfl
  | leaves here => exact .other rfl fun i => rfl

structure Kept (events : List (Event α)) (log : Log α) : Prop where
  accounted : Accounted events log.entries
  fresh : ∀ r, log.readers ≤ r → log.cursor r = none ∧ readBy r events = []
  increasing : ∀ r, (readBy r events).Pairwise (· < ·)
  behind : ∀ r k, log.cursor r = some k → k ≤ log.entries.length ∧
    ∀ i ∈ readBy r events, i < k
  /-- A reader has been given every entry behind its cursor, or it had been taken. -/
  complete : ∀ r k i, log.cursor r = some k → i < k → i ∈ readBy r events ∨ ¬ Holds log.entries i

theorem kept_empty : Kept ([] : List (Event α)) .empty := by
  refine ⟨accounted_nil, fun r _ => ⟨rfl, rfl⟩, fun r => List.Pairwise.nil, ?_, ?_⟩
  · intro r k here
    cases here
  · intro r k i here
    cases here

theorem Kept.idle (kept : Kept events log) {e : Event α} (move : Cells log.entries e entries')
    (quiet : ∀ r, readBy r [e] = []) {readers : Nat} {cursor : Nat → Option Nat}
    (more : log.readers ≤ readers) (length : log.entries.length ≤ entries'.length)
    (gone : ∀ i, i < log.entries.length → Holds entries' i → Holds log.entries i)
    (from_ : ∀ r k, cursor r = some k →
      r < readers ∧ (log.cursor r = some k ∨ k = 0 ∧ log.readers ≤ r)) :
    Kept (events ++ [e]) ⟨entries', readers, cursor⟩ := by
  have reads : ∀ r, readBy r (events ++ [e]) = readBy r events := by
    intro r
    rw [readBy_snoc, quiet, List.append_nil]
  refine ⟨kept.accounted.step move, ?_, ?_, ?_, ?_⟩
  · intro r late
    rw [reads]
    refine ⟨?_, (kept.fresh r (Nat.le_trans more late)).2⟩
    cases here : cursor r with
    | none => exact here
    | some k => exact absurd (from_ r k here).1 (Nat.not_lt.mpr late)
  · intro r
    rw [reads]
    exact kept.increasing r
  · intro r k here
    rw [reads]
    rcases (from_ r k here).2 with before | ⟨rfl, new⟩
    · have bounds := kept.behind r k before
      exact ⟨Nat.le_trans bounds.1 length, bounds.2⟩
    · rw [(kept.fresh r new).2]
      exact ⟨Nat.zero_le _, fun i member => by cases member⟩
  · intro r k i here below
    rw [reads]
    rcases (from_ r k here).2 with before | ⟨rfl, _⟩
    · rcases kept.complete r k i before below with given | taken
      · exact Or.inl given
      · have bound := (kept.behind r k before).1
        exact Or.inr (fun holds => taken (gone i (by omega) holds))
    · cases below

theorem Kept.known (kept : Kept events log) {r k : Nat} (here : log.cursor r = some k) :
    r < log.readers := by
  by_contra late
  have none_ := (kept.fresh r (Nat.le_of_not_lt late)).1
  simp [none_] at here

theorem Kept.reads (kept : Kept events log) {r k : Nat} (here : log.cursor r = some k) :
    Kept (events ++ [.reads r (firstFrom log.entries k)]) (log.reads r k) := by
  have others : ∀ r', r' ≠ r →
      readBy r' (events ++ [.reads r (firstFrom log.entries k)]) = readBy r' events := by
    intro r' apart
    simp [readBy, Ne.symm apart]
  have own : readBy r (events ++ [.reads r (firstFrom log.entries k)]) =
      readBy r events ++ (firstFrom log.entries k).toList := by
    cases found : firstFrom log.entries k <;> simp [readBy]
  have known := kept.known here
  have moved : ∀ k', (log.reads r k).cursor r = some k' →
      firstFrom log.entries k = none ∧ k' = k ∨
        ∃ i, firstFrom log.entries k = some i ∧ k' = i + 1 := by
    intro k' at_
    simp only [Log.reads, Function.update_self, Option.some.injEq] at at_
    cases found : firstFrom log.entries k with
    | none => exact Or.inl ⟨rfl, by simpa [found] using at_.symm⟩
    | some i => exact Or.inr ⟨i, rfl, by simpa [found] using at_.symm⟩
  have elsewhere : ∀ r', r' ≠ r → (log.reads r k).cursor r' = log.cursor r' := by
    intro r' apart
    exact Function.update_of_ne apart _ _
  refine ⟨kept.accounted.step (Step.reads here).cells, ?_, ?_, ?_, ?_⟩
  · intro r' late
    have apart : r' ≠ r := by
      rintro rfl
      exact absurd late (Nat.not_le.mpr known)
    rw [others r' apart, elsewhere r' apart]
    exact kept.fresh r' late
  · intro r'
    by_cases apart : r' = r
    · subst apart
      rw [own]
      cases found : firstFrom log.entries k with
      | none => simpa using kept.increasing r'
      | some i =>
        rw [List.pairwise_append]
        refine ⟨kept.increasing r', List.pairwise_singleton _ _, ?_⟩
        intro j earlier i' new
        obtain rfl : i' = i := by simpa using new
        have before := (kept.behind r' k here).2 j earlier
        have from_ := (firstFrom_some.mp found).1
        omega
    · rw [others r' apart]
      exact kept.increasing r'
  · intro r' k' at_
    by_cases apart : r' = r
    · subst apart
      have before := kept.behind r' k here
      rw [own]
      rcases moved k' at_ with ⟨found, rfl⟩ | ⟨i, found, rfl⟩
      · rw [found]
        simpa using before
      · obtain ⟨from_, holds, _⟩ := firstFrom_some.mp found
        refine ⟨holds_inside holds, ?_⟩
        intro j member
        rw [found] at member
        rcases List.mem_append.mp member with earlier | new
        · have bound := before.2 j earlier
          omega
        · obtain rfl : j = i := by simpa using new
          exact Nat.lt_succ_self j
    · rw [others r' apart]
      rw [elsewhere r' apart] at at_
      exact kept.behind r' k' at_
  · intro r' k' i at_ below
    by_cases apart : r' = r
    · subst apart
      rw [own]
      by_cases before : i < k
      · rcases kept.complete r' k i here before with given | gone
        · exact Or.inl (List.mem_append_left _ given)
        · exact Or.inr gone
      · rcases moved k' at_ with ⟨_, rfl⟩ | ⟨n, found, rfl⟩
        · exact absurd below before
        · by_cases last : i = n
          · subst last
            exact Or.inl (by simp [found])
          · exact Or.inr ((firstFrom_some.mp found).2.2 i (by omega) (by omega))
    · rw [others r' apart]
      rw [elsewhere r' apart] at at_
      exact kept.complete r' k' i at_ below

theorem Kept.step (kept : Kept events log) {e : Event α} (move : Step log e log') :
    Kept (events ++ [e]) log' := by
  have stays : ∀ r k, log.cursor r = some k →
      r < log.readers ∧ (log.cursor r = some k ∨ k = 0 ∧ log.readers ≤ r) :=
    fun r k here => ⟨kept.known here, Or.inl here⟩
  have cells := move.cells
  cases move with
  | appends a =>
    apply kept.idle cells (fun r => rfl) (Nat.le_refl _) (by simp) _ stays
    intro i inside holds
    rcases holds_append.mp holds with before | rfl
    · exact before
    · exact absurd inside (Nat.lt_irrefl _)
  | enters =>
    apply kept.idle cells (fun r => rfl) (Nat.le_succ _) (Nat.le_refl _) (fun i _ holds => holds)
    intro r k here
    by_cases new : r = log.readers
    · subst new
      simp only [Function.update_self, Option.some.injEq] at here
      exact ⟨Nat.lt_succ_self _, Or.inr ⟨here.symm, Nat.le_refl _⟩⟩
    · rw [Function.update_of_ne new] at here
      exact ⟨Nat.lt_succ_of_lt (kept.known here), Or.inl here⟩
  | reads here => exact kept.reads here
  | takes here =>
    apply kept.idle cells (fun r => rfl) (Nat.le_refl _) (by simp) _ stays
    intro i _ holds
    exact (holds_set.mp holds).2
  | @leaves gone here =>
    apply kept.idle cells (fun r => rfl) (Nat.le_refl _) (Nat.le_refl _) (fun i _ holds => holds)
    intro r k at_
    by_cases left : r = gone
    · subst left
      simp at at_
    · rw [Function.update_of_ne left] at at_
      exact stays r k at_

theorem kept_of_path (path : Path Step .empty events log) : Kept events log := by
  have kept := path.invariant (fun events log => Kept events log)
    (fun _ _ _ _ kept move => kept.step move) kept_empty
  simpa using kept

end Readers

end SharedLog
