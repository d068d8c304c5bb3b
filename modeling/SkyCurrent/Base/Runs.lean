import Mathlib.Data.List.Basic

/- Runs of a labelled transition system, kept with the state before every step.
   A property of a run may then speak about any earlier moment of it. -/
namespace Runs

variable {S L : Type}

inductive Run (start : S → Prop) (step : S → L → S → Prop) : List (S × L) → S → Prop where
  | nil {s : S} (first : start s) : Run start step [] s
  | snoc {trace : List (S × L)} {s t : S} {l : L}
      (before : Run start step trace s) (move : step s l t) :
      Run start step (trace ++ [(s, l)]) t

def Reachable (start : S → Prop) (step : S → L → S → Prop) (s : S) : Prop :=
  ∃ trace, Run start step trace s

/-- Every step of the run is taken in a state and with a label that meet the condition. -/
def Meets (cond : S → L → Prop) (trace : List (S × L)) : Prop :=
  ∀ e ∈ trace, cond e.1 e.2

/-- The property holds in the last state of a run and in every state before it, each
    taken with the run that led to it. -/
def Throughout (P : List (S × L) → S → Prop) (trace : List (S × L)) (last : S) : Prop :=
  P trace last ∧ ∀ before e after, trace = before ++ e :: after → P before e.1

variable {start : S → Prop} {step : S → L → S → Prop}

@[simp] theorem meets_nil (cond : S → L → Prop) : Meets cond [] := by
  simp [Meets]

@[simp] theorem meets_snoc (cond : S → L → Prop) (trace : List (S × L)) (s : S) (l : L) :
    Meets cond (trace ++ [(s, l)]) ↔ Meets cond trace ∧ cond s l := by
  simp only [Meets, List.mem_append, List.mem_singleton]
  constructor
  · intro h
    exact ⟨fun e he => h e (Or.inl he), h (s, l) (Or.inr rfl)⟩
  · rintro ⟨earlier, now⟩ e (he | rfl)
    · exact earlier e he
    · exact now

theorem throughout_nil (P : List (S × L) → S → Prop) (s : S) :
    Throughout P [] s ↔ P [] s := by
  simp [Throughout]

theorem throughout_snoc (P : List (S × L) → S → Prop) (trace : List (S × L)) (s t : S) (l : L) :
    Throughout P (trace ++ [(s, l)]) t ↔ P (trace ++ [(s, l)]) t ∧ Throughout P trace s := by
  constructor
  · intro ⟨last, earlier⟩
    have now := earlier trace (s, l) [] rfl
    have before : ∀ before e after, trace = before ++ e :: after → P before e.1 := by
      intro before e after split
      exact earlier before e (after ++ [(s, l)]) (by simp [split])
    exact ⟨last, now, before⟩
  · intro ⟨last, now, earlier⟩
    refine ⟨last, ?_⟩
    intro before e after split
    rcases List.eq_nil_or_concat after with none_ | ⟨rest, final, some_⟩
    · subst none_
      obtain ⟨rfl, same⟩ := List.append_inj' split rfl
      cases same
      exact now
    · subst some_
      have shorter : trace ++ [(s, l)] = (before ++ e :: rest) ++ [final] := by
        simp [split]
      exact earlier before e rest (List.append_inj' shorter rfl).1

theorem run_before {trace : List (S × L)} {s t : S} {l : L}
    (run : Run start step (trace ++ [(s, l)]) t) : Run start step trace s ∧ step s l t := by
  generalize whole : trace ++ [(s, l)] = longer at run
  cases run with
  | nil _ => simp at whole
  | snoc before move =>
    obtain ⟨rfl, last⟩ := List.append_inj' whole rfl
    cases last
    exact ⟨before, move⟩

/-- An invariant that may mention the run so far, kept by every step that meets the condition. -/
theorem run_invariant {cond : S → L → Prop} (Inv : List (S × L) → S → Prop)
    (init : ∀ s, start s → Inv [] s)
    (keep : ∀ trace s l t, Run start step trace s → Inv trace s → cond s l → step s l t →
      Inv (trace ++ [(s, l)]) t)
    {trace : List (S × L)} {t : S} (run : Run start step trace t) (meets : Meets cond trace) :
    Inv trace t := by
  induction run with
  | nil first => exact init _ first
  | snoc before move ih =>
    rw [meets_snoc] at meets
    exact keep _ _ _ _ before (ih meets.1) meets.2 move

theorem reachable_invariant (Inv : S → Prop) (init : ∀ s, start s → Inv s)
    (keep : ∀ s l t, Inv s → step s l t → Inv t) {s : S} (h : Reachable start step s) :
    Inv s := by
  obtain ⟨trace, run⟩ := h
  induction run with
  | nil first => exact init _ first
  | snoc _ move ih => exact keep _ _ _ ih move

/-- What every run that meets the condition ends in, it has passed through all along. -/
theorem throughout_of_runs {cond : S → L → Prop} {P : List (S × L) → S → Prop}
    (ends : ∀ {trace s}, Run start step trace s → Meets cond trace → P trace s)
    {trace : List (S × L)} {t : S} (run : Run start step trace t) (meets : Meets cond trace) :
    Throughout P trace t := by
  induction run with
  | nil first => exact (throughout_nil P _).mpr (ends (.nil first) (meets_nil cond))
  | snoc before move ih =>
    rw [throughout_snoc]
    exact ⟨ends (before.snoc move) meets, ih ((meets_snoc ..).mp meets).1⟩

/-- Conversely, a property that fails right after the first step outside the condition
    keeps every step of the run inside it. -/
theorem meets_of_throughout {cond : S → L → Prop} {P : List (S × L) → S → Prop}
    (breaks : ∀ {trace s l t}, Run start step trace s → Meets cond trace → step s l t →
      ¬ cond s l → ¬ P (trace ++ [(s, l)]) t)
    {trace : List (S × L)} {t : S} (run : Run start step trace t)
    (holds : Throughout P trace t) : Meets cond trace := by
  induction run with
  | nil first => exact meets_nil cond
  | snoc before move ih =>
    rw [throughout_snoc] at holds
    have earlier := ih holds.2
    rw [meets_snoc]
    refine ⟨earlier, ?_⟩
    by_contra outside
    exact breaks before earlier move outside holds.1

theorem Meets.weaken {cond cond' : S → L → Prop} {trace : List (S × L)} {t : S}
    (meets : Meets cond trace) (run : Run start step trace t)
    (weaker : ∀ {trace s l}, Run start step trace s → cond s l → cond' s l) :
    Meets cond' trace := by
  induction run with
  | nil first => exact meets_nil cond'
  | snoc before move ih =>
    rw [meets_snoc] at meets ⊢
    exact ⟨ih meets.1, weaker before meets.2⟩

theorem run_unique {next : S → L → Option S} {first s s' : S} {trace trace' : List (S × L)}
    (run : Run (· = first) (fun s l t => next s l = some t) trace s)
    (run' : Run (· = first) (fun s l t => next s l = some t) trace' s')
    (same : trace.map (·.2) = trace'.map (·.2)) : trace = trace' ∧ s = s' := by
  induction run generalizing trace' s' with
  | nil start =>
    cases run' with
    | nil start' => exact ⟨rfl, start.trans start'.symm⟩
    | snoc before' move' => simp at same
  | snoc before move ih =>
    cases run' with
    | nil start' => simp at same
    | snoc before' move' =>
      simp only [List.map_append, List.map_cons, List.map_nil] at same
      obtain ⟨earlier, last⟩ := List.append_inj' same rfl
      obtain ⟨rfl, rfl⟩ := ih before' earlier
      obtain rfl := List.singleton_inj.mp last
      exact ⟨rfl, Option.some.inj (move.symm.trans move')⟩

/-- The run a list of labels stands for, where the system is a partial function. -/
def execute (next : S → L → Option S) : S → List L → Option (List (S × L) × S)
  | s, [] => some ([], s)
  | s, l :: ls => do
    let t ← next s l
    let (trace, last) ← execute next t ls
    some ((s, l) :: trace, last)

theorem execute_extends {next : S → L → Option S} {s t : S} {ls : List L}
    {before after : List (S × L)} (run : Run start (fun s l t => next s l = some t) before s)
    (done : execute next s ls = some (after, t)) :
    Run start (fun s l t => next s l = some t) (before ++ after) t := by
  induction ls generalizing s before after with
  | nil =>
    simp only [execute, Option.some.injEq, Prod.mk.injEq] at done
    obtain ⟨rfl, rfl⟩ := done
    simpa using run
  | cons l ls ih =>
    simp only [execute, Option.bind_eq_bind, Option.bind_eq_some_iff, Option.some.injEq,
      Prod.mk.injEq, Prod.exists] at done
    obtain ⟨u, move, rest, last, tail, rfl, rfl⟩ := done
    simpa using ih (run.snoc move) tail

/-- A computed run is a run, with whatever was computed of it. -/
theorem execute_run (next : S → L → Option S) (s : S) (ls : List L)
    (P : List (S × L) → S → Prop) [∀ trace t, Decidable (P trace t)]
    (computed : (execute next s ls).any (fun r => decide (P r.1 r.2)) = true) :
    ∃ trace t, Run (· = s) (fun s l t => next s l = some t) trace t ∧ P trace t := by
  cases done : execute next s ls with
  | none => simp [done] at computed
  | some result =>
    obtain ⟨trace, t⟩ := result
    have run : Run (· = s) (fun s l t => next s l = some t) ([] ++ trace) t :=
      execute_extends (.nil rfl) done
    rw [List.nil_append] at run
    exact ⟨trace, t, run, by simpa [done] using computed⟩

end Runs
