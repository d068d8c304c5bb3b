import SkyCurrent.Base.Runs

/- Forward simulation. A system refines another one when each of its steps is a path of the
   other; every run is then a path, with what the steps let be seen as its labels. -/
namespace Runs

variable {S L A E : Type}

inductive Path (step : A → E → A → Prop) : A → List E → A → Prop where
  | nil (a : A) : Path step a [] a
  | cons {a b c : A} {e : E} {es : List E} (move : step a e b) (rest : Path step b es c) :
      Path step a (e :: es) c

variable {step : A → E → A → Prop}

theorem Path.single {a b : A} {e : E} (move : step a e b) : Path step a [e] b :=
  .cons move (.nil b)

theorem Path.append {a b c : A} {es fs : List E} (first : Path step a es b)
    (second : Path step b fs c) : Path step a (es ++ fs) c := by
  induction first with
  | nil a => exact second
  | cons move rest ih => exact .cons move (ih second)

theorem Path.invariant {a b : A} {es : List E} (path : Path step a es b) (Inv : List E → A → Prop)
    (keep : ∀ seen c e d, Inv seen c → step c e d → Inv (seen ++ [e]) d) {seen : List E}
    (init : Inv seen a) : Inv (seen ++ es) b := by
  induction path generalizing seen with
  | nil a => simpa using init
  | cons move rest ih =>
    have kept := ih (keep _ _ _ _ init move)
    simpa using kept

theorem Path.map {B : Type} {step' : B → E → B → Prop} (f : A → B)
    (keep : ∀ a e b, step a e b → step' (f a) e (f b)) {a b : A} {es : List E}
    (path : Path step a es b) : Path step' (f a) es (f b) := by
  induction path with
  | nil a => exact .nil _
  | cons move rest ih => exact .cons (keep _ _ _ move) ih

theorem Path.keeps {a b : A} {es : List E} (path : Path step a es b) (Inv : A → Prop)
    (keep : ∀ c e d, Inv c → step c e d → Inv d) (init : Inv a) : Inv b := by
  induction path with
  | nil a => exact init
  | cons move rest ih => exact ih (keep _ _ _ init move)

section Leads

variable {allowed : E → Prop} {goal : A → Prop}

def Leads (step : A → E → A → Prop) (allowed : E → Prop) (goal : A → Prop) (a : A) : Prop :=
  ∃ es b, Path step a es b ∧ (∀ e ∈ es, allowed e) ∧ goal b

theorem Leads.here {a : A} (there : goal a) : Leads step allowed goal a :=
  ⟨[], a, .nil a, by simp, there⟩

theorem Leads.after {a b : A} {e : E} (leads : Leads step allowed goal b) (move : step a e b)
    (now : allowed e) : Leads step allowed goal a := by
  obtain ⟨es, c, path, kind, there⟩ := leads
  refine ⟨e :: es, c, .cons move path, ?_, there⟩
  intro e' member
  rcases List.mem_cons.mp member with rfl | later
  · exact now
  · exact kind e' later

end Leads

variable {start : S → Prop} {concrete : S → L → S → Prop} {cond : S → L → Prop}

/-- A simulation, step by step, under a condition on the steps of the run. -/
structure Simulates (start : S → Prop) (concrete : S → L → S → Prop) (cond : S → L → Prop)
    (emits : S → L → List E) (first : A) (step : A → E → A → Prop) (rel : S → A → Prop) :
    Prop where
  init : ∀ s, start s → rel s first
  sim : ∀ s l t a, rel s a → cond s l → concrete s l t →
    ∃ b, Path step a (emits s l) b ∧ rel t b

theorem Simulates.run {emits : S → L → List E} {first : A} {rel : S → A → Prop}
    (simulates : Simulates start concrete cond emits first step rel)
    {trace : List (S × L)} {s : S} (run : Run start concrete trace s)
    (meets : Meets cond trace) :
    ∃ a, Path step first (trace.flatMap fun e => emits e.1 e.2) a ∧ rel s a := by
  induction run with
  | nil here => exact ⟨first, .nil first, simulates.init _ here⟩
  | snoc before move ih =>
    rw [meets_snoc] at meets
    obtain ⟨a, path, related⟩ := ih meets.1
    obtain ⟨b, more, related'⟩ := simulates.sim _ _ _ a related meets.2 move
    refine ⟨b, ?_, related'⟩
    simpa using path.append more

/-- A part of a system that every step leaves alone or moves by a step of its own has runs of
    its own. -/
theorem Run.project {S' L' : Type} {start' : S' → Prop} {step' : S' → L' → S' → Prop}
    (part : S → S') (label : S → L → Option L') (init : ∀ s, start s → start' (part s))
    (keep : ∀ s l t, concrete s l t → label s l = none ∧ part t = part s ∨
      ∃ l', label s l = some l' ∧ step' (part s) l' (part t))
    {trace : List (S × L)} {s : S} (run : Run start concrete trace s) :
    Run start' step' (trace.filterMap fun e => (label e.1 e.2).map fun l => (part e.1, l))
      (part s) := by
  induction run with
  | nil first => exact .nil (init _ first)
  | snoc before move ih =>
    rcases keep _ _ _ move with ⟨none_, same⟩ | ⟨l', some_, moved⟩
    · simpa [none_, same] using ih
    · simpa [some_] using ih.snoc moved

end Runs
