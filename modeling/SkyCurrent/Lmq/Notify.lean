import SkyCurrent.Lmq.Threads

/- MessageConsumer::next, which sleeps between two tries, and the notify_waiters with which
   push ends. Of tokio's Notify only this is used: notify_waiters fires every Notified that
   was created before, polled or not, and leaves nothing behind for later ones. -/
namespace Lmq

open Runs

/-- Where a consumer is in next. The flag tells whether its Notified has fired. -/
inductive Nexting where
  | outside
  | created (fired : Bool)
  | trying (fired : Bool)
  | awaiting (fired : Bool)
  deriving DecidableEq, Repr

def Nexting.notified : Nexting → Nexting
  | .outside => .outside
  | .created _ => .created true
  | .trying _ => .trying true
  | .awaiting _ => .awaiting true

def Nexting.begun : Nexting → Nexting
  | .created fired => .trying fired
  | other => other

def Nexting.tried (nexting : Nexting) (returned : Option Nat) : Nexting :=
  match nexting with
  | .trying fired => if returned.isSome then .outside else .awaiting fired
  | other => other

def Consuming.result : Consuming → Option (Option Nat)
  | .walking _ none => some none
  | .leaving moveTo => some moveTo
  | _ => none

structure Waiting extends Threads where
  /-- push has linked its node in, and has not called notify_waiters. -/
  notifying : Bool
  nexts : Nat → Nexting

def Waiting.init : Waiting :=
  { Threads.init with notifying := false, nexts := fun _ => .outside }

inductive Occasion where
  | thread (a : Action)
  /-- The loop of next begins: a Notified is created. -/
  | next (c : Nat)
  | notifyWaiters
  | wakes (c : Nat)
  /-- The future of a call of next is dropped at its await. -/
  | cancels (c : Nat)
  deriving DecidableEq, Repr

def LinksIn (s : Waiting) (l : Occasion) : Prop :=
  l = .thread (.run .producer) ∧ ∃ new currentLast, s.producer = .locked new currentLast ∧
    ∀ nextArc, s.heap.next currentLast = some nextArc → nextArc = s.queue.tail

def leavesPush (s : Threads) (a : Action) (t : Threads) : Bool :=
  a == .run .producer && s.producer != .idle && t.producer == .idle

def Waiting.admits (s : Waiting) : Action → Bool
  | .push _ => !s.notifying
  | .tryNext c =>
    match s.nexts c with
    | .outside | .created _ => true
    | _ => false
  | .drop c => s.nexts c == .outside
  | _ => true

def Waiting.follows (s : Waiting) (a : Action) : Nat → Nexting :=
  match a with
  | .tryNext c => Function.update s.nexts c (s.nexts c).begun
  | .run (.consumer c) =>
    Function.update s.nexts c (((s.consumers c).bind (·.2.result)).elim (s.nexts c)
      (s.nexts c).tried)
  | _ => s.nexts

def waitingStep (autodrop : Bool) (s : Waiting) : Occasion → Option Waiting
  | .thread a =>
    if s.admits a then
      (act autodrop s.toThreads a).map fun t =>
        { t with notifying := s.notifying || leavesPush s.toThreads a t, nexts := s.follows a }
    else none
  | .next c =>
    match s.consumers c, s.nexts c with
    | some (_, .idle), .outside =>
      some { s with nexts := Function.update s.nexts c (.created false) }
    | _, _ => none
  | .notifyWaiters =>
    if s.notifying then
      some { s with notifying := false, nexts := fun c => (s.nexts c).notified }
    else none
  | .wakes c =>
    match s.nexts c with
    | .awaiting true => some { s with nexts := Function.update s.nexts c (.created false) }
    | _ => none
  | .cancels c =>
    match s.nexts c with
    | .awaiting _ => some { s with nexts := Function.update s.nexts c .outside }
    | _ => none

abbrev WaitingRun (autodrop : Bool) :=
  Run (· = Waiting.init) (fun s l t => waitingStep autodrop s l = some t)

def LinkedSince (c : Nat) (trace : List (Waiting × Occasion)) : Prop :=
  ∃ before s after, trace = before ++ (s, .thread (.tryNext c)) :: after ∧
    (∀ e ∈ after, e.2 ≠ .thread (.tryNext c)) ∧ ∃ e ∈ after, LinksIn e.1 e.2

/-- The consumer sleeps, and nothing that has happened will wake it. -/
def Asleep (s : Waiting) (c : Nat) : Prop := s.nexts c = .awaiting false

section Trace

variable {autodrop : Bool} {c : Nat} {trace : List (Waiting × Occasion)} {s t : Waiting}
  {l : Occasion}

theorem linkedSince_snoc (linked : LinkedSince c (trace ++ [(s, l)])) :
    l ≠ .thread (.tryNext c) ∧ (LinkedSince c trace ∨ LinksIn s l) := by
  obtain ⟨before, u, after, split, latest, e, member, links⟩ := linked
  rcases List.eq_nil_or_concat after with none_ | ⟨rest, final, some_⟩
  · subst none_
    cases member
  · subst some_
    have longer : trace ++ [(s, l)] = (before ++ (u, .thread (.tryNext c)) :: rest) ++ [final] := by
      simp [split]
    obtain ⟨rfl, last⟩ := List.append_inj' longer rfl
    cases last
    have now := latest (s, l) (by simp)
    refine ⟨now, ?_⟩
    rw [List.concat_eq_append] at member latest
    rcases List.mem_append.mp member with earlier | here
    · refine Or.inl ⟨before, u, rest, rfl, ?_, e, earlier, links⟩
      intro e' before'
      exact latest e' (List.mem_append_left _ before')
    · obtain rfl := List.mem_singleton.mp here
      exact Or.inr links

theorem linksIn_notifying (links : LinksIn s l) (move : waitingStep autodrop s l = some t) :
    t.notifying = true := by
  obtain ⟨rfl, new, currentLast, here, last⟩ := links
  simp only [waitingStep, Waiting.admits, if_true, Option.map_eq_some_iff] at move
  obtain ⟨u, moved, rfl⟩ := move
  have appended : u = appendNew s.toThreads new currentLast := by
    simp only [act, threadStep, pushStep, here] at moved
    cases next : s.heap.next currentLast with
    | none =>
      rw [next] at moved
      exact (Option.some.inj moved).symm
    | some nextArc =>
      rw [next] at moved
      simp only [if_pos (last nextArc next)] at moved
      exact (Option.some.inj moved).symm
  simp [leavesPush, here, appended, appendNew]

end Trace

section Step

variable {autodrop : Bool} {s t : Waiting} {l : Occasion} {c : Nat}

def Nexting.Unfired (n : Nexting) : Prop := n = .trying false ∨ n = .awaiting false

theorem tried_unfired {n : Nexting} {returned : Option Nat}
    (unfired : (n.tried returned).Unfired) : n.Unfired := by
  cases n with
  | trying fired =>
    cases fired with
    | true => cases returned <;> simp [Nexting.tried, Nexting.Unfired] at unfired
    | false => exact Or.inl rfl
  | outside => exact unfired
  | created fired => exact unfired
  | awaiting fired => exact unfired

theorem update_unfired {d : Nat} {f : Nat → Nexting} {n : Nexting}
    (mine : n.Unfired → (f d).Unfired) (unfired : (Function.update f d n c).Unfired) :
    (f c).Unfired := by
  by_cases same : c = d
  · subst same
    rw [Function.update_self] at unfired
    exact mine unfired
  · rw [Function.update_of_ne same] at unfired
    exact unfired

theorem follows_unfired {a : Action} (other : a ≠ .tryNext c)
    (unfired : (s.follows a c).Unfired) : (s.nexts c).Unfired := by
  cases a with
  | tryNext d =>
    have apart : c ≠ d := fun same => other (same ▸ rfl)
    rw [Waiting.follows, Function.update_of_ne apart] at unfired
    exact unfired
  | run thread =>
    cases thread with
    | producer => exact unfired
    | consumer d =>
      have mine : (((s.consumers d).bind (·.2.result)).elim (s.nexts d)
          (s.nexts d).tried).Unfired → (s.nexts d).Unfired := by
        cases (s.consumers d).bind (·.2.result) with
        | none => exact id
        | some returned => exact tried_unfired
      exact update_unfired mine unfired
  | push payload => exact unfired
  | createConsumer id => exact unfired
  | drop d => exact unfired
  | claim m => exact unfired

theorem created_outside_unfired :
    ¬ (Nexting.created false).Unfired ∧ ¬ Nexting.outside.Unfired := by
  simp [Nexting.Unfired]

theorem unfired_cases (move : waitingStep autodrop s l = some t)
    (unfired : (t.nexts c).Unfired) : l = .thread (.tryNext c) ∨
      (s.nexts c).Unfired ∧ (t.notifying = false → s.notifying = false) := by
  cases l with
  | thread a =>
    by_cases begins : a = .tryNext c
    · exact Or.inl (begins ▸ rfl)
    simp only [waitingStep] at move
    split at move
    · simp only [Option.map_eq_some_iff] at move
      obtain ⟨u, _, rfl⟩ := move
      exact Or.inr ⟨follows_unfired begins unfired, fun none_ => (Bool.or_eq_false_iff.mp none_).1⟩
    · cases move
  | notifyWaiters =>
    simp only [waitingStep] at move
    split at move
    · cases move
      cases before : s.nexts c <;> simp [before, Nexting.notified, Nexting.Unfired] at unfired
    · cases move
  | next d =>
    simp only [waitingStep] at move
    split at move
    · cases move
      exact Or.inr ⟨update_unfired (absurd · created_outside_unfired.1) unfired, id⟩
    · cases move
  | wakes d =>
    simp only [waitingStep] at move
    split at move
    · cases move
      exact Or.inr ⟨update_unfired (absurd · created_outside_unfired.1) unfired, id⟩
    · cases move
  | cancels d =>
    simp only [waitingStep] at move
    split at move
    · cases move
      exact Or.inr ⟨update_unfired (absurd · created_outside_unfired.2) unfired, id⟩
    · cases move

end Step

variable {autodrop : Bool} {trace : List (Waiting × Occasion)} {s : Waiting}

/-- From the start of a try_next on, a message that is linked in either has its notification
    still to come or has fired the Notified that was created before. -/
theorem linked_notifying (run : WaitingRun autodrop trace s) {c : Nat}
    (unfired : (s.nexts c).Unfired) (linked : LinkedSince c trace) :
    s.notifying = true := by
  induction run with
  | nil _ =>
    obtain ⟨before, _, after, split, _⟩ := linked
    simp at split
  | snoc before move ih =>
    obtain ⟨later, earlier | links⟩ := linkedSince_snoc linked
    · obtain ⟨unfired', kept⟩ := (unfired_cases move unfired).resolve_left later
      have notifying := ih unfired' earlier
      by_contra stopped
      have none_ := kept (Bool.eq_false_iff.mpr stopped)
      rw [none_] at notifying
      cases notifying
    · exact linksIn_notifying links move

/-- Nobody sleeps through a message: while a consumer sleeps although one has been linked in
    since its last try began, the notification of a push is still to come. -/
theorem no_missed_wake_up (run : WaitingRun autodrop trace s) (c : Nat) :
    ¬ (Asleep s c ∧ LinkedSince c trace ∧ s.notifying = false) := by
  rintro ⟨asleep, linked, stopped⟩
  have notifying := linked_notifying run (Or.inr asleep) linked
  rw [stopped] at notifying
  cases notifying

instance (s : Waiting) (l : Occasion) : Decidable (LinksIn s l) :=
  match here : s.producer with
  | .locked _ currentLast =>
    decidable_of_iff (l = .thread (.run .producer) ∧
      ∀ nextArc ∈ s.heap.next currentLast, nextArc = s.queue.tail) (by simp [LinksIn, here])
  | .idle => isFalse (by simp [LinksIn, here])
  | .locking _ _ => isFalse (by simp [LinksIn, here])

theorem linkedSince_of_drop {c k : Nat} 
    (begins : (trace.map (·.2))[k]? = some (.thread (.tryNext c)))
    (latest : ∀ e ∈ trace.drop (k + 1), e.2 ≠ .thread (.tryNext c))
    (links : ∃ e ∈ trace.drop (k + 1), LinksIn e.1 e.2) : LinkedSince c trace := by
  rw [List.getElem?_map] at begins
  obtain ⟨⟨u, _⟩, here, rfl⟩ := Option.map_eq_some_iff.mp begins
  obtain ⟨range, same⟩ := List.getElem?_eq_some_iff.mp here
  refine ⟨trace.take k, u, trace.drop (k + 1), ?_, latest, links⟩
  rw [← same, List.getElem_cons_drop, List.take_append_drop]

def sleepsThroughPush : List Occasion :=
  [.thread (.createConsumer 7), .next 0, .thread (.tryNext 0),
    .thread (.run (.consumer 0)), .thread (.run (.consumer 0)), .thread (.run (.consumer 0)),
    .thread (.run (.consumer 0)), .thread (.push [1]), .thread (.run .producer),
    .thread (.run .producer), .notifyWaiters, .wakes 0]

theorem no_missed_wake_up_pushing : ∃ trace s, WaitingRun false trace s ∧
    (∃ e ∈ trace, Asleep e.1 0 ∧ e.1.notifying = true) ∧ LinkedSince 0 trace ∧
    s.notifying = false ∧ ¬ Asleep s 0 := by
  obtain ⟨trace, s, run, slept, begins, latest, links, notified⟩ :=
    execute_run (waitingStep false) Waiting.init sleepsThroughPush
      (fun trace s => (∃ e ∈ trace, e.1.nexts 0 = .awaiting false ∧ e.1.notifying = true) ∧
        (trace.map (·.2))[2]? = some (.thread (.tryNext 0)) ∧
        (∀ e ∈ trace.drop 3, e.2 ≠ .thread (.tryNext 0)) ∧
        (∃ e ∈ trace.drop 3, LinksIn e.1 e.2) ∧ s.notifying = false) (by decide +kernel)
  have linked := linkedSince_of_drop begins latest links
  have awake := no_missed_wake_up run 0
  exact ⟨trace, s, run, slept, linked, notified, fun asleep => awake ⟨asleep, linked, notified⟩⟩

end Lmq
