import SkyCurrent.Base.Broadcast
import SkyCurrent.Base.Simulation
import SkyCurrent.Combined.Deliveries
import SkyCurrent.Combined.Relay

/- The processes of one project, all of them initialised, and the pages between them. Sending a
   page takes it to one subscriber after another, the process's own among them, and notifications
   arrive at any time. As before a send_page that fails has published nothing. -/
namespace Mesh

open Iox2 (Blob Message)
open Combined (IpcError SendAct)
open Runs

variable {n : Nat}

structure Flight (n : Nat) where
  page : Blob
  left : Finset (Fin n)

structure State (n : Nat) where
  process : Fin n → Combined.State
  /-- The page each process is sending. -/
  flight : Fin n → Option (Flight n)

def init : State n := ⟨fun _ => Combined.init, fun _ => none⟩

def State.put (s : State n) (i : Fin n) (p : Combined.State) : State n :=
  { s with process := Function.update s.process i p }

def State.reaches (s : State n) (i j : Fin n) (flight : Flight n) : State n :=
  let left := flight.left.erase j
  { s with
    flight := Function.update s.flight i (if left = ∅ then none else some ⟨flight.page, left⟩) }

inductive Label (n : Nat) where
  | process (i : Fin n) (l : Combined.Label)
  | sends (i : Fin n)
  | delivers (i j : Fin n)
  | notified (j : Fin n)

variable (shouldCollect : Fin n → List UInt8 → Bool)

/-- A step that a process takes by itself. In its send_page it has the page put into its own
    subscriber too, and it goes on when every subscriber has it. -/
def State.steps (s : State n) (i : Fin n) (l : Combined.Label) : Option (State n) :=
  match l with
  | .mesh _ => none
  | .sendActor .publishes => do
    let flight ← s.flight i
    if i ∈ flight.left then
      let p ← Combined.next (shouldCollect i) (s.process i) (.sendActor .publishes)
      some ((s.put i p).reaches i i flight)
    else none
  | .sendActor act =>
    if (s.flight i).isNone then
      (Combined.next (shouldCollect i) (s.process i) (.sendActor act)).map (s.put i)
    else none
  | l => (Combined.next (shouldCollect i) (s.process i) l).map (s.put i)

def State.sends (s : State n) (i : Fin n) : Option (State n) := do
  let sending ← (s.process i).sending
  let page ← sending.left.head?
  if sending.notifies = false ∧ (s.flight i).isNone = true then
    some { s with flight := Function.update s.flight i (some ⟨page, Finset.univ⟩) }
  else none

def State.delivers (s : State n) (i j : Fin n) : Option (State n) := do
  let flight ← s.flight i
  if i ≠ j ∧ j ∈ flight.left then
    let p ← Combined.next (shouldCollect j) (s.process j) (.mesh (.publishes flight.page))
    some ((s.put j p).reaches i j flight)
  else none

def next (s : State n) : Label n → Option (State n)
  | .process i l => s.steps shouldCollect i l
  | .sends i => s.sends i
  | .delivers i j => s.delivers shouldCollect i j
  | .notified j =>
    (Combined.next (shouldCollect j) (s.process j) (.mesh .notifies)).map (s.put j)

abbrev MeshRun := Run (· = init) (fun s l t => next shouldCollect s l = some t)

section Shares

variable {shouldCollect} {s t : State n} {trace : List (State n × Label n)} {l : Label n}

def share (j : Fin n) (s : State n) : Label n → Option Combined.Label
  | .process i l => if i = j then some l else none
  | .sends _ => none
  | .delivers i k =>
    if k = j then (s.flight i).map fun flight => .mesh (.publishes flight.page) else none
  | .notified k => if k = j then some (.mesh .notifies) else none

def shares (j : Fin n) (trace : List (State n × Label n)) :
    List (Combined.State × Combined.Label) :=
  trace.filterMap fun e => (share j e.1 e.2).map fun l => (e.1.process j, l)

theorem next_share (move : next shouldCollect s l = some t) (j : Fin n) :
    share j s l = none ∧ t.process j = s.process j ∨ ∃ l', share j s l = some l' ∧
      Combined.next (shouldCollect j) (s.process j) l' = some (t.process j) := by
  have put : ∀ {i p}, i ≠ j → (s.put i p).process j = s.process j :=
    fun apart => Function.update_of_ne (Ne.symm apart) _ _
  have own : ∀ {p}, (s.put j p).process j = p := Function.update_self _ _ _
  cases l with
  | process i l =>
    have step : ∃ p, Combined.next (shouldCollect i) (s.process i) l = some p ∧
        t.process = (s.put i p).process := by
      simp only [next, State.steps] at move
      split at move
      · cases move
      · cases flight : s.flight i with
        | none => simp [flight] at move
        | some flight =>
          simp only [flight, Option.bind_eq_bind, Option.bind_some] at move
          split at move
          · obtain ⟨p, step, same⟩ := Option.bind_eq_some_iff.mp move
            cases same
            exact ⟨p, step, rfl⟩
          · cases move
      · split at move
        · obtain ⟨p, step, rfl⟩ := Option.map_eq_some_iff.mp move
          exact ⟨p, step, rfl⟩
        · cases move
      · obtain ⟨p, step, rfl⟩ := Option.map_eq_some_iff.mp move
        exact ⟨p, step, rfl⟩
    obtain ⟨p, step, same⟩ := step
    by_cases here : i = j
    · subst here
      exact Or.inr ⟨l, if_pos rfl, by rw [same, own, step]⟩
    · exact Or.inl ⟨if_neg here, by rw [same, put here]⟩
  | sends i =>
    simp only [next, State.sends, Option.bind_eq_bind, Option.bind_eq_some_iff] at move
    obtain ⟨sending, _, page, _, move⟩ := move
    split at move <;> cases move
    exact Or.inl ⟨rfl, rfl⟩
  | delivers i k =>
    simp only [next, State.delivers, Option.bind_eq_bind, Option.bind_eq_some_iff] at move
    obtain ⟨flight, there, move⟩ := move
    split at move
    · obtain ⟨p, step, same⟩ := Option.bind_eq_some_iff.mp move
      cases same
      by_cases here : k = j
      · subst here
        refine Or.inr ⟨.mesh (.publishes flight.page), ?_, ?_⟩
        · rw [share, if_pos rfl, there]
          rfl
        · rw [step]
          exact congrArg some own.symm
      · exact Or.inl ⟨if_neg here, put here⟩
    · cases move
  | notified k =>
    simp only [next] at move
    obtain ⟨p, step, rfl⟩ := Option.map_eq_some_iff.mp move
    by_cases here : k = j
    · subst here
      exact Or.inr ⟨_, if_pos rfl, by rw [step, own]⟩
    · exact Or.inl ⟨if_neg here, put here⟩

/-- Whatever the other processes do, each of them runs as it would by itself. -/
theorem shares_run (run : MeshRun shouldCollect trace s) (j : Fin n) :
    Combined.Runs (shouldCollect j) (shares j trace) (s.process j) := by
  apply run.project (fun s => s.process j) (share j)
  · rintro _ rfl
    rfl
  · intro _ _ _ move
    exact next_share move j

end Shares

/-- One send_stream of the send actor of a process; as long as it goes on it has no result. -/
structure Attempt (n : Nat) where
  sender : Fin n
  message : Message
  result : Option (Except IpcError Unit)

def Attempt.closes (attempt : Attempt n) (i : Fin n) (result : Except IpcError Unit) :
    Attempt n :=
  if attempt.sender = i ∧ attempt.result.isNone = true then { attempt with result := some result }
  else attempt

def record (attempts : List (Attempt n)) (e : State n × Label n) : List (Attempt n) :=
  match e.2 with
  | .process i (.sendActor act) =>
    (match (e.1.process i).ends act with
      | some result => attempts.map (·.closes i result)
      | none => attempts) ++
    ((e.1.process i).begins act).toList.map fun message => ⟨i, message, none⟩
  | _ => attempts

def attempts (trace : List (State n × Label n)) : List (Attempt n) := trace.foldl record []

def messages (trace : List (State n × Label n)) : List Message :=
  (attempts trace).map (·.message)

theorem attempts_snoc (trace : List (State n × Label n)) (e : State n × Label n) :
    attempts (trace ++ [e]) = record (attempts trace) e := by
  simp [attempts]

end Mesh
