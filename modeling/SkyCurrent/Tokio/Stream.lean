import SkyCurrent.Combined.Deliveries
import SkyCurrent.Lmq.SharedLog

/- The stream of tokio.rs: the task that init spawns pushes what recv_stream returns to
   GLOBAL_LINK_MESSAGE_QUEUE, and iter_stream hands out consumers of it. The program uses these,
   and the messages they return, while the task, the actors and the clients go on. -/
namespace Tokio

open Iox2 (Message Sent pageAt)
open Combined (published)
open Lmq (Op System QueueRun)
open Runs

structure State where
  process : Combined.State
  queue : System
  /-- What recv_stream has returned, until the task has the queue for itself. -/
  pushing : Option (List UInt8)

def init : State := ⟨Combined.init, System.init, none⟩

inductive Label where
  | process (l : Combined.Label)
  | pushes
  | queue (op : Op)

variable (shouldCollect : List UInt8 → Bool) (autodrop : Bool)

def State.steps (s : State) (l : Combined.Label) : Option State := do
  let process ← Combined.next shouldCollect s.process l
  let returned := (process.received.drop s.process.received.length).head?
  some { s with process, pushing := s.pushing <|> returned }

/-- The task does not call recv_stream again before it has pushed; nobody else pushes. -/
def next (s : State) : Label → Option State
  | .process .proceeds => if s.pushing.isSome then none else s.steps shouldCollect .proceeds
  | .process l => s.steps shouldCollect l
  | .pushes => do
    let payload ← s.pushing
    let queue ← Lmq.step autodrop s.queue (.push payload)
    some { s with queue, pushing := none }
  | .queue op =>
    match op with
    | .push _ => none
    | op => (Lmq.step autodrop s.queue op).map fun queue => { s with queue }

variable {shouldCollect autodrop} {s t : State} {trace : List (State × Label)} {l : Label}

section Parts

def processLabel (_ : State) : Label → Option Combined.Label
  | .process l => some l
  | _ => none

def queueOp (s : State) : Label → Option Op
  | .pushes => s.pushing.map .push
  | .queue op => some op
  | .process _ => none

def processes (trace : List (State × Label)) : List (Combined.State × Combined.Label) :=
  trace.filterMap fun e => (processLabel e.1 e.2).map fun l => (e.1.process, l)

def queues (trace : List (State × Label)) : List (System × Op) :=
  trace.filterMap fun e => (queueOp e.1 e.2).map fun op => (e.1.queue, op)

theorem received_step {p q : Combined.State} {l : Combined.Label}
    (move : Combined.next shouldCollect p l = some q) :
    q.received = p.received ∨ l = .proceeds ∧ ∃ payload, q.received = p.received ++ [payload] := by
  cases l with
  | passes time =>
    cases move
    exact Or.inl rfl
  | proceeds =>
    cases Combined.proceeds_pages move with
    | hears left reply pc here none_ hand asks frame => exact Or.inl (by rw [frame])
    | pushes payload headerSize pc => exact Or.inr ⟨rfl, payload, rfl⟩
    | quiet quiet => exact Or.inl quiet.received
  | wakes backing => exact Or.inl (Combined.wakes_quiet move).received
  | recvActor act =>
    cases Combined.recvActor_cases move with
    | page reply calls less frame => exact Or.inl (by rw [frame])
    | wait reply calls iox2 frame => exact Or.inl (by rw [frame])
  | sendActor act => exact Or.inl (by rw [Combined.sendActor_frame move])
  | queues payload headerSize => exact Or.inl (by rw [Combined.queues_frame move])
  | client c act => exact Or.inl (by rw [Combined.client_frame move])
  | mesh act => exact Or.inl (by rw [Combined.mesh_frame move])

inductive Moves (s t : State) (l : Label) : Prop where
  | process (l' : Combined.Label) (is : l = .process l')
      (step : Combined.next shouldCollect s.process l' = some t.process)
      (queue : t.queue = s.queue)
      (returned : t.process.received = s.process.received ∧ t.pushing = s.pushing ∨
        s.pushing = none ∧ t.process.received = s.process.received ++ t.pushing.toList)
  | pushes (payload : List UInt8) (is : l = .pushes) (pushing : s.pushing = some payload)
      (step : Lmq.step autodrop s.queue (.push payload) = some t.queue)
      (process : t.process = s.process) (done : t.pushing = none)
  | queue (op : Op) (is : l = .queue op) (own : ∀ payload, op ≠ .push payload)
      (step : Lmq.step autodrop s.queue op = some t.queue) (process : t.process = s.process)
      (pushing : t.pushing = s.pushing)

theorem moves_of_next (move : next shouldCollect autodrop s l = some t) :
    @Moves shouldCollect autodrop s t l := by
  cases l with
  | process l' =>
    have free : (l' = .proceeds → s.pushing = none) ∧ s.steps shouldCollect l' = some t := by
      cases l' with
      | proceeds =>
        simp only [next] at move
        split at move
        · cases move
        · rename_i idle
          exact ⟨fun _ => by simpa using idle, move⟩
      | _ => exact ⟨by simp, move⟩
    simp only [State.steps, Option.bind_eq_bind, Option.bind_eq_some_iff, Option.some.injEq]
      at free
    obtain ⟨idle, process, step, rfl⟩ := free
    refine .process l' rfl step rfl ?_
    rcases received_step step with same | ⟨task, payload, more⟩
    · simp [same]
    · simp [more, idle task]
  | pushes =>
    simp only [next, Option.bind_eq_bind, Option.bind_eq_some_iff, Option.some.injEq] at move
    obtain ⟨payload, pushing, queue, step, rfl⟩ := move
    exact .pushes payload rfl pushing step rfl rfl
  | queue op =>
    simp only [next] at move
    split at move
    · cases move
    · rename_i own
      obtain ⟨queue, step, rfl⟩ := Option.map_eq_some_iff.mp move
      exact .queue op rfl own step rfl rfl

end Parts

def taken (autodrop : Bool) (trace : List (State × Label)) : List (List UInt8) :=
  SharedLog.taken (Lmq.seen autodrop (queues trace))

end Tokio
