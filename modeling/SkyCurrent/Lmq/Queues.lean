import SkyCurrent.Lmq.Ledger

/- Several queues in one process. The nodes of all of them come out of one arena, and the
   registry of consumers and the drop trackers are there once for the whole process. -/
namespace Lmq

open Runs

structure Member where
  queue : LinkMessageQueue
  pushed : List Nat
  trackers : List Nat
  consumers : Nat → Option MessageConsumer
  handles : List Nat

def Member.new (queue : LinkMessageQueue) : Member := ⟨queue, [], [], fun _ => none, []⟩

structure Queues extends Process where
  member : Nat → Option Member

def Queues.init : Queues :=
  { heap := .empty, active := [], trackers := 0, strongCount := fun _ => 0
    member := fun _ => none }

inductive Call where
  | new (q : Nat)
  | on (q : Nat) (op : Op)
  deriving DecidableEq, Repr

def Call.queue : Call → Nat
  | .new q => q
  | .on q _ => q

/-- What an operation hands back: try_next the message it found, by its place among the
    pushed ones, and claim the payload it took. -/
inductive Reply where
  | nothing
  | next (message : Option Nat)
  | taken (payload : Option (List UInt8))
  deriving DecidableEq, Repr

variable (autodrop : Bool)

def Member.step (p : Process) (m : Member) : Op → Option (Process × Member)
  | .push payload => do
    let (heap, queue) ← push autodrop p.heap p.active m.queue payload
    some ({ p with heap }, { m with queue, pushed := m.pushed ++ [queue.last] })
  | .createConsumer id =>
    let (p, c) := createConsumer autodrop p m.queue id
    some (p, { m with
      trackers := m.trackers ++ [c.dropTracker]
      consumers := Function.update m.consumers m.trackers.length (some c) })
  | .tryNext c => do
    let self ← m.consumers c
    let (heap, self, returned) ← tryNext autodrop p.strongCount p.heap self
    some ({ p with heap }, { m with
      consumers := Function.update m.consumers c (some self)
      handles := m.handles ++ returned.toList })
  | .claim handle => do
    let node ← m.handles[handle]?
    some ({ p with heap := (claim p.heap node).1 }, m)
  | .drop c => do
    let self ← m.consumers c
    some (dropConsumer autodrop p self,
      { m with consumers := Function.update m.consumers c none })

def Member.reply (p : Process) (m : Member) : Op → Reply
  | .tryNext c => .next do
    let self ← m.consumers c
    let (_, _, returned) ← tryNext autodrop p.strongCount p.heap self
    returned.map (m.pushed.idxOf ·)
  | .claim handle => .taken do
    let node ← m.handles[handle]?
    (claim p.heap node).2
  | _ => .nothing

def Queues.step (s : Queues) : Call → Option Queues
  | .new q =>
    if (s.member q).isSome then none
    else
      let (heap, queue) := LinkMessageQueue.new s.heap
      some { s with heap, member := Function.update s.member q (some (.new queue)) }
  | .on q op => do
    let m ← s.member q
    let (p, m) ← m.step autodrop s.toProcess op
    some { toProcess := p, member := Function.update s.member q (some m) }

abbrev ProcessRun : List (Queues × Call) → Queues → Prop :=
  Run (· = Queues.init) (fun s call t => s.step autodrop call = some t)

def Queues.messages (s : Queues) (q : Nat) : List (Option (List UInt8)) :=
  match s.member q with
  | none => []
  | some m => m.pushed.map fun x => (s.heap.node x).payload

def replies (q : Nat) (trace : List (Queues × Call)) : List Reply :=
  trace.filterMap fun e => match e.2 with
    | .new _ => none
    | .on q' op => if q' = q then (e.1.member q).map (·.reply autodrop e.1.toProcess op) else none

def Member.nodes (m : Member) : List Nat := m.queue.tail :: m.queue.root :: m.pushed

structure Member.Holds (m : Member) (p : Process) : Prop where
  nodes : ∀ x ∈ m.nodes, x < p.heap.size
  closed : ∀ x ∈ m.nodes, ∀ y, p.heap.next x = some y → y ∈ m.nodes
  last : m.queue.last ∈ m.nodes
  placed : ∀ c self, m.consumers c = some self → self.current ∈ m.nodes
  handed : ∀ x ∈ m.handles, x ∈ m.nodes
  trackers : ∀ t ∈ m.trackers, t < p.trackers
  tracked : ∀ c self, m.consumers c = some self → self.dropTracker ∈ m.trackers
  waiting : ∀ x ∈ m.nodes, ∀ e ∈ p.heap.targets x, e.2 < p.trackers

end Lmq
