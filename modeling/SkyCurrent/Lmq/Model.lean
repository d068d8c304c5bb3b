import Mathlib.Logic.Function.Basic

/- The linked message queue of lmq/src/lib.rs. An Arc<Mutex<NextMessage>> is an index
   into one arena of nodes, in order of allocation, and a Weak<()> is the index of the
   drop tracker it was downgraded from. The payload cell of a node is shared by every
   clone of the node, so a handle handed to a caller is the index of its node.
   Here every operation runs alone; LinkMessageQueue locking is modelled separately. -/
namespace Lmq

/-- HashMap<u64, Weak<()>>, as its entries in no particular order. -/
abbrev Consumers := List (UInt64 × Nat)

def Consumers.remove (m : Consumers) (id : UInt64) : Consumers := m.filter (·.1 ≠ id)

def Consumers.insert (m : Consumers) (id : UInt64) (tracker : Nat) : Consumers :=
  (id, tracker) :: m.remove id

def Consumers.retainLive (m : Consumers) (strongCount : Nat → Nat) : Consumers :=
  m.filter (strongCount ·.2 ≠ 0)

def Consumers.allDead (m : Consumers) (strongCount : Nat → Nat) : Bool :=
  m.all (strongCount ·.2 == 0)

structure NextMessage where
  payload : Option (List UInt8)
  next : Option Nat
  targetConsumers : Option Consumers
  deriving DecidableEq, Repr

def NextMessage.isClaimed (m : NextMessage) : Bool := m.payload.isNone

structure Heap where
  size : Nat
  node : Nat → NextMessage

def Heap.empty : Heap := ⟨0, fun _ => ⟨none, none, none⟩⟩

def Heap.alloc (h : Heap) (m : NextMessage) : Heap × Nat :=
  (⟨h.size + 1, Function.update h.node h.size m⟩, h.size)

def Heap.modify (h : Heap) (r : Nat) (f : NextMessage → NextMessage) : Heap :=
  { h with node := Function.update h.node r (f (h.node r)) }

def Heap.setNext (h : Heap) (r : Nat) (v : Option Nat) : Heap :=
  h.modify r fun m => { m with next := v }

def Heap.setTargets (h : Heap) (r : Nat) (v : Option Consumers) : Heap :=
  h.modify r fun m => { m with targetConsumers := v }

def Heap.next (h : Heap) (r : Nat) : Option Nat := (h.node r).next

def Heap.Unclaimed (h : Heap) (r : Nat) : Prop := (h.node r).isClaimed = false

instance (h : Heap) (r : Nat) : Decidable (h.Unclaimed r) :=
  inferInstanceAs (Decidable (_ = false))

def claim (h : Heap) (m : Nat) : Heap × Option (List UInt8) :=
  (h.modify m fun n => { n with payload := none }, (h.node m).payload)

structure LinkMessageQueue where
  root : Nat
  last : Nat
  tail : Nat
  deriving DecidableEq, Repr

def LinkMessageQueue.new (h : Heap) : Heap × LinkMessageQueue :=
  let (h, tail) := h.alloc ⟨none, none, none⟩
  let (h, root) := h.alloc ⟨none, some tail, none⟩
  (h, ⟨root, root, tail⟩)

/-- The loop of push: from the recorded last node to a node that points at the tail.
    It gives up only when the fuel runs out, where the loop of the code would not end. -/
def findLast (h : Heap) (tail : Nat) : Nat → Nat → Option Nat
  | 0, _ => none
  | fuel + 1, currentLast =>
    match h.next currentLast with
    | none => some currentLast
    | some nextArc => if nextArc = tail then some currentLast else findLast h tail fuel nextArc

structure Process where
  heap : Heap
  active : Consumers
  trackers : Nat
  strongCount : Nat → Nat

structure MessageConsumer where
  current : Nat
  id : UInt64
  dropTracker : Nat
  deriving DecidableEq, Repr

variable (autodrop : Bool)

/-- The node push creates; the registry is read before any node is locked. -/
def newNode (active : Consumers) (tail : Nat) (payload : List UInt8) : NextMessage :=
  ⟨some payload, some tail, if autodrop then some active else none⟩

def push (h : Heap) (active : Consumers) (q : LinkMessageQueue) (payload : List UInt8) :
    Option (Heap × LinkMessageQueue) :=
  let (h, new) := h.alloc (newNode autodrop active q.tail payload)
  (findLast h q.tail h.size q.last).map fun end_ =>
    (h.setNext end_ (some new), { q with last := new })

/-- The id is drawn at random by the code, so it is an input here. -/
def createConsumer (p : Process) (q : LinkMessageQueue) (id : UInt64) :
    Process × MessageConsumer :=
  let strongCount := Function.update p.strongCount p.trackers 1
  ({ p with
      active := if autodrop then (p.active.retainLive strongCount).insert id p.trackers
        else p.active
      trackers := p.trackers + 1
      strongCount },
    ⟨q.root, id, p.trackers⟩)

def checkShouldNowAutodrop (strongCount : Nat → Nat) (consumerId : UInt64) (h : Heap)
    (current : Nat) : Heap :=
  match (h.node current).targetConsumers with
  | none => h
  | some targets =>
    let h := h.setTargets current (some (targets.remove consumerId))
    if (targets.remove consumerId).allDead strongCount then (claim h current).1 else h

inductive Visit where
  | found (dest : Nat)
  | reachedTail
  | advance (newNext : Option Nat)
  deriving DecidableEq, Repr

def visit (h : Heap) (current : Nat) (currentIsClaimed : Bool) (nextArc : Nat) : Heap × Visit :=
  if !(h.node nextArc).isClaimed || (h.next nextArc).isNone then
    (h.setNext current (some nextArc),
      if (h.next nextArc).isSome then .found nextArc else .reachedTail)
  else
    let newNext := h.next nextArc
    let h := match newNext with
      | some nextNext => h.setNext current (some nextNext)
      | none => h
    (if currentIsClaimed then h else h.setNext nextArc (some current), .advance newNext)

/-- The loop of try_next. A node mutex is not reentrant, so the walk hangs if it comes
    back to the current node; `none` stands for that and for a walk that never ends. -/
def walk (current : Nat) (currentIsClaimed : Bool) : Nat → Heap → Option Nat →
    Option (Heap × Option Nat)
  | _, h, none => some (h, none)
  | 0, _, some _ => none
  | fuel + 1, h, some nextArc =>
    if nextArc = current then none
    else match visit h current currentIsClaimed nextArc with
      | (h, .found dest) => some (h, some dest)
      | (h, .reachedTail) => some (h, none)
      | (h, .advance newNext) => walk current currentIsClaimed fuel h newNext

/-- The heap try_next walks: the autodrop check has been made on the current node. -/
def checked (strongCount : Nat → Nat) (h : Heap) (self : MessageConsumer) : Heap :=
  if autodrop then checkShouldNowAutodrop strongCount self.id h self.current else h

def tryNext (strongCount : Nat → Nat) (h : Heap) (self : MessageConsumer) :
    Option (Heap × MessageConsumer × Option Nat) :=
  let h := checked autodrop strongCount h self
  let currentIsClaimed := (h.node self.current).isClaimed
  (walk self.current currentIsClaimed h.size h (h.next self.current)).map fun (h, moveTo) =>
    (h, { self with current := moveTo.getD self.current }, moveTo)

/-- Drop for MessageConsumer; the fields, and with them the tracker, go after the body. -/
def dropConsumer (p : Process) (self : MessageConsumer) : Process :=
  { p with
      active := if autodrop then p.active.remove self.id else p.active
      heap := checked autodrop p.strongCount p.heap self
      strongCount := Function.update p.strongCount self.dropTracker 0 }

structure System extends Process where
  queue : LinkMessageQueue
  consumers : Nat → Option MessageConsumer
  handles : List Nat

def System.init : System :=
  let (h, q) := LinkMessageQueue.new .empty
  { heap := h, active := [], trackers := 0, strongCount := fun _ => 0
    queue := q, consumers := fun _ => none, handles := [] }

inductive Op where
  | push (payload : List UInt8)
  | createConsumer (id : UInt64)
  | tryNext (c : Nat)
  | claim (handle : Nat)
  | drop (c : Nat)
  deriving DecidableEq, Repr

/-- An operation is refused when its consumer or handle does not exist, or never returns. -/
def step (s : System) : Op → Option System
  | .push payload => do
    let (heap, queue) ← push autodrop s.heap s.active s.queue payload
    some { s with heap, queue }
  | .createConsumer id =>
    let (p, c) := createConsumer autodrop s.toProcess s.queue id
    some { s with
      toProcess := p
      consumers := Function.update s.consumers c.dropTracker (some c) }
  | .tryNext c => do
    let self ← s.consumers c
    let (heap, self, returned) ← tryNext autodrop s.strongCount s.heap self
    some { s with
      heap
      consumers := Function.update s.consumers c (some self)
      handles := s.handles ++ returned.toList }
  | .claim handle => do
    let m ← s.handles[handle]?
    some { s with heap := (claim s.heap m).1 }
  | .drop c => do
    let self ← s.consumers c
    some { s with
      toProcess := dropConsumer autodrop s.toProcess self
      consumers := Function.update s.consumers c none }

def Step (s : System) (op : Op) (t : System) : Prop := step autodrop s op = some t

def System.returns (s : System) (c : Nat) : Option Nat := do
  let self ← s.consumers c
  let (_, _, returned) ← tryNext autodrop s.strongCount s.heap self
  returned

end Lmq
