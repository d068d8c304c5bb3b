import SkyCurrent.Base.Runs
import SkyCurrent.Lmq.Model

/- push, try_next and the drop of a consumer as the threads that run them, split where a
   node mutex is locked or unlocked. What is done under a mutex is done in the step that
   locks or unlocks it. There is one producer, since push takes the queue by &mut, and
   every consumer is a thread of its own. -/
namespace Lmq

open Runs

inductive Thread where
  | producer
  | consumer (c : Nat)
  deriving DecidableEq, Repr

inductive Pushing where
  | idle
  | locking (newNode currentLast : Nat)
  | locked (newNode currentLast : Nat)
  deriving DecidableEq, Repr

inductive Consuming where
  | idle
  | locking
  | walking (currentIsClaimed : Bool) (next : Option Nat)
  | inspecting (currentIsClaimed : Bool) (nextArc : Nat)
  | leaving (moveTo : Option Nat)
  | dropLocking
  | dropLocked
  | dropped
  deriving DecidableEq, Repr

def Visit.goesTo (currentIsClaimed : Bool) : Visit → Consuming
  | .found dest => .leaving (some dest)
  | .reachedTail => .leaving none
  | .advance newNext => .walking currentIsClaimed newNext

structure Threads extends Process where
  queue : LinkMessageQueue
  lock : Nat → Option Thread
  producer : Pushing
  consumers : Nat → Option (MessageConsumer × Consuming)

def Threads.init : Threads :=
  let (h, q) := LinkMessageQueue.new .empty
  { heap := h, active := [], trackers := 0, strongCount := fun _ => 0
    queue := q, lock := fun _ => none, producer := .idle, consumers := fun _ => none }

/-- A mutex is not reentrant: the thread waits until nobody holds it. -/
def Threads.acquire (s : Threads) (t : Thread) (x : Nat) : Option Threads :=
  if s.lock x = none then some { s with lock := Function.update s.lock x (some t) } else none

def Threads.release (s : Threads) (x : Nat) : Threads :=
  { s with lock := Function.update s.lock x none }

def Threads.goto (s : Threads) (c : Nat) (self : MessageConsumer) (pc : Consuming) : Threads :=
  { s with consumers := Function.update s.consumers c (some (self, pc)) }

variable (autodrop : Bool)

/-- The node is in the heap, and the registry copied into it, before any lock is taken. -/
def startPush (s : Threads) (payload : List UInt8) : Option Threads :=
  match s.producer with
  | .idle =>
    let (heap, new) := s.heap.alloc (newNode autodrop s.active s.queue.tail payload)
    some { s with heap, producer := .locking new s.queue.last }
  | _ => none

def appendNew (s : Threads) (new currentLast : Nat) : Threads :=
  { s.release currentLast with
    heap := s.heap.setNext currentLast (some new)
    queue := { s.queue with last := new }
    producer := .idle }

def pushStep (s : Threads) : Option Threads :=
  match s.producer with
  | .idle => none
  | .locking new currentLast =>
    (s.acquire .producer currentLast).map fun s => { s with producer := .locked new currentLast }
  | .locked new currentLast =>
    match s.heap.next currentLast with
    | none => some (appendNew s new currentLast)
    | some nextArc =>
      if nextArc = s.queue.tail then some (appendNew s new currentLast)
      else some { s.release currentLast with producer := .locking new nextArc }

def startTryNext (s : Threads) (c : Nat) : Option Threads :=
  match s.consumers c with
  | some (self, .idle) => some (s.goto c self .locking)
  | _ => none

/-- Without autodrop there is no Drop for MessageConsumer, only its fields go. -/
def startDrop (s : Threads) (c : Nat) : Option Threads :=
  match s.consumers c with
  | some (self, .idle) =>
    if autodrop then some ({ s with active := s.active.remove self.id }.goto c self .dropLocking)
    else some (s.goto c self .dropped)
  | _ => none

def consumerStep (s : Threads) (c : Nat) : Option Threads :=
  match s.consumers c with
  | none => none
  | some (self, pc) =>
    match pc with
    | .idle => none
    | .locking =>
      (s.acquire (.consumer c) self.current).map fun s =>
        let heap := checked autodrop s.strongCount s.heap self
        { s with heap }.goto c self
          (.walking (heap.node self.current).isClaimed (heap.next self.current))
    | .walking _ none => some ((s.release self.current).goto c self .idle)
    | .walking currentIsClaimed (some nextArc) =>
      (s.acquire (.consumer c) nextArc).map (·.goto c self (.inspecting currentIsClaimed nextArc))
    | .inspecting currentIsClaimed nextArc =>
      let (heap, seen) := visit s.heap self.current currentIsClaimed nextArc
      some (({ s with heap }.release nextArc).goto c self (seen.goesTo currentIsClaimed))
    | .leaving moveTo =>
      some ((s.release self.current).goto c { self with current := moveTo.getD self.current } .idle)
    | .dropLocking =>
      (s.acquire (.consumer c) self.current).map fun s =>
        { s with heap := checked autodrop s.strongCount s.heap self }.goto c self .dropLocked
    | .dropLocked => some ((s.release self.current).goto c self .dropped)
    | .dropped =>
      some { s with
        strongCount := Function.update s.strongCount self.dropTracker 0
        consumers := Function.update s.consumers c none }

def threadStep (s : Threads) : Thread → Option Threads
  | .producer => pushStep s
  | .consumer c => consumerStep autodrop s c

/-- try_next has the payload of its current node write-locked while it walks. -/
def Consuming.standing : Consuming → Bool
  | .walking .. | .inspecting .. | .leaving _ => true
  | _ => false

def Threads.writeLocked (s : Threads) (m : Nat) : Bool :=
  match s.lock m with
  | some (.consumer c) =>
    match s.consumers c with
    | some (self, pc) => pc.standing && self.current == m
    | none => false
  | _ => false

inductive Action where
  | push (payload : List UInt8)
  | createConsumer (id : UInt64)
  | tryNext (c : Nat)
  | drop (c : Nat)
  | claim (m : Nat)
  | run (t : Thread)
  deriving DecidableEq, Repr

def act (s : Threads) : Action → Option Threads
  | .push payload => startPush autodrop s payload
  | .createConsumer id =>
    let (p, c) := createConsumer autodrop s.toProcess s.queue id
    some { s with
      toProcess := p
      consumers := Function.update s.consumers c.dropTracker (some (c, .idle)) }
  | .tryNext c => startTryNext s c
  | .drop c => startDrop autodrop s c
  | .claim m => if s.writeLocked m then none else some { s with heap := (claim s.heap m).1 }
  | .run t => threadStep autodrop s t

abbrev ThreadsReachable (autodrop : Bool) : Threads → Prop :=
  Reachable (· = Threads.init) (fun s a t => act autodrop s a = some t)

/- The mutexes a thread holds and the one it waits for, by where it is. -/

def Pushing.held : Pushing → List Nat
  | .locked _ currentLast => [currentLast]
  | _ => []

def Pushing.wanted : Pushing → Option Nat
  | .locking _ currentLast => some currentLast
  | _ => none

def Consuming.held (current : Nat) : Consuming → List Nat
  | .walking .. | .leaving _ | .dropLocked => [current]
  | .inspecting _ nextArc => [current, nextArc]
  | _ => []

def Consuming.wanted (current : Nat) : Consuming → Option Nat
  | .locking | .dropLocking => some current
  | .walking _ next => next
  | _ => none

def Threads.held (s : Threads) : Thread → List Nat
  | .producer => s.producer.held
  | .consumer c =>
    match s.consumers c with
    | some (self, pc) => pc.held self.current
    | none => []

def Threads.wanted (s : Threads) : Thread → Option Nat
  | .producer => s.producer.wanted
  | .consumer c =>
    match s.consumers c with
    | some (self, pc) => pc.wanted self.current
    | none => none

def Threads.Idle (s : Threads) : Thread → Prop
  | .producer => s.producer = .idle
  | .consumer c => ∀ self pc, s.consumers c = some (self, pc) → pc = .idle

end Lmq
