import SkyCurrent.Base.Runs

/- NextMessage of src/lmq-deno/mod.ts, over the functions of src/lmq-capi/src/lmq.rs that lend a
   payload and give it away. A guard and a vector are named by how many of their kind the
   message has returned before. -/
namespace Deno

open Runs

/-- A message as the native side sees it, with the pointers it has returned and got back. -/
structure Message where
  payload : Option (List UInt8)
  peeked : Nat
  peekReleased : List Nat
  claimed : Nat
  vecDestroyed : List Nat
  destroyed : Nat
  deriving DecidableEq, Repr

namespace Message

def guarded (m : Message) : Bool :=
  (List.range m.peeked).any fun guard => !m.peekReleased.contains guard

def peek (m : Message) : Message × Option (Nat × List UInt8) :=
  match m.payload with
  | some payload => ({ m with peeked := m.peeked + 1 }, some (m.peeked, payload))
  | none => (m, none)

/-- lmq_message_claim waits for every guard; the only thread that could release them is the
    one that waits. -/
def claim (m : Message) : Option (Message × Option (Nat × List UInt8)) :=
  if m.guarded then none
  else match m.payload with
    | some payload =>
      some ({ m with payload := none, claimed := m.claimed + 1 }, some (m.claimed, payload))
    | none => some (m, none)

def peekRelease (m : Message) (guard : Nat) : Message :=
  { m with peekReleased := m.peekReleased ++ [guard] }

def vecDestroy (m : Message) (vec : Nat) : Message :=
  { m with vecDestroyed := m.vecDestroyed ++ [vec] }

def destroy (m : Message) : Message := { m with destroyed := m.destroyed + 1 }

end Message

/-- A NextMessage object: its private fields, what is registered for it in the three
    finalization registries, and whether the program can still reach it. -/
structure NextMessage where
  inner : Bool
  ref : Option Nat
  handle : Option Nat
  currentView : Option (List UInt8)
  messageRegistered : Bool
  refRegistered : List Nat
  vecRegistered : List Nat
  reachable : Bool
  message : Message
  deriving DecidableEq, Repr

/-- What a method call comes to. A null pointer is not looked at before it is followed. -/
inductive Outcome where
  | returns (o : NextMessage) (result : Option (List UInt8))
  | waits
  | crashes
  deriving DecidableEq, Repr

namespace NextMessage

/-- The constructor. Where there is no FinalizationRegistry, nothing is ever registered. -/
def new (finalization : Bool) (payload : Option (List UInt8)) : NextMessage where
  inner := true
  ref := none
  handle := none
  currentView := none
  messageRegistered := finalization
  refRegistered := []
  vecRegistered := []
  reachable := true
  message := ⟨payload, 0, [], 0, [], 0⟩

def releaseRef (o : NextMessage) : NextMessage :=
  match o.ref with
  | some guard => { o with
      refRegistered := []
      message := o.message.peekRelease guard
      ref := none }
  | none => o

def releaseHandle (o : NextMessage) : NextMessage :=
  match o.handle with
  | some vec => { o with
      vecRegistered := []
      message := o.message.vecDestroy vec
      handle := none }
  | none => o

def releaseOwned (o : NextMessage) : NextMessage := o.releaseRef.releaseHandle

def registers (finalization : Bool) (pointer : Option Nat) : List Nat :=
  if finalization then pointer.toList else []

def setRef (o : NextMessage) (finalization : Bool) (pointer : Option Nat) : NextMessage :=
  let o := o.releaseOwned
  { o with
    ref := pointer
    refRegistered := o.refRegistered ++ registers finalization pointer }

def setHandle (o : NextMessage) (finalization : Bool) (pointer : Option Nat) : NextMessage :=
  let o := o.releaseOwned
  { o with
    handle := pointer
    vecRegistered := o.vecRegistered ++ registers finalization pointer }

def view (o : NextMessage) (got : Option (Nat × List UInt8)) : Outcome :=
  .returns { o with currentView := got.map (·.2) } (got.map (·.2))

/-- The native call comes first, then the setter releases what the object has held so far. -/
def read (o : NextMessage) (finalization : Bool) : Outcome :=
  if o.inner then
    let (message, got) := o.message.peek
    ({ o with message := message }.setRef finalization (got.map Prod.fst)).view got
  else .crashes

def claim (o : NextMessage) (finalization : Bool) : Outcome :=
  if o.inner then
    match o.message.claim with
    | some (message, got) =>
      ({ o with message := message }.setHandle finalization (got.map Prod.fst)).view got
    | none => .waits
  else .crashes

def free (o : NextMessage) : Outcome :=
  let o := o.releaseOwned
  if o.inner then
    .returns { o with
      messageRegistered := false
      message := o.message.destroy
      inner := false } none
  else .returns o none

def finalize (o : NextMessage) : NextMessage :=
  { o with
    reachable := false
    inner := false
    ref := none
    handle := none
    messageRegistered := false
    refRegistered := []
    vecRegistered := []
    message := { o.message with
      peekReleased := o.message.peekReleased ++ o.refRegistered
      vecDestroyed := o.message.vecDestroyed ++ o.vecRegistered
      destroyed := o.message.destroyed + if o.messageRegistered then 1 else 0 } }

end NextMessage

inductive Thread where
  | running
  | waits (i : Nat)
  | crashed
  deriving DecidableEq, Repr

structure State where
  objects : List NextMessage
  thread : Thread
  deriving DecidableEq, Repr

def State.first : State := ⟨[], .running⟩

inductive Label where
  | creates (payload : Option (List UInt8))
  | read (i : Nat)
  | claim (i : Nat)
  | free (i : Nat)
  | claimedElsewhere (i : Nat)
  | finalized (i : Nat)
  deriving DecidableEq, Repr

def State.put (s : State) (i : Nat) (o : NextMessage) : State :=
  { s with objects := s.objects.set i o }

def State.after (s : State) (i : Nat) : Outcome → State
  | .returns o _ => s.put i o
  | .waits => { s with thread := .waits i }
  | .crashes => { s with thread := .crashed }

def State.calls (s : State) (i : Nat) (method : NextMessage → Outcome) : Option State := do
  let o ← s.objects[i]?
  if s.thread = .running ∧ o.reachable = true then some (s.after i (method o)) else none

def State.claimedElsewhere (s : State) (i : Nat) : Option State := do
  let o ← s.objects[i]?
  if o.message.guarded then none
  else some (s.put i { o with message := { o.message with payload := none } })

def State.finalized (s : State) (finalization : Bool) (i : Nat) : Option State := do
  let o ← s.objects[i]?
  if s.thread = .running ∧ finalization = true ∧ o.reachable = true then
    some (s.put i o.finalize)
  else none

def step (finalization : Bool) (s : State) : Label → Option State
  | .creates payload =>
    if s.thread = .running then
      some { s with objects := s.objects ++ [.new finalization payload] }
    else none
  | .read i => s.calls i fun o => o.read finalization
  | .claim i => s.calls i fun o => o.claim finalization
  | .free i => s.calls i NextMessage.free
  | .claimedElsewhere i => s.claimedElsewhere i
  | .finalized i => s.finalized finalization i

abbrev MessageRun (finalization : Bool) :=
  Run (· = State.first) (fun s l t => step finalization s l = some t)

end Deno
