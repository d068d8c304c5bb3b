import Mathlib.Logic.Function.Basic
import SkyCurrent.Base.Runs

/- The handlers of lmq-capi/src/lmq_tokio.rs: the tasks that call the callbacks, the table of
   their join handles and resume channels, and the runtime they share. Any number of threads call
   the C interface at any time, and so do the callbacks. A call is known by its number, and a
   handler by the number of the call that registers it. -/
namespace Capi

open Runs

inductive ResumeMode where
  | resumeWait
  | resumeTry
  deriving DecidableEq, Repr

/-- From<c_int>. Any other value is a panic. -/
def ResumeMode.ofInt : Int → Option ResumeMode
  | 0 => some .resumeWait
  | 1 => some .resumeTry
  | _ => none

inductive Action where
  | actionContinue
  | actionPause
  | actionDeregister
  deriving DecidableEq, Repr

inductive Task where
  | spawned
  | startsPaused
  | next
  | calling
  | paused
  -- the callback is in a call of the C interface
  | inside (c : Nat)
  -- the callback has asked to deregister, and deregister_handler waits for the table
  | deregisters
  | ended (panicked : Bool)
  deriving DecidableEq, Repr

def Task.isOver : Task → Bool
  | .ended _ => true
  | _ => false

structure Handler where
  callbackId : UInt64
  startPaused : Bool
  runtime : Nat
  task : Task
  resumeMode : ResumeMode
  /-- What is in the resume channel, whose capacity is one. -/
  signal : Option ResumeMode
  senderGone : Bool
  aborted : Bool
  -- what has been done to the handler so far
  registered : Bool
  deregistered : Bool
  deregisteredItself : Bool
  deriving DecidableEq, Repr

/-- Where a call is. `sends`, `joins`, `checks` and `drops` hold the lock of the table. -/
inductive Call where
  -- lmq_register_handler
  | getsId (startPaused drewZero : Bool)
  | getsRuntime (startPaused : Bool) (callbackId : UInt64)
  | spawns (startPaused : Bool) (callbackId : UInt64) (rt : Nat)
  | inserts (callbackId : UInt64)
  | registered (callbackId : UInt64)
  -- lmq_resume_handler
  | looksUp (callbackId : UInt64) (noBlock : Int)
  | sends (h : Nat) (mode : ResumeMode)
  | resumed (result : Int)
  -- lmq_deregister_handler
  | getsHandle (callbackId : UInt64)
  | removes (callbackId : UInt64)
  | joins (h : Nat)
  | checks (foundHandler : Bool)
  | drops (rt : Nat) (foundHandler : Bool)
  | deregistered (foundHandler : Bool)
  deriving DecidableEq, Repr

def Call.holdsTable : Call → Bool
  | .sends _ _ => true
  | .joins _ => true
  | .checks _ => true
  | .drops _ _ => true
  | _ => false

def Call.holdsRuntime : Call → Bool
  | .drops _ _ => true
  | _ => false

def Call.registering : Call → Bool
  | .spawns _ _ _ => true
  | .inserts _ => true
  | _ => false

def Call.returned : Call → Bool
  | .registered _ => true
  | .resumed _ => true
  | .deregistered _ => true
  | _ => false

structure State where
  nextCallbackId : UInt64
  /-- TOKIO_RT; runtimes are numbered as they are built. -/
  tokioRt : Option Nat
  runtimes : Nat
  waitTasks : List (UInt64 × Nat)
  handlers : Nat → Option Handler
  calls : List Call
  /-- A panic of a call has ended the process. -/
  crashed : Bool

def init : State where
  nextCallbackId := 1
  tokioRt := none
  runtimes := 0
  waitTasks := []
  handlers := fun _ => none
  calls := []
  crashed := false

def State.locked (s : State) : Bool := s.calls.any Call.holdsTable

def State.dropping (s : State) : Bool := s.calls.any Call.holdsRuntime

def State.registering (s : State) : Bool := s.calls.any Call.registering

def State.entry (s : State) (callbackId : UInt64) : Option Nat :=
  (s.waitTasks.find? fun e => e.1 == callbackId).map (·.2)

def State.without (s : State) (callbackId : UInt64) : List (UInt64 × Nat) :=
  s.waitTasks.filter fun e => e.1 != callbackId

def State.put (s : State) (c : Nat) (call : Call) : State :=
  { s with calls := s.calls.set c call }

def State.modify (s : State) (h : Nat) (f : Handler → Handler) : State :=
  { s with handlers := Function.update s.handlers h ((s.handlers h).map f) }

def State.crash (s : State) : State := { s with crashed := true }

/-- The callback of a handler has made the call. What blocks a thread, blocking_send, block_on
    and the drop of a runtime, is a panic in a task. -/
def State.inTask (s : State) (c : Nat) : Bool :=
  (List.range s.calls.length).any fun h =>
    (s.handlers h).any fun handler => handler.task == .inside c

section Register

/-- get_next_callback_id, up to the first number that is not zero or is the second. -/
def State.getsId (s : State) (c : Nat) (startPaused drewZero : Bool) : State :=
  let id := s.nextCallbackId
  let s := { s with nextCallbackId := id + 1 }
  if id = 0 ∧ drewZero = false then s.put c (.getsId startPaused true)
  else s.put c (.getsRuntime startPaused id)

def State.getOrInsertRt (s : State) : Option (Nat × State) :=
  if s.dropping then none
  else
    match s.tokioRt with
    | some rt => some (rt, s)
    | none => some (s.runtimes, { s with tokioRt := some s.runtimes, runtimes := s.runtimes + 1 })

/-- rt.spawn. A runtime that has been dropped drops the task at once. -/
def State.spawns (s : State) (c : Nat) (startPaused : Bool) (callbackId : UInt64) (rt : Nat) :
    State :=
  let handler : Handler :=
    { callbackId := callbackId
      startPaused := startPaused
      runtime := rt
      task := if s.tokioRt = some rt then .spawned else .ended false
      resumeMode := .resumeWait
      signal := none
      senderGone := false
      aborted := false
      registered := false
      deregistered := false
      deregisteredItself := false }
  { s with handlers := Function.update s.handlers c (some handler) }.put c (.inserts callbackId)

/-- LMQ_WAIT_TASKS.lock().insert(..). An entry that was there already is a panic. -/
def State.inserts (s : State) (c : Nat) (callbackId : UInt64) : Option State :=
  if s.locked then none
  else if (s.entry callbackId).isSome then some s.crash
  else
    some (({ s with waitTasks := s.waitTasks ++ [(callbackId, c)] }.modify c
      fun handler => { handler with registered := true }).put c (.registered callbackId))

end Register

section Resume

def State.looksUp (s : State) (c : Nat) (callbackId : UInt64) (noBlock : Int) : Option State :=
  if s.locked then none
  else
    match s.entry callbackId with
    | none => some (s.put c (.resumed (-1)))
    | some h =>
      match ResumeMode.ofInt noBlock with
      | none => some s.crash
      | some mode => if s.inTask c then some s.crash else some (s.put c (.sends h mode))

/-- signal_tx.blocking_send, which waits while the channel is full. -/
def State.sends (s : State) (c h : Nat) (mode : ResumeMode) : Option State :=
  match s.handlers h with
  | none => none
  | some handler =>
    if handler.task.isOver then some (s.put c (.resumed (-1)))
    else
      match handler.signal with
      | none => some ((s.modify h fun handler => { handler with signal := some mode }).put c
          (.resumed 0))
      | some _ => none

end Resume

section Deregister

def State.removes (s : State) (c : Nat) (callbackId : UInt64) : Option State :=
  if s.locked then none
  else
    match s.entry callbackId with
    | none => some (s.put c (.checks false))
    | some h =>
      if s.inTask c then some s.crash
      else
        some (({ s with waitTasks := s.without callbackId }.modify h
          fun handler => { handler with aborted := true, deregistered := true }).put c (.joins h))

/-- rt.block_on(handle). The sender is dropped after that, when nobody listens any more. -/
def State.joins (s : State) (c h : Nat) : Option State :=
  match (s.handlers h).map Handler.task with
  | some (.ended false) => some (s.put c (.checks true))
  | some (.ended true) => some s.crash
  | _ => none

def State.checks (s : State) (c : Nat) (foundHandler : Bool) : State :=
  match s.waitTasks, s.tokioRt with
  | [], some rt =>
    if s.inTask c then s.crash else { s with tokioRt := none }.put c (.drops rt foundHandler)
  | _, _ => s.put c (.deregistered foundHandler)

def State.idle (s : State) (rt : Nat) : Bool :=
  (List.range s.calls.length).all fun h =>
    (s.handlers h).all fun handler => handler.runtime != rt || handler.task.isOver

end Deregister

def State.goes (s : State) (c : Nat) : Option State :=
  match s.calls[c]? with
  | some (.getsId startPaused drewZero) => some (s.getsId c startPaused drewZero)
  | some (.getsRuntime startPaused callbackId) =>
    s.getOrInsertRt.map fun (rt, s) => s.put c (.spawns startPaused callbackId rt)
  | some (.spawns startPaused callbackId rt) => some (s.spawns c startPaused callbackId rt)
  | some (.inserts callbackId) => s.inserts c callbackId
  | some (.looksUp callbackId noBlock) => s.looksUp c callbackId noBlock
  | some (.sends h mode) => s.sends c h mode
  | some (.getsHandle callbackId) =>
    s.getOrInsertRt.map fun (_, s) => s.put c (.removes callbackId)
  | some (.removes callbackId) => s.removes c callbackId
  | some (.joins h) => s.joins c h
  | some (.checks foundHandler) => some (s.checks c foundHandler)
  | some (.drops rt foundHandler) =>
    if s.idle rt then some (s.put c (.deregistered foundHandler)) else none
  | _ => none

section Tasks

inductive TaskAct where
  | polls
  | message
  | returns (action : Action)
  | hears
  /-- The task is dropped where it waits: it has been aborted, or its runtime dropped. -/
  | dropped
  deriving DecidableEq, Repr

def Handler.loops (handler : Handler) : Handler :=
  match handler.resumeMode with
  | .resumeWait => { handler with task := .next }
  | .resumeTry => { handler with task := .calling }

def Handler.hears (handler : Handler) : Option Handler :=
  match handler.signal with
  | some mode => some { handler with signal := none, resumeMode := mode }.loops
  | none => if handler.senderGone then some { handler with task := .ended false } else none

/-- A step of the task of a handler that does not touch the table. `gone` says that its runtime
    has been dropped. A message or a signal that is there already is taken without waiting. -/
def Handler.acts (gone : Bool) (handler : Handler) (act : TaskAct) : Option Handler :=
  match act, handler.task with
  | .polls, .spawned =>
    if handler.aborted || gone then none
    else if handler.startPaused then some { handler with task := .startsPaused }
    else some handler.loops
  | .message, .next => some { handler with task := .calling }
  | .returns .actionContinue, .calling => some handler.loops
  | .returns .actionPause, .calling => some { handler with task := .paused }
  | .returns .actionDeregister, .calling => some { handler with task := .deregisters }
  | .hears, .startsPaused => handler.hears
  | .hears, .paused => handler.hears
  | .dropped, .calling => none
  | .dropped, .inside _ => none
  | .dropped, .deregisters => none
  | .dropped, .ended _ => none
  | .dropped, _ =>
    if handler.aborted || gone then some { handler with task := .ended false } else none
  | _, _ => none

def State.task (s : State) (h : Nat) (act : TaskAct) : Option State := do
  let handler ← s.handlers h
  let handler ← handler.acts (s.tokioRt != some handler.runtime) act
  some { s with handlers := Function.update s.handlers h (some handler) }

def State.dropsSender (s : State) (entry : Option Nat) : State :=
  match entry with
  | none => s
  | some h => s.modify h fun handler => { handler with senderGone := true }

/-- deregister_handler in a task whose callback has asked for it. A runtime cannot be dropped by
    a task: it is shut down, and the task panics. Nobody holds TOKIO_RT for longer than a moment
    while the table is free. -/
def State.deregistersItself (s : State) (h : Nat) : Option State :=
  match s.handlers h with
  | none => none
  | some handler =>
    if handler.task = .deregisters ∧ s.locked = false then
      let rest := s.without handler.callbackId
      some ({ s.dropsSender (s.entry handler.callbackId) with
        waitTasks := rest
        tokioRt := if rest.isEmpty then none else s.tokioRt }.modify h fun handler =>
          { handler with
            task := .ended (rest.isEmpty && s.tokioRt.isSome)
            deregisteredItself := true })
    else none

end Tasks

inductive Start where
  | registers (startPaused : Bool)
  | resumes (callbackId : UInt64) (noBlock : Int)
  | deregisters (callbackId : UInt64)
  deriving DecidableEq, Repr

def Start.call : Start → Call
  | .registers startPaused => .getsId startPaused false
  | .resumes callbackId noBlock => .looksUp callbackId noBlock
  | .deregisters callbackId => .getsHandle callbackId

def State.callsInside (s : State) (h : Nat) (start : Start) : Option State := do
  let handler ← s.handlers h
  if handler.task = .calling then
    some { s with
      handlers := Function.update s.handlers h
        (some { handler with task := .inside s.calls.length })
      calls := s.calls ++ [start.call] }
  else none

def State.comesBack (s : State) (h : Nat) : Option State := do
  let handler ← s.handlers h
  match handler.task with
  | .inside c =>
    if s.calls[c]?.any Call.returned then
      some { s with
        handlers := Function.update s.handlers h (some { handler with task := .calling }) }
    else none
  | _ => none

inductive Label where
  | calls (start : Start)
  | callsInside (h : Nat) (start : Start)
  | comesBack (h : Nat)
  | goes (c : Nat)
  | task (h : Nat) (act : TaskAct)
  | deregistersItself (h : Nat)
  deriving DecidableEq, Repr

def next (s : State) (l : Label) : Option State :=
  if s.crashed then none
  else
    match l with
    | .calls start => some { s with calls := s.calls ++ [start.call] }
    | .callsInside h start => s.callsInside h start
    | .comesBack h => s.comesBack h
    | .goes c => s.goes c
    | .task h act => s.task h act
    | .deregistersItself h => s.deregistersItself h

abbrev Runs := Run (· = init) (fun s l t => next s l = some t)

end Capi
