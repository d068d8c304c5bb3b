import SkyCurrent.Capi.Model

/- MessageConsumer of src/lmq-deno/mod.ts: the promises of next and try_next, over the handlers of
   src/lmq-capi/src/lmq_tokio.rs. The program, the callbacks and the timers share the JavaScript
   thread, and the task of a handler waits in its callback until the event loop has run it.
   A consumer keeps itself alive through its callback, so that no finalizer runs for it. -/
namespace Deno.EventLoop

open Capi (ResumeMode Task TaskAct Handler)
open Runs

inductive Settled where
  | pending
  | fulfilled (message : Option Nat)
  | rejected
  deriving DecidableEq, Repr

structure Promise where
  mode : ResumeMode
  settled : Settled
  deriving DecidableEq, Repr

/-- Messages are known by their pointers, and `none` is the null pointer. -/
structure MessageConsumer where
  underlyingConsumer : Bool
  callback : Bool
  callbackId : Option UInt64
  /-- The promise whose resolve is in #_resolve. -/
  resolve : Option Nat
  promises : List Promise
  handler : Handler
  /-- What the task calls the callback with, until the event loop has run it. -/
  message : Option (Option Nat)
  /-- What the callback has been called with so far. -/
  called : List (Option Nat)
  deriving DecidableEq, Repr

/-- The JavaScript thread: it is free for the program and the event loop, it is in
    lmq_resume_handler or lmq_deregister_handler, or an error has not been caught. -/
inductive Thread where
  | free
  | resumes (c : Nat) (mode : ResumeMode)
  | joins (c : Nat)
  | crashed
  deriving DecidableEq, Repr

structure State where
  consumers : List MessageConsumer
  /-- setTimeout of a callback: the consumer and the message. -/
  timers : List (Nat × Option Nat)
  thread : Thread
  deriving DecidableEq, Repr

def init : State := ⟨[], [], .free⟩

namespace MessageConsumer

def new (callbackId : UInt64) (rt : Nat) : MessageConsumer where
  underlyingConsumer := true
  callback := true
  callbackId := some callbackId
  resolve := none
  promises := []
  handler :=
    { callbackId := callbackId
      startPaused := true
      runtime := rt
      task := .spawned
      resumeMode := .resumeWait
      signal := none
      senderGone := false
      aborted := false
      registered := true
      deregistered := false
      deregisteredItself := false }
  message := none
  called := []

def promise (m : MessageConsumer) (mode : ResumeMode) : MessageConsumer :=
  { m with resolve := some m.promises.length, promises := m.promises ++ [⟨mode, .pending⟩] }

def settle (m : MessageConsumer) (p : Nat) (settled : Settled) : MessageConsumer :=
  { m with promises := m.promises.modify p fun promise => { promise with settled := settled } }

def reject (m : MessageConsumer) : MessageConsumer := m.settle (m.promises.length - 1) .rejected

/-- A step of the task. The callback returns LMQ_ACTION_PAUSE and nothing else. -/
def task (m : MessageConsumer) (act : TaskAct) (got : Option Nat) : Option MessageConsumer :=
  if act matches .returns _ then
    if act = .returns .actionPause ∧ m.message = none then do
      let handler ← m.handler.acts false act
      some { m with handler := handler }
    else none
  else do
    let handler ← m.handler.acts false act
    if handler.task = .calling then
      -- next gives a message, try_next a message or none
      if handler.resumeMode = .resumeWait ∧ got = none then none
      else some { m with handler := handler, message := some got, called := m.called ++ [got] }
    else some { m with handler := handler }

end MessageConsumer

def State.put (s : State) (c : Nat) (m : MessageConsumer) : State :=
  { s with consumers := s.consumers.set c m }

/-- _proceed, up to the native call. It throws while #_resolve is set. -/
def State.proceed (s : State) (c : Nat) (mode : ResumeMode) : Option State := do
  let m ← s.consumers[c]?
  if m.resolve.isSome then some s
  else if m.callbackId.isSome then
    some { s.put c (m.promise mode) with thread := .resumes c mode }
  else some (s.put c (m.promise mode).reject)

/-- lmq_resume_handler, which waits while the channel is full, and the rest of _proceed. -/
def State.resumed (s : State) (c : Nat) (mode : ResumeMode) : Option State := do
  let m ← s.consumers[c]?
  if m.handler.task.isOver then some { s.put c m.reject with thread := .free }
  else if m.handler.signal.isSome then none
  else
    some { s.put c { m with handler := { m.handler with signal := some mode } } with
      thread := .free }

def State.free (s : State) (c : Nat) : Option State := do
  let m ← s.consumers[c]?
  if m.callbackId.isSome then
    some { s.put c { m with
        handler := { m.handler with aborted := true, deregistered := true } } with
      thread := .joins c }
  else some s

/-- lmq_deregister_handler, which waits for the end of the task, and the rest of free. -/
def State.joined (s : State) (c : Nat) : Option State := do
  let m ← s.consumers[c]?
  match m.handler.task with
  | .ended false =>
    some { s.put c { m with
        callbackId := none
        underlyingConsumer := false
        callback := false } with
      thread := .free }
  | .ended true => some { s with thread := .crashed }
  | _ => none

def State.callback (s : State) (c : Nat) : Option State := do
  let m ← s.consumers[c]?
  let message ← m.message
  some { s.put c { m with message := none } with timers := s.timers ++ [(c, message)] }

def State.timer (s : State) (k : Nat) : Option State := do
  let (c, message) ← s.timers[k]?
  let m ← s.consumers[c]?
  match m.resolve with
  | some p =>
    some { s.put c { m.settle p (.fulfilled message) with resolve := none } with
      timers := s.timers.eraseIdx k }
  | none => some { s with thread := .crashed }

inductive Label where
  | creates (callbackId : UInt64) (rt : Nat)
  | proceeds (c : Nat) (mode : ResumeMode)
  | frees (c : Nat)
  | returns
  | task (c : Nat) (act : TaskAct) (got : Option Nat)
  | callback (c : Nat)
  | timer (k : Nat)
  deriving DecidableEq, Repr

/-- A callback_id is never 0, which #_callbackId would not count as set. -/
def next (s : State) : Label → Option State
  | .creates callbackId rt =>
    if s.thread = .free ∧ callbackId ≠ 0 then
      some { s with consumers := s.consumers ++ [.new callbackId rt] }
    else none
  | .proceeds c mode => if s.thread = .free then s.proceed c mode else none
  | .frees c => if s.thread = .free then s.free c else none
  | .returns =>
    match s.thread with
    | .resumes c mode => s.resumed c mode
    | .joins c => s.joined c
    | _ => none
  | .task c act got =>
    if s.thread = .crashed then none
    else do
      let m ← s.consumers[c]?
      let m ← m.task act got
      some (s.put c m)
  | .callback c => if s.thread = .free then s.callback c else none
  | .timer k => if s.thread = .free then s.timer k else none

abbrev LoopRun := Run (· = init) (fun s l t => next s l = some t)

end Deno.EventLoop
