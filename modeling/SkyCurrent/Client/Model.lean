import SkyCurrent.Base.Runs
import SkyCurrent.Gateway.Trip

/- The web client of skycurrent-ws-client/src/index.ts: its globals, the sockets it has made, and
   all that may happen in one turn of the event loop. The promise of init and the message
   handler touch none of this. -/
namespace Client

open Runs

inductive ReadyState where
  | connecting
  | opened
  | closing
  | closed
  deriving DecidableEq, Repr

inductive Event where
  | awaited
  | queued
  | handled
  deriving DecidableEq, Repr

structure Socket where
  readyState : ReadyState
  openEvent : Event
  closeEvent : Event
  early : readyState = .connecting → openEvent = .awaited
  late : closeEvent = .awaited ↔ readyState ≠ .closed
  deriving DecidableEq, Repr

namespace Socket

def new : Socket := ⟨.connecting, .awaited, .awaited, by decide, by decide⟩

def opens (socket : Socket) : Option Socket :=
  if connecting : socket.readyState = .connecting then
    some { socket with
      readyState := .opened
      openEvent := .queued
      early := by simp
      late := by simp [socket.late, connecting] }
  else none

def closing (socket : Socket) : Option Socket :=
  if opened : socket.readyState = .opened then
    some { socket with
      readyState := .closing
      early := by simp
      late := by simp [socket.late, opened] }
  else none

def close (socket : Socket) : Socket :=
  if running : socket.readyState = .connecting ∨ socket.readyState = .opened then
    { socket with
      readyState := .closing
      early := by simp
      late := by rcases running with h | h <;> simp [socket.late, h] }
  else socket

def closes (socket : Socket) : Option Socket :=
  if socket.readyState = .closed then none
  else some { socket with
    readyState := .closed
    closeEvent := .queued
    early := by simp
    late := by simp }

def takesOpen (socket : Socket) : Option Socket :=
  if queued : socket.openEvent = .queued then
    some { socket with
      openEvent := .handled
      early := fun connecting => by simp [socket.early connecting] at queued }
  else none

def takesClose (socket : Socket) : Option Socket :=
  if queued : socket.closeEvent = .queued ∧ socket.openEvent ≠ .queued then
    some { socket with
      closeEvent := .handled
      late := by simp [← socket.late, queued.1] }
  else none

end Socket

structure Pending where
  call : Nat
  frame : List UInt8
  deriving DecidableEq, Repr

/-- A listener attemptSend has registered. Its removeListener is bound when onConnectionChange
    has returned. -/
structure Listener where
  id : Nat
  pending : Pending
  bound : Bool
  deriving DecidableEq, Repr

/-- `timers` counts the calls of setTimeout(init), `inits` the calls of init that wait for
    lmq.default(). `sent` is what webSocket.send was given, `calls` and `rejected` are the calls of
    sendStream; `userClosed` says whether the user has called close() since the last init(). -/
structure State where
  queue : Bool
  webSocket : Option Nat
  isConnectedInternal : Bool
  connectionListeners : List Listener
  sockets : List Socket
  timers : Nat
  inits : Nat
  listeners : Nat
  calls : List (List UInt8)
  sent : List (Nat × Pending)
  rejected : List Nat
  userClosed : Bool
  deriving DecidableEq, Repr

def State.first : State where
  queue := false
  webSocket := none
  isConnectedInternal := false
  connectionListeners := []
  sockets := []
  timers := 0
  inits := 0
  listeners := 0
  calls := []
  sent := []
  rejected := []
  userClosed := false

namespace State

def readyState (s : State) : Option ReadyState :=
  s.webSocket.bind fun g => (s.sockets[g]?).map (·.readyState)

def openSocket (s : State) : Option Nat :=
  if s.readyState = some .opened then s.webSocket else none

def throws (s : State) (listener : Listener) : Bool :=
  s.isConnectedInternal && !listener.bound

def onConnectionChange (s : State) (pending : Pending) : State × Bool :=
  let listener : Listener := ⟨s.listeners, pending, false⟩
  let returned := !s.throws listener
  ({ s with
      listeners := s.listeners + 1
      connectionListeners := s.connectionListeners ++ [{ listener with bound := returned }] },
    returned)

def attemptSend (s : State) (pending : Pending) : State × Bool :=
  match s.openSocket with
  | some g => ({ s with sent := s.sent ++ [(g, pending)] }, true)
  | none => s.onConnectionChange pending

def removeListener (s : State) (listener : Listener) : State :=
  { s with connectionListeners := s.connectionListeners.filter (·.id != listener.id) }

/-- One turn of the loop in notifyConnectionListeners, which catches what the listener throws. -/
def notify (s : State) (listener : Listener) : State :=
  if s.throws listener then s
  else if s.isConnectedInternal then
    ((s.removeListener listener).attemptSend listener.pending).1
  else s

/-- The loop goes over the array it started with: removeListener puts another in its place
    before anything is pushed. -/
def notifyConnectionListeners (s : State) : State :=
  s.connectionListeners.foldl notify s

def connectWebSocket (s : State) (constructed : Bool) : State :=
  if constructed then
    { s with
      webSocket := some s.sockets.length
      sockets := s.sockets ++ [.new] }
  else
    let s := { s with isConnectedInternal := false }.notifyConnectionListeners
    { s with timers := s.timers + 1 }

def initContinues (s : State) (queueMade constructed : Bool) : State :=
  if !s.queue && !queueMade then s
  else
    let s := { s with queue := true }
    let s := if s.webSocket.isNone then s.connectWebSocket constructed else s
    if s.readyState = some .closing ∨ s.readyState = some .closed then
      s.connectWebSocket constructed
    else s

/-- What is thrown while a promise is made rejects it. -/
def startsSending (s : State) (resultBuffer : List UInt8) : State :=
  let pending : Pending := ⟨s.calls.length, resultBuffer⟩
  let (s, returned) := { s with calls := s.calls ++ [resultBuffer] }.attemptSend pending
  if returned then s else { s with rejected := s.rejected ++ [pending.call] }

def sendStream (s : State) (payload : List UInt8) (headerSize : Nat) : State :=
  match Gateway.sendStream payload headerSize with
  | none => { s with calls := s.calls ++ [[]], rejected := s.rejected ++ [s.calls.length] }
  | some resultBuffer => s.startsSending resultBuffer

def close (s : State) : State :=
  match s.webSocket with
  | none => { s with userClosed := true }
  | some g =>
    let s := { s with webSocket := none, isConnectedInternal := false }.notifyConnectionListeners
    { s with sockets := s.sockets.modify g Socket.close, userClosed := true }

def onOpen (s : State) : State :=
  { s with isConnectedInternal := true }.notifyConnectionListeners

def onClose (s : State) : State :=
  let s := { s with isConnectedInternal := false }.notifyConnectionListeners
  { s with timers := s.timers + 1 }

def moves (s : State) (g : Nat) (move : Socket → Option Socket) : Option State := do
  let socket ← s.sockets[g]?
  let socket ← move socket
  some { s with sockets := s.sockets.set g socket }

end State

/-- What the page, the browser and the other end may do. An error event concerns the promises
    of init only. -/
inductive Label where
  | init
  | sendStream (payload : List UInt8) (headerSize : Nat)
  | close
  | timer
  | initContinues (queueMade constructed : Bool)
  | opens (g : Nat)
  | closing (g : Nat)
  | closes (g : Nat)
  | openEvent (g : Nat)
  | errorEvent (g : Nat)
  | closeEvent (g : Nat)
  deriving DecidableEq, Repr

def step (s : State) : Label → Option State
  | .init => some { s with inits := s.inits + 1, userClosed := false }
  | .sendStream payload headerSize => some (s.sendStream payload headerSize)
  | .close => some s.close
  | .timer =>
    if 0 < s.timers then some { s with timers := s.timers - 1, inits := s.inits + 1 } else none
  | .initContinues queueMade constructed =>
    if 0 < s.inits then
      some ({ s with inits := s.inits - 1 }.initContinues queueMade constructed)
    else none
  | .opens g => s.moves g Socket.opens
  | .closing g => s.moves g Socket.closing
  | .closes g => s.moves g Socket.closes
  | .openEvent g => (s.moves g Socket.takesOpen).map State.onOpen
  | .errorEvent g => s.moves g some
  | .closeEvent g => (s.moves g Socket.takesClose).map State.onClose

abbrev ClientRun := Run (· = State.first) (fun s l t => step s l = some t)

end Client
