import SkyCurrent.Base.Runs
import SkyCurrent.Iox2.Pages

/- The receiving side of one process after a successful init with both backings: the task of
   tokio.rs that calls recv_stream, the two iox2 actors of backing/combined.rs, the clients of
   backing/ws_gateway.rs, and the mesh around them. Each party takes one step at a time, in
   any order. Iceoryx2 is what the configuration written in backing/iox2.rs asks for, and
   postage's broadcast channel keeps every message, up to its capacity. -/
namespace Combined

open Iox2 (Blob MergeAllocs TryRecvStreamResult)
open Runs

inductive Backing where
  | iox2
  | wsGateway
  deriving DecidableEq, Repr

/-- Backing::from((backing + 1) % _Count). The value _Count itself is `none` in the state. -/
def Backing.next : Backing → Backing
  | .iox2 => .wsGateway
  | .wsGateway => .iox2

inductive IpcError where
  | rejected (error : Iox2.IpcError)
  | interruptSignalReceivedError
  | iox2NotifierNotifyError
  | iox2ListenerWaitError
  | iox2PublisherLoanError
  | iox2PublisherSendError
  | iox2SubscriberReceiveError
  | backingCrashedOrNotStarted
  deriving DecidableEq, Repr

/-- The errors of recv_stream after which the receiver task calls it again. -/
def IpcError.receiverRetries : IpcError → Bool
  | .iox2ListenerWaitError => true
  | .iox2SubscriberReceiveError => true
  | _ => false

/-- The errors of send_stream after which the gateway branch calls it again. -/
def IpcError.senderRetries : IpcError → Bool
  | .iox2NotifierNotifyError => true
  | .iox2PublisherLoanError => true
  | .iox2PublisherSendError => true
  | _ => false

def bufferSize : Nat := 10

/-- Of the actors' channels, of BROADCAST_CHANNEL and of the receiving channel. -/
def channelCapacity : Nat := 100

/-- How long a backing is asked first, in nanoseconds. -/
def slot : Nat := 10000000

inductive Pc where
  | betweenCalls
  -- try_recv_stream: which backing to start on, wait_stream_drain, the for loop
  | tryRecvStream
  | drain
  | tries (left : Nat)
  | tryRecvReply (left : Nat)
  | sendCopy (payload : List UInt8) (headerSize : Nat)
  | sendStream (payload : List UInt8) (headerSize : Nat)
  | sendStreamReply (payload : List UInt8) (headerSize : Nat)
  -- wait_stream: the first poll of its future, select!, and the inline drain
  | waitStream
  | select
  | drainAfterWait
  | panicked
  deriving DecidableEq, Repr

/-- The calls the iox2 receive actor is sent; the first is the one it executes. -/
inductive RecvCall where
  | tryRecvStream
  | waitStream
  deriving DecidableEq, Repr

structure SendCall where
  payload : List UInt8
  headerSize : Nat
  forwarded : Bool
  deriving DecidableEq, Repr

structure Sending where
  left : List Blob
  fragmented : Bool
  forwarded : Bool
  /-- notify(0) comes next, not a page. -/
  notifies : Bool
  result : Except IpcError Unit

/-- handle_client of one websocket client: what it has not read from BROADCAST_CHANNEL, and
    the frame it is sending into the receiving channel. -/
structure Client where
  backlog : List (List UInt8)
  sending : Option (List UInt8)
  deriving DecidableEq, Repr

structure State where
  now : Nat
  pc : Pc
  currentBacking : Option Backing
  entered : Nat
  waitStreamLocks : Backing → Bool
  waitStreamReceiver : List (Except IpcError Backing)
  recvCalls : List RecvCall
  tryRecvReply : Option (Except IpcError TryRecvStreamResult)
  subscriber : List Blob
  /-- An event has arrived at the listener since it last returned. -/
  listener : Bool
  mergeAllocs : MergeAllocs
  sendCalls : List SendCall
  sending : Option Sending
  sendStreamReply : Option (Except IpcError Unit)
  receivingChannelRx : List (List UInt8)
  /-- What the receiver subscribed by ws_gateway::wait_stream has not read. -/
  subscription : Option (List (List UInt8))
  clients : List Client
  /-- What the task has pushed to the link message queue. -/
  received : List (List UInt8)

def init : State where
  now := 0
  pc := .betweenCalls
  currentBacking := none
  entered := 0
  waitStreamLocks := fun _ => false
  waitStreamReceiver := []
  recvCalls := []
  tryRecvReply := none
  subscriber := []
  listener := false
  mergeAllocs := .empty
  sendCalls := []
  sending := none
  sendStreamReply := none
  receivingChannelRx := []
  subscription := none
  clients := []
  received := []

section ReceiverTask

def State.fails (s : State) (error : IpcError) : State :=
  { s with
    subscription := none
    pc := if error.receiverRetries then .betweenCalls else .panicked }

def State.startsOn (s : State) : State :=
  match s.currentBacking with
  | none => { s with currentBacking := some .iox2, entered := s.now }
  | some backing =>
    if s.now - s.entered > slot then
      { s with currentBacking := some backing.next, entered := s.now }
    else s

def State.handleWaitStreamReturn (s : State) (backing : Except IpcError Backing) (after : Pc) :
    State :=
  match backing with
  | .error error => s.fails error
  | .ok backing =>
    { s with waitStreamLocks := Function.update s.waitStreamLocks backing false, pc := after }

def State.drains (s : State) (again after : Pc) : State :=
  match s.waitStreamReceiver with
  | [] => { s with pc := after }
  | backing :: rest => { s with waitStreamReceiver := rest }.handleWaitStreamReturn backing again

def State.triesNext (s : State) (backing : Backing) (left : Nat) : State :=
  { s with currentBacking := some backing.next, entered := s.now, pc := .tries left }

/-- The gateway branch of try_recv_stream, with the frame it has received. -/
def State.unframes (s : State) (frame : List UInt8) : State :=
  if frame.length < 8 then { s with pc := .panicked }
  else
    { s with
      pc := .sendStream (frame.take (frame.length - 8))
        (ByteBuffer.decode (frame.drop (frame.length - 8))) }

/-- One turn of the for loop of try_recv_stream. A blocked backing is skipped, and stays the
    current one. -/
def State.tries (s : State) : Nat → Option State
  | 0 => some { s with pc := .waitStream }
  | left + 1 =>
    match s.currentBacking with
    | none => some { s with pc := .panicked }
    | some backing =>
      if s.waitStreamLocks backing then some { s with pc := .tries left }
      else
        match backing with
        | .iox2 =>
          if s.recvCalls.length < channelCapacity then
            some { s with
              recvCalls := s.recvCalls ++ [.tryRecvStream]
              pc := .tryRecvReply left }
          else none
        | .wsGateway =>
          match s.receivingChannelRx with
          | [] => some (s.triesNext .wsGateway left)
          | frame :: rest => some ({ s with receivingChannelRx := rest }.unframes frame)

def State.hears (s : State) (reply : Except IpcError TryRecvStreamResult) (left : Nat) : State :=
  match reply with
  | .error error => s.fails error
  | .ok (.newCompleted (payload, headerSize)) => { s with pc := .sendCopy payload headerSize }
  | .ok .potentiallyAvailable => { s with pc := .tryRecvStream }
  | .ok .outOfAccessible => s.triesNext .iox2 left

/-- ws_gateway::send_copy waits while the backlog of a client is full. -/
def State.sendsCopy (s : State) (payload : List UInt8) (headerSize : Nat) : Option State :=
  if s.clients.all fun client => client.backlog.length < channelCapacity then
    let copy := payload ++ ByteBuffer.encode 8 headerSize
    some { s with
      clients := s.clients.map fun client => { client with backlog := client.backlog ++ [copy] }
      received := s.received ++ [payload]
      pc := .betweenCalls }
  else none

def State.resends (s : State) (reply : Except IpcError Unit) (payload : List UInt8)
    (headerSize : Nat) : State :=
  match reply with
  | .ok _ => { s with pc := .tryRecvStream }
  | .error error =>
    { s with pc := if error.senderRetries then .sendStream payload headerSize else .panicked }

/-- The first poll of wait_stream, up to its select!. A future does nothing before that, so
    taking it ahead of try_recv_stream leaves no trace. -/
def State.waits (s : State) : Option State :=
  if s.waitStreamLocks .iox2 then some { s with pc := .select }
  else if s.recvCalls.length < channelCapacity then
    some { s with
      recvCalls := s.recvCalls ++ [.waitStream]
      waitStreamLocks := Function.update s.waitStreamLocks .iox2 true
      pc := .select }
  else none

/-- What the receiver task does next by itself. In select! that is to poll the branch of the
    gateway for the first time, which subscribes. -/
def State.proceeds (s : State) : Option State :=
  match s.pc with
  | .betweenCalls => some { s with pc := .tryRecvStream }
  | .tryRecvStream => some { s.startsOn with pc := .drain }
  | .drain => some (s.drains .drain (.tries 2))
  | .tries left => s.tries left
  | .tryRecvReply left =>
    s.tryRecvReply.map fun reply => { s with tryRecvReply := none }.hears reply left
  | .sendCopy payload headerSize => s.sendsCopy payload headerSize
  | .sendStream payload headerSize =>
    if s.sendCalls.length < channelCapacity then
      some { s with
        sendCalls := s.sendCalls ++ [⟨payload, headerSize, true⟩]
        pc := .sendStreamReply payload headerSize }
    else none
  | .sendStreamReply payload headerSize =>
    s.sendStreamReply.map fun reply =>
      { s with sendStreamReply := none }.resends reply payload headerSize
  | .waitStream => s.waits
  | .select => if s.subscription.isNone then some { s with subscription := some [] } else none
  | .drainAfterWait => some (s.drains .drainAfterWait .tryRecvStream)
  | .panicked => none

/-- select! goes on with the branch of a backing that has become ready, and drops the other. -/
def State.wakes (s : State) (backing : Backing) : Option State :=
  if s.pc = .select then
    match backing, s.waitStreamReceiver, s.subscription with
    | .iox2, reply :: rest, _ =>
      some ({ s with waitStreamReceiver := rest, subscription := none }.handleWaitStreamReturn
        reply .drainAfterWait)
    | .wsGateway, _, some (_ :: _) => some { s with subscription := none, pc := .tryRecvStream }
    | _, _, _ => none
  else none

end ReceiverTask

section ReceiveActor

inductive RecvAct where
  | answers
  | errs (error : IpcError)
  deriving DecidableEq, Repr

def RecvCall.mayErr : RecvCall → IpcError → Bool
  | .tryRecvStream, .iox2SubscriberReceiveError => true
  | .waitStream, .iox2ListenerWaitError => true
  | .waitStream, .interruptSignalReceivedError => true
  | _, _ => false

/-- The iox2 receive actor finishes the call it executes. WaitStream blocks it until an event
    arrives or the wait ends in an error. -/
def State.recvActor (shouldCollect : List UInt8 → Bool) (s : State) (act : RecvAct) :
    Option State :=
  match s.recvCalls, act with
  | [], _ => none
  | .tryRecvStream :: rest, .answers =>
    match Iox2.tryRecvStream shouldCollect s.mergeAllocs s.subscriber.head? with
    | none =>
      some { s with recvCalls := rest, tryRecvReply := some (.error .backingCrashedOrNotStarted) }
    | some (result, allocations) =>
      some { s with
        recvCalls := rest
        tryRecvReply := some (.ok result)
        subscriber := s.subscriber.tail
        mergeAllocs := allocations }
  | .waitStream :: rest, .answers =>
    if s.listener then
      some { s with
        recvCalls := rest
        listener := false
        waitStreamReceiver := s.waitStreamReceiver ++ [.ok .iox2] }
    else none
  | .tryRecvStream :: rest, .errs error =>
    if RecvCall.tryRecvStream.mayErr error then
      some { s with recvCalls := rest, tryRecvReply := some (.error error) }
    else none
  | .waitStream :: rest, .errs error =>
    if RecvCall.waitStream.mayErr error then
      some { s with
        recvCalls := rest
        waitStreamReceiver := s.waitStreamReceiver ++ [.error error] }
    else none

end ReceiveActor

section SendActor

inductive SendAct where
  | takes (identification : UInt64)
  | publishes
  | pageFails (error : IpcError)
  | notifies
  | notifyFails
  | interrupted
  deriving DecidableEq, Repr

/-- send_stream of the iox2 backing returns. Other threads than the receiver task hear the
    reply outside the model. -/
def State.sent (s : State) (forwarded : Bool) (result : Except IpcError Unit) : State :=
  { s with
    sending := none
    sendStreamReply := if forwarded then some result else s.sendStreamReply }

def State.takesCall (s : State) (identification : UInt64) : Option State :=
  match s.sendCalls with
  | [] => none
  | call :: rest =>
    if identification = 0 then none
    else
      let s := { s with sendCalls := rest }
      match Iox2.sendStream call.payload call.headerSize identification with
      | none => some (s.sent call.forwarded (.error .backingCrashedOrNotStarted))
      | some (.error error) => some (s.sent call.forwarded (.error (.rejected error)))
      | some (.ok pages) =>
        some { s with
          sending := some
            { left := pages
              fragmented := Iox2.presetN - 8 - 8 - 8 < call.payload.length
              forwarded := call.forwarded
              notifies := false
              result := .ok () } }

/-- send_page. A publisher waits while this process's own subscriber has no room. -/
def State.publishes (s : State) (sending : Sending) : Option State :=
  match sending.left with
  | [] => none
  | page :: left =>
    if s.subscriber.length < bufferSize then
      some { s with
        subscriber := s.subscriber ++ [page]
        sending := some { sending with left := left, notifies := true } }
    else none

/-- A fragment that could not be published is tried again; a payload in one page is not, but
    the error is the result after the notification. -/
def State.pageFails (s : State) (sending : Sending) (error : IpcError) : Option State :=
  if error = .iox2PublisherLoanError ∨ error = .iox2PublisherSendError then
    if sending.fragmented then some s
    else
      some { s with
        sending := some
          { sending with left := sending.left.tail, notifies := true, result := .error error } }
  else none

def State.notified (s : State) (sending : Sending) : State :=
  match sending.left with
  | [] => { s with listener := true }.sent sending.forwarded sending.result
  | _ :: _ => { s with listener := true, sending := some { sending with notifies := false } }

/-- The iox2 send actor goes on with send_stream. An interruption ends the wait between two
    tries of a fragment. -/
def State.sendActor (s : State) (act : SendAct) : Option State :=
  match s.sending, act with
  | none, .takes identification => s.takesCall identification
  | some sending, .publishes => if sending.notifies then none else s.publishes sending
  | some sending, .pageFails error =>
    if sending.notifies then none else s.pageFails sending error
  | some sending, .interrupted =>
    if !sending.notifies && sending.fragmented then
      some (s.sent sending.forwarded (.error .interruptSignalReceivedError))
    else none
  | some sending, .notifies => if sending.notifies then some (s.notified sending) else none
  | some sending, .notifyFails =>
    if sending.notifies then
      some (s.sent sending.forwarded (.error .iox2NotifierNotifyError))
    else none
  | _, _ => none

def State.queues (s : State) (payload : List UInt8) (headerSize : Nat) : Option State :=
  if s.sendCalls.length < channelCapacity then
    some { s with sendCalls := s.sendCalls ++ [⟨payload, headerSize, false⟩] }
  else none

end SendActor

section Around

inductive ClientAct where
  | connects
  | reads (frame : List UInt8)
  | forwards
  | writes
  | closes
  deriving DecidableEq, Repr

/-- message_forwarder.send(frame) waits while a receiver of the channel has a full backlog. -/
def State.forwards (s : State) (clients : List Client) (frame : List UInt8) : Option State :=
  if s.receivingChannelRx.length < channelCapacity ∧
      (s.subscription.getD []).length < channelCapacity then
    some { s with
      clients := clients
      receivingChannelRx := s.receivingChannelRx ++ [frame]
      subscription := s.subscription.map (· ++ [frame]) }
  else none

def State.client (s : State) (c : Nat) (act : ClientAct) : Option State :=
  match act, s.clients[c]? with
  | .connects, none => some { s with clients := s.clients ++ [⟨[], none⟩] }
  | .reads frame, some ⟨backlog, none⟩ =>
    some { s with clients := s.clients.set c ⟨backlog, some frame⟩ }
  | .forwards, some ⟨backlog, some frame⟩ =>
    s.forwards (s.clients.set c ⟨backlog, none⟩) frame
  | .writes, some ⟨_ :: backlog, none⟩ =>
    some { s with clients := s.clients.set c ⟨backlog, none⟩ }
  | .closes, some ⟨_, none⟩ => some { s with clients := s.clients.eraseIdx c }
  | _, _ => none

inductive MeshAct where
  | publishes (page : Blob)
  | notifies

/-- Another process publishes a page or notifies the listeners. -/
def State.mesh (s : State) (act : MeshAct) : Option State :=
  match act with
  | .publishes page =>
    if s.subscriber.length < bufferSize then
      some { s with subscriber := s.subscriber ++ [page] }
    else none
  | .notifies => some { s with listener := true }

end Around

inductive Label where
  | passes (time : Nat)
  | proceeds
  | wakes (backing : Backing)
  | recvActor (act : RecvAct)
  | sendActor (act : SendAct)
  | queues (payload : List UInt8) (headerSize : Nat)
  | client (c : Nat) (act : ClientAct)
  | mesh (act : MeshAct)

def next (shouldCollect : List UInt8 → Bool) (s : State) : Label → Option State
  | .passes time => some { s with now := s.now + time }
  | .proceeds => s.proceeds
  | .wakes backing => s.wakes backing
  | .recvActor act => s.recvActor shouldCollect act
  | .sendActor act => s.sendActor act
  | .queues payload headerSize => s.queues payload headerSize
  | .client c act => s.client c act
  | .mesh act => s.mesh act

abbrev Runs (shouldCollect : List UInt8 → Bool) :=
  Run (· = init) (fun s l t => next shouldCollect s l = some t)

end Combined
