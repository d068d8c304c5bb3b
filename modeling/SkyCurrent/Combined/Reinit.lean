import SkyCurrent.Combined.Model
import SkyCurrent.Iox2.Repeats

/- init of backing/combined.rs called again before close: the statics it writes, the actor
   threads it starts, each with a merge table and a subscriber of its own, and the calls that
   are under way. The receiver for wait_stream belongs to the channel that one init has made,
   and an actor keeps the sending end of the channel that was made when it was started. -/
namespace Combined

open Iox2 (Blob Message MergeAllocs Merging TryRecvStreamResult completed receiveAll)
open Runs

structure InitFlags where
  iox2Recv : Bool
  iox2Send : Bool
  wsGateway : Bool
  deriving DecidableEq, Repr

inductive InitError where
  | missingGlobalProjectDirectory
  | backingCrashed
  | iox2InitError
  | wsGatewayInitError
  deriving DecidableEq, Repr

structure InitResults where
  recv : Except InitError Unit
  send : Except InitError Unit
  gateway : Except InitError Unit

structure RecvActor where
  respondToWaitStream : Nat
  calls : List RecvCall
  listener : Bool
  subscriber : List Blob
  mergeAllocs : MergeAllocs
  panicked : Bool

def RecvActor.start (channel : Nat) : RecvActor :=
  ⟨channel, [], false, [], .empty, false⟩

structure Setup where
  projectDir : Bool
  /-- An init has succeeded, and close has not been called since. -/
  succeeded : Bool
  channels : Nat
  /-- WAIT_STREAM_RECEIVER: which channel it belongs to, and what has come in. -/
  waitStreamReceiver : Option (Nat × List (Except IpcError Unit))
  /-- A wait_stream under way has WAIT_STREAM_RECEIVER locked. -/
  polling : Bool
  waitStreamLocks : Bool
  recvActors : List RecvActor
  recvSenderTx : Option Nat
  recvJoinHandle : Option Nat
  sendActors : Nat
  sendSenderTx : Option Nat
  sendJoinHandle : Option Nat
  gateway : Bool

def Setup.first : Setup :=
  ⟨false, false, 0, none, false, false, [], none, none, 0, none, none, false⟩

section Init

def Setup.opensChannel (s : Setup) : Setup :=
  { s with channels := s.channels + 1, waitStreamReceiver := some (s.channels, []) }

/-- The sender of a thread whose initialization fails is dropped, its join handle is stored. -/
def Setup.spawnsRecv (s : Setup) (channel : Nat) (result : Except InitError Unit) :
    Setup × Except InitError Unit :=
  let actor := s.recvActors.length
  let s := { s with
    recvActors := s.recvActors ++ [.start channel]
    recvJoinHandle := some actor }
  match result with
  | .error error => (s, .error error)
  | .ok _ => ({ s with recvSenderTx := some actor }, .ok ())

def Setup.spawnsSend (s : Setup) (result : Except InitError Unit) :
    Setup × Except InitError Unit :=
  let actor := s.sendActors
  let s := { s with sendActors := s.sendActors + 1, sendJoinHandle := some actor }
  match result with
  | .error error => (s, .error error)
  | .ok _ => ({ s with sendSenderTx := some actor }, .ok ())

/-- ws_gateway::init, which is a no-op when it has succeeded before. -/
def Setup.opensGateway (s : Setup) (result : Except InitError Unit) :
    Setup × Except InitError Unit :=
  if s.gateway then (s, .ok ())
  else
    match result with
    | .error error => (s, .error error)
    | .ok _ => ({ s with gateway := true }, .ok ())

def andThen (done : Setup × Except InitError Unit) (flag : Bool)
    (part : Setup → Setup × Except InitError Unit) : Setup × Except InitError Unit :=
  match done.2 with
  | .error _ => done
  | .ok _ => if flag then part done.1 else done

def Setup.init (s : Setup) (flags : InitFlags) (results : InitResults) :
    Setup × Except InitError Unit :=
  let channel := s.channels
  let s := s.opensChannel
  if s.projectDir then
    let done := andThen (s, .ok ()) flags.iox2Recv (·.spawnsRecv channel results.recv)
    let done := andThen done flags.iox2Send (·.spawnsSend results.send)
    andThen done flags.wsGateway (·.opensGateway results.gateway)
  else (s, .error .missingGlobalProjectDirectory)

end Init

section Calls

def RecvActor.answers (shouldCollect : List UInt8 → Bool) (actor : RecvActor) :
    Option (RecvActor × Option (Except IpcError Unit)) :=
  match actor.calls with
  | [] => none
  | .tryRecvStream :: rest =>
    match Iox2.tryRecvStream shouldCollect actor.mergeAllocs actor.subscriber.head? with
    | none => some ({ actor with calls := [], panicked := true }, none)
    | some (_, allocations) =>
      some ({ actor with
        calls := rest
        subscriber := actor.subscriber.tail
        mergeAllocs := allocations }, none)
  | .waitStream :: rest =>
    if actor.listener then some ({ actor with calls := rest, listener := false }, some (.ok ()))
    else none

def RecvActor.errs (actor : RecvActor) (error : IpcError) :
    Option (RecvActor × Option (Except IpcError Unit)) :=
  match actor.calls with
  | [] => none
  | .tryRecvStream :: rest => some ({ actor with calls := rest }, none)
  | .waitStream :: rest => some ({ actor with calls := rest }, some (.error error))

/-- A reply reaches the stored receiver if it is the one of the channel it is sent on. -/
def Setup.replies (s : Setup) (channel : Nat) (reply : Option (Except IpcError Unit)) : Setup :=
  match reply, s.waitStreamReceiver with
  | some reply, some (stored, replies) =>
    if stored = channel then { s with waitStreamReceiver := some (stored, replies ++ [reply]) }
    else s
  | _, _ => s

def Setup.recvActor (s : Setup) (a : Nat)
    (act : RecvActor → Option (RecvActor × Option (Except IpcError Unit))) : Option Setup := do
  let actor ← s.recvActors[a]?
  let (actor', reply) ← act actor
  some ({ s with recvActors := s.recvActors.set a actor' }.replies actor.respondToWaitStream reply)

def Setup.onActor (s : Setup) (a : Nat) (f : RecvActor → RecvActor) : Setup :=
  { s with recvActors := s.recvActors.modify a f }

/-- actor_call!(IOX2_RECV_SENDER_TX, call), which is an error where there is no actor. -/
def Setup.sends (s : Setup) (call : RecvCall) : Option Setup := do
  let a ← s.recvSenderTx
  let actor ← s.recvActors[a]?
  if actor.panicked then none
  else some (s.onActor a fun actor => { actor with calls := actor.calls ++ [call] })

def Setup.waits (s : Setup) : Option Setup :=
  if s.polling || s.waitStreamReceiver.isNone then none
  else if s.waitStreamLocks then some { s with polling := true }
  else (s.sends .waitStream).map fun s => { s with waitStreamLocks := true, polling := true }

def Setup.hears (s : Setup) : Option Setup :=
  match s.waitStreamReceiver with
  | some (stored, reply :: replies) =>
    let s := { s with waitStreamReceiver := some (stored, replies) }
    match reply with
    | .ok _ => some { s with waitStreamLocks := false }
    | .error _ => some s
  | _ => none

def Setup.close (s : Setup) : Setup :=
  { s with
    succeeded := false
    recvSenderTx := none
    recvJoinHandle := none
    sendSenderTx := none
    sendJoinHandle := none
    waitStreamLocks := false
    waitStreamReceiver := none }

end Calls

inductive Turn where
  | setGlobalProjectDir
  | init (flags : InitFlags) (results : InitResults)
  | close
  | waitStream
  /-- A wait_stream under way returns or is dropped. -/
  | returns
  | hears
  | tryRecvStream
  | answers (a : Nat)
  | errs (a : Nat) (error : IpcError)
  | event (a : Nat)
  | arrives (a : Nat) (page : Blob)

/-- init waits for WAIT_STREAM_RECEIVER, and a backing that is locked is not asked. -/
def turn (shouldCollect : List UInt8 → Bool) (s : Setup) : Turn → Option Setup
  | .setGlobalProjectDir => some { s with projectDir := true }
  | .init flags results =>
    if s.polling then none
    else
      let (s', result) := s.init flags results
      some { s' with succeeded := s.succeeded || result.isOk }
  | .close => if s.polling then none else some s.close
  | .waitStream => s.waits
  | .returns => if s.polling then some { s with polling := false } else none
  | .hears => s.hears
  | .tryRecvStream => if s.waitStreamLocks then none else s.sends .tryRecvStream
  | .answers a => s.recvActor a (·.answers shouldCollect)
  | .errs a error => s.recvActor a (·.errs error)
  | .event a => some (s.onActor a fun actor => { actor with listener := true })
  | .arrives a page =>
    some (s.onActor a fun actor => { actor with subscriber := actor.subscriber ++ [page] })

def Turn.ordinary : Turn → Bool
  | .init .. | .close => false
  | _ => true

abbrev SetupReachable (shouldCollect : List UInt8 → Bool) : Setup → Prop :=
  Reachable (· = Setup.first) (fun s l t => turn shouldCollect s l = some t)

section Harmless

def Freed (shouldCollect : List UInt8 → Bool) (s : Setup) : Prop :=
  ∃ trace t, Run (· = s) (fun s l t => turn shouldCollect s l = some t) trace t ∧
    (∀ e ∈ trace, e.2.ordinary = true) ∧ t.waitStreamLocks = false

def Setup.serving (s : Setup) : MergeAllocs :=
  match s.recvSenderTx.bind (s.recvActors[·]?) with
  | some actor => actor.mergeAllocs
  | none => .empty

def Completes (shouldCollect : List UInt8 → Bool) (allocations : MergeAllocs) (m : Message)
    (order : List Nat) : Prop :=
  ∃ blobs results allocations', order.mapM (fun i => m.pages[i]?) = some blobs ∧
    receiveAll shouldCollect allocations blobs = some (results, allocations') ∧
    (m.payload, m.headerSize) ∈ completed results

/-- Some chunks of a message that is wanted are merged, and these are missing. -/
structure HalfMerged (shouldCollect : List UInt8 → Bool) (allocations : MergeAllocs) (m : Message)
    (arrived : Finset Nat) (order : List Nat) : Prop where
  cut : m.Cut
  few : m.numChunks < 2 ^ 32
  wanted : shouldCollect m.header = true
  some_ : arrived.Nonempty
  merging : Merging allocations m arrived
  nodup : order.Nodup
  missing : ∀ i, i ∈ order ↔ i < m.numChunks ∧ i ∉ arrived
  inside : arrived ⊂ Finset.range m.numChunks

/-- What init called again is to leave as it was, and that it reports success. -/
structure Harmless (shouldCollect : List UInt8 → Bool) (s : Setup)
    (done : Setup × Except InitError Unit) : Prop where
  wait : s.waitStreamLocks = true → Freed shouldCollect done.1
  merges : ∀ m arrived order, HalfMerged shouldCollect s.serving m arrived order →
    Completes shouldCollect done.1.serving m order
  recvActor : done.1.recvSenderTx = s.recvSenderTx
  recvThread : done.1.recvJoinHandle = s.recvJoinHandle
  sendActor : done.1.sendSenderTx = s.sendSenderTx
  sendThread : done.1.sendJoinHandle = s.sendJoinHandle
  gateway : done.1.gateway = s.gateway
  answers : ∀ a actor, done.1.recvSenderTx = some a → done.1.recvActors[a]? = some actor →
    ∃ replies, done.1.waitStreamReceiver = some (actor.respondToWaitStream, replies)
  result : done.2 = .ok ()

def startsRecv (flags : InitFlags) (results : InitResults) : Bool :=
  flags.iox2Recv && results.recv.isOk

/-- There is no receive actor, no actor is to be started, and the gateway is not to be opened
    for the first time. -/
def NothingToDo (s : Setup) (flags : InitFlags) : Prop :=
  s.recvSenderTx = none ∧ flags.iox2Recv = false ∧ flags.iox2Send = false ∧
    (flags.wsGateway = true → s.gateway = true)

end Harmless

section Steps

variable {shouldCollect : List UInt8 → Bool} {s t : Setup} {l : Turn}

structure InitLeaves (s : Setup) (flags : InitFlags) (results : InitResults) (s' : Setup) :
    Prop where
  receiver : s'.waitStreamReceiver = some (s.channels, [])
  channels : s'.channels = s.channels + 1
  locks : s'.waitStreamLocks = s.waitStreamLocks
  projectDir : s'.projectDir = s.projectDir
  recvActors : s'.recvActors = s.recvActors ∨
    s'.recvActors = s.recvActors ++ [.start s.channels]
  recvSenderTx : s'.recvSenderTx = s.recvSenderTx ∨ s'.recvSenderTx = some s.recvActors.length ∧
    s'.recvActors = s.recvActors ++ [.start s.channels]
  recvJoinHandle : s'.recvJoinHandle = s.recvJoinHandle ∨
    s'.recvJoinHandle = some s.recvActors.length ∧
      s'.recvActors = s.recvActors ++ [.start s.channels]
  sendActors : s.sendActors ≤ s'.sendActors
  sendSenderTx : s'.sendSenderTx = s.sendSenderTx ∨ s'.sendSenderTx = some s.sendActors ∧
    s'.sendActors = s.sendActors + 1
  sendJoinHandle : s'.sendJoinHandle = s.sendJoinHandle ∨
    s'.sendJoinHandle = some s.sendActors ∧ s'.sendActors = s.sendActors + 1
  started : s.projectDir = true → startsRecv flags results = true →
    s'.recvSenderTx = some s.recvActors.length
  recvThread : s.projectDir = true → flags.iox2Recv = true →
    s'.recvJoinHandle = some s.recvActors.length
  sendThread : s.projectDir = true → flags.iox2Recv = false → flags.iox2Send = true →
    s'.sendJoinHandle = some s.sendActors

theorem gateway_part (done : Setup × Except InitError Unit) (flag : Bool)
    (result : Except InitError Unit) :
    ∃ gateway, (andThen done flag (·.opensGateway result)).1 = { done.1 with gateway } := by
  unfold andThen Setup.opensGateway
  cases done.2 with
  | error error => exact ⟨done.1.gateway, rfl⟩
  | ok _ =>
    cases flag with
    | false => exact ⟨done.1.gateway, rfl⟩
    | true =>
      simp only [if_true]
      split
      · exact ⟨done.1.gateway, rfl⟩
      · cases result with
        | error error => exact ⟨done.1.gateway, rfl⟩
        | ok _ => exact ⟨true, rfl⟩

theorem recv_part (s : Setup) (flags : InitFlags) (results : InitResults) (channel : Nat) :
    let done := andThen (s, .ok ()) flags.iox2Recv (·.spawnsRecv channel results.recv)
    (done.2.isOk = (!flags.iox2Recv || results.recv.isOk)) ∧
      done.1 = { s with
        recvActors := s.recvActors ++ if flags.iox2Recv then [.start channel] else []
        recvJoinHandle := if flags.iox2Recv then some s.recvActors.length else s.recvJoinHandle
        recvSenderTx :=
          if startsRecv flags results then some s.recvActors.length else s.recvSenderTx } := by
  unfold andThen Setup.spawnsRecv startsRecv
  cases flags.iox2Recv with
  | false => simp [Except.isOk, Except.toBool]
  | true => cases results.recv <;> simp [Except.isOk, Except.toBool]

theorem send_part (done : Setup × Except InitError Unit) (flag : Bool)
    (result : Except InitError Unit) :
    (andThen done flag (·.spawnsSend result)).1 = { done.1 with
      sendActors := if done.2.isOk && flag then done.1.sendActors + 1 else done.1.sendActors
      sendJoinHandle :=
        if done.2.isOk && flag then some done.1.sendActors else done.1.sendJoinHandle
      sendSenderTx := if done.2.isOk && flag && result.isOk then some done.1.sendActors
        else done.1.sendSenderTx } := by
  unfold andThen Setup.spawnsSend
  cases done.2 with
  | error error => simp [Except.isOk, Except.toBool]
  | ok _ =>
    cases flag with
    | false => simp
    | true => cases result <;> simp [Except.isOk, Except.toBool]

theorem init_leaves (s : Setup) (flags : InitFlags) (results : InitResults) :
    InitLeaves s flags results (s.init flags results).1 := by
  have dir : s.opensChannel.projectDir = s.projectDir := rfl
  cases some_ : s.projectDir with
  | false =>
    have missing : s.projectDir ≠ true := by simp [some_]
    simp only [Setup.init, dir, some_, Bool.false_eq_true, if_false]
    exact ⟨rfl, rfl, rfl, rfl, Or.inl rfl, Or.inl rfl, Or.inl rfl, le_rfl, Or.inl rfl, Or.inl rfl,
      fun there => absurd there missing, fun there => absurd there missing,
      fun there => absurd there missing⟩
  | true =>
    obtain ⟨ok, recv⟩ := recv_part s.opensChannel flags results s.channels
    have send := send_part (andThen (s.opensChannel, .ok ()) flags.iox2Recv
      (·.spawnsRecv s.channels results.recv)) flags.iox2Send results.send
    obtain ⟨gateway, all⟩ := gateway_part (andThen (andThen (s.opensChannel, .ok ()) flags.iox2Recv
      (·.spawnsRecv s.channels results.recv)) flags.iox2Send (·.spawnsSend results.send))
      flags.wsGateway results.gateway
    simp only [Setup.init, dir, some_, if_true, all, send, recv, ok]
    constructor
    · rfl
    · rfl
    · rfl
    · exact some_.symm
    · simp only
      split
      · exact Or.inr rfl
      · exact Or.inl (List.append_nil _)
    · simp only
      cases start : startsRecv flags results with
      | false => exact Or.inl rfl
      | true =>
        have flag : flags.iox2Recv = true := (Bool.and_eq_true_iff.mp start).1
        rw [if_pos flag]
        exact Or.inr ⟨rfl, rfl⟩
    · simp only
      split
      · exact Or.inr ⟨rfl, rfl⟩
      · exact Or.inl rfl
    · simp only
      split
      · exact Nat.le_succ _
      · exact le_rfl
    · simp only
      split
      · rename_i start
        rw [if_pos (Bool.and_eq_true_iff.mp start).1]
        exact Or.inr ⟨rfl, rfl⟩
      · exact Or.inl rfl
    · simp only
      split
      · exact Or.inr ⟨rfl, rfl⟩
      · exact Or.inl rfl
    · intro _ start
      exact if_pos start
    · intro _ flag
      exact if_pos flag
    · intro _ noRecv flag
      exact if_pos (by simp [noRecv, flag])

theorem init_gateway {flags : InitFlags} (dir : s.projectDir = true)
    (noRecv : flags.iox2Recv = false) (noSend : flags.iox2Send = false) (results : InitResults) :
    s.init flags results =
      andThen (s.opensChannel, .ok ()) flags.wsGateway (·.opensGateway results.gateway) := by
  have there : s.opensChannel.projectDir = true := dir
  simp only [Setup.init, there, if_true, noRecv, noSend]
  rfl

structure Executes (actor actor' : RecvActor) (reply : Option (Except IpcError Unit)) : Prop where
  same : actor'.respondToWaitStream = actor.respondToWaitStream
  fewer : ∀ call ∈ actor'.calls, call ∈ actor.calls
  asked : reply.isSome = true → RecvCall.waitStream ∈ actor.calls

theorem Executes.behind {actor actor' : RecvActor} {reply : Option (Except IpcError Unit)}
    {call : RecvCall} {rest : List RecvCall} (calls : actor.calls = call :: rest)
    (left : actor'.calls = rest)
    (same : actor'.respondToWaitStream = actor.respondToWaitStream)
    (asked : reply.isSome = true → call = .waitStream) : Executes actor actor' reply := by
  refine ⟨same, ?_, ?_⟩
  · intro other member
    rw [left] at member
    rw [calls]
    exact List.mem_cons_of_mem _ member
  · intro some_
    rw [calls, asked some_]
    exact List.mem_cons_self ..

theorem answers_spec {actor actor' : RecvActor} {reply : Option (Except IpcError Unit)}
    (done : actor.answers shouldCollect = some (actor', reply)) :
    Executes actor actor' reply := by
  unfold RecvActor.answers at done
  split at done
  · cases done
  · rename_i rest calls
    split at done
    · cases done
      exact ⟨rfl, fun call none_ => (by cases none_), fun none_ => by cases none_⟩
    · cases done
      exact .behind calls rfl rfl fun none_ => by cases none_
  · rename_i rest calls
    split at done
    · cases done
      exact .behind calls rfl rfl fun _ => rfl
    · cases done

theorem errs_spec {actor actor' : RecvActor} {error : IpcError}
    {reply : Option (Except IpcError Unit)} (done : actor.errs error = some (actor', reply)) :
    Executes actor actor' reply := by
  unfold RecvActor.errs at done
  split at done
  · cases done
  · rename_i rest calls
    cases done
    exact .behind calls rfl rfl fun none_ => by cases none_
  · rename_i rest calls
    cases done
    exact .behind calls rfl rfl fun _ => rfl

/-- How an ordinary step can end. Nobody is called or answers on another channel than before,
    and a WaitStream is called only while the backing is not locked. -/
inductive Ordinary (s t : Setup) : Prop where
  | statics (actors : t.recvActors = s.recvActors)
      (receiver : t.waitStreamReceiver = s.waitStreamReceiver)
      (locks : t.waitStreamLocks = s.waitStreamLocks)
  | hears (actors : t.recvActors = s.recvActors) {stored : Nat} {reply : Except IpcError Unit}
      {replies : List (Except IpcError Unit)}
      (receiver : s.waitStreamReceiver = some (stored, reply :: replies))
      (locks : t.waitStreamLocks = true → s.waitStreamLocks = true)
  | calls (free : s.waitStreamLocks = false) (some_ : s.recvSenderTx.isSome = true)
      (f : RecvActor → RecvActor) (a : Nat)
      (same : ∀ actor, (f actor).respondToWaitStream = actor.respondToWaitStream)
      (actors : t.recvActors = s.recvActors.modify a f)
  | idle (f : RecvActor → RecvActor) (a : Nat)
      (same : ∀ actor, (f actor).respondToWaitStream = actor.respondToWaitStream ∧
        (f actor).calls = actor.calls)
      (actors : t.recvActors = s.recvActors.modify a f)
      (receiver : t.waitStreamReceiver = s.waitStreamReceiver)
      (locks : t.waitStreamLocks = s.waitStreamLocks)
  | answers {a : Nat} {actor actor' : RecvActor} {reply : Option (Except IpcError Unit)}
      (here : s.recvActors[a]? = some actor)
      (same : actor'.respondToWaitStream = actor.respondToWaitStream)
      (fewer : ∀ call ∈ actor'.calls, call ∈ actor.calls)
      (asked : reply.isSome = true → RecvCall.waitStream ∈ actor.calls)
      (after : t = { s with recvActors := s.recvActors.set a actor' }.replies
        actor.respondToWaitStream reply)

structure SameActors (s t : Setup) : Prop where
  channels : t.channels = s.channels
  projectDir : s.projectDir = true → t.projectDir = true
  succeeded : t.succeeded = s.succeeded
  recvSenderTx : t.recvSenderTx = s.recvSenderTx
  recvJoinHandle : t.recvJoinHandle = s.recvJoinHandle
  sendActors : t.sendActors = s.sendActors
  sendSenderTx : t.sendSenderTx = s.sendSenderTx
  sendJoinHandle : t.sendJoinHandle = s.sendJoinHandle

theorem replies_statics (s : Setup) (channel : Nat) (reply : Option (Except IpcError Unit)) :
    (s.replies channel reply).recvActors = s.recvActors ∧
      (s.replies channel reply).waitStreamLocks = s.waitStreamLocks ∧
      SameActors s (s.replies channel reply) := by
  unfold Setup.replies
  split
  · split <;> exact ⟨rfl, rfl, rfl, id, rfl, rfl, rfl, rfl, rfl, rfl⟩
  · exact ⟨rfl, rfl, rfl, id, rfl, rfl, rfl, rfl, rfl, rfl⟩

theorem sends_spec {call : RecvCall} (sent : s.sends call = some t) :
    ∃ a, s.recvSenderTx = some a ∧
      t = s.onActor a fun actor => { actor with calls := actor.calls ++ [call] } := by
  simp only [Setup.sends, Option.bind_eq_bind, Option.bind_eq_some_iff] at sent
  obtain ⟨a, some_, actor, _, sent⟩ := sent
  split at sent
  · cases sent
  · cases sent
    exact ⟨a, some_, rfl⟩

theorem recvActor_ordinary {a : Nat}
    {act : RecvActor → Option (RecvActor × Option (Except IpcError Unit))}
    (spec : ∀ {actor actor' reply}, act actor = some (actor', reply) →
      Executes actor actor' reply)
    (move : s.recvActor a act = some t) : SameActors s t ∧ Ordinary s t := by
  simp only [Setup.recvActor, Option.bind_eq_bind, Option.bind_eq_some_iff, Option.some.injEq,
    Prod.exists] at move
  obtain ⟨actor, here, actor', reply, done, rfl⟩ := move
  obtain ⟨same, fewer, asked⟩ := spec done
  obtain ⟨_, _, wiring⟩ := replies_statics { s with recvActors := s.recvActors.set a actor' }
    actor.respondToWaitStream reply
  have same' : SameActors s _ :=
    ⟨wiring.channels, wiring.projectDir, wiring.succeeded, wiring.recvSenderTx,
      wiring.recvJoinHandle, wiring.sendActors, wiring.sendSenderTx, wiring.sendJoinHandle⟩
  exact ⟨same', .answers here same fewer asked rfl⟩

theorem ordinary_step (ordinary : l.ordinary = true) (move : turn shouldCollect s l = some t) :
    SameActors s t ∧ Ordinary s t := by
  cases l with
  | setGlobalProjectDir =>
    cases move
    exact ⟨⟨rfl, fun _ => rfl, rfl, rfl, rfl, rfl, rfl, rfl⟩, .statics rfl rfl rfl⟩
  | init flags results => cases ordinary
  | close => cases ordinary
  | waitStream =>
    simp only [turn, Setup.waits] at move
    split at move
    · cases move
    · split at move
      · cases move
        exact ⟨⟨rfl, id, rfl, rfl, rfl, rfl, rfl, rfl⟩, .statics rfl rfl rfl⟩
      · rename_i free
        simp only [Option.map_eq_some_iff] at move
        obtain ⟨u, sent, rfl⟩ := move
        obtain ⟨a, some_, rfl⟩ := sends_spec sent
        exact ⟨⟨rfl, id, rfl, rfl, rfl, rfl, rfl, rfl⟩, .calls (Bool.eq_false_iff.mpr free)
          (by rw [some_]; rfl) (fun actor => { actor with calls := actor.calls ++ [.waitStream] }) a
          (fun _ => rfl) rfl⟩
  | returns =>
    simp only [turn] at move
    split at move
    · cases move
      exact ⟨⟨rfl, id, rfl, rfl, rfl, rfl, rfl, rfl⟩, .statics rfl rfl rfl⟩
    · cases move
  | hears =>
    simp only [turn, Setup.hears] at move
    split at move
    · rename_i stored reply replies receiver
      split at move
      · cases move
        exact ⟨⟨rfl, id, rfl, rfl, rfl, rfl, rfl, rfl⟩,
          .hears rfl receiver fun none_ => by cases none_⟩
      · cases move
        exact ⟨⟨rfl, id, rfl, rfl, rfl, rfl, rfl, rfl⟩, .hears rfl receiver id⟩
    · cases move
  | tryRecvStream =>
    simp only [turn] at move
    split at move
    · cases move
    · rename_i free
      obtain ⟨a, some_, rfl⟩ := sends_spec move
      exact ⟨⟨rfl, id, rfl, rfl, rfl, rfl, rfl, rfl⟩, .calls (Bool.eq_false_iff.mpr free)
        (by rw [some_]; rfl) (fun actor => { actor with calls := actor.calls ++ [.tryRecvStream] })
        a (fun _ => rfl) rfl⟩
  | answers a => exact recvActor_ordinary answers_spec move
  | errs a error => exact recvActor_ordinary errs_spec move
  | event a =>
    cases move
    exact ⟨⟨rfl, id, rfl, rfl, rfl, rfl, rfl, rfl⟩,
      .idle (fun actor => { actor with listener := true }) a (fun _ => ⟨rfl, rfl⟩) rfl rfl rfl⟩
  | arrives a page =>
    cases move
    exact ⟨⟨rfl, id, rfl, rfl, rfl, rfl, rfl, rfl⟩,
      .idle (fun actor => { actor with subscriber := actor.subscriber ++ [page] }) a
        (fun _ => ⟨rfl, rfl⟩) rfl rfl rfl⟩

theorem mem_modify {f : RecvActor → RecvActor} {a : Nat} {actors : List RecvActor}
    {actor : RecvActor} (member : actor ∈ actors.modify a f) :
    actor ∈ actors ∨ ∃ old ∈ actors, actor = f old := by
  obtain ⟨i, here⟩ := List.mem_iff_getElem?.mp member
  rw [List.getElem?_modify, Option.map_eq_map, Option.map_eq_some_iff] at here
  obtain ⟨old, there, rfl⟩ := here
  have before := List.mem_of_getElem? there
  split
  · exact Or.inr ⟨old, before, rfl⟩
  · exact Or.inl before

structure Wired (s : Setup) : Prop where
  known : ∀ a, s.recvSenderTx = some a → a < s.recvActors.length
  recvThread : ∀ a, s.recvJoinHandle = some a → a < s.recvActors.length
  answered : ∀ actor ∈ s.recvActors, actor.respondToWaitStream < s.channels
  sendThread : ∀ b, s.sendJoinHandle = some b → b < s.sendActors
  locked : s.waitStreamLocks = true → s.recvSenderTx.isSome = true
  ready : s.succeeded = true → s.projectDir = true

theorem wired_first : Wired .first := by
  constructor <;> simp [Setup.first]

theorem Wired.keep (wired : Wired s) (same : SameActors s t)
    (length : t.recvActors.length = s.recvActors.length)
    (answered : ∀ actor ∈ t.recvActors, actor.respondToWaitStream < s.channels)
    (locked : t.waitStreamLocks = true → s.recvSenderTx.isSome = true) : Wired t := by
  constructor
  · rw [same.recvSenderTx, length]
    exact wired.known
  · rw [same.recvJoinHandle, length]
    exact wired.recvThread
  · rw [same.channels]
    exact answered
  · rw [same.sendJoinHandle, same.sendActors]
    exact wired.sendThread
  · rw [same.recvSenderTx]
    exact locked
  · rw [same.succeeded]
    exact fun done => same.projectDir (wired.ready done)

theorem Wired.answered_modify (wired : Wired s) {f : RecvActor → RecvActor} {a : Nat}
    (keeps : ∀ actor, (f actor).respondToWaitStream = actor.respondToWaitStream)
    (actors : t.recvActors = s.recvActors.modify a f) :
    ∀ actor ∈ t.recvActors, actor.respondToWaitStream < s.channels := by
  rw [actors]
  intro actor member
  rcases mem_modify member with before | ⟨old, before, rfl⟩
  · exact wired.answered actor before
  · rw [keeps]
    exact wired.answered old before

theorem Wired.ordinary (wired : Wired s) (same : SameActors s t) (move : Ordinary s t) :
    Wired t := by
  cases move with
  | statics actors receiver locks =>
    exact wired.keep same (by rw [actors]) (by rw [actors]; exact wired.answered)
      (by rw [locks]; exact wired.locked)
  | hears actors receiver locks =>
    exact wired.keep same (by rw [actors]) (by rw [actors]; exact wired.answered)
      fun locked => wired.locked (locks locked)
  | calls free some_ f a keeps actors =>
    exact wired.keep same (by rw [actors, List.length_modify])
      (wired.answered_modify keeps actors) fun _ => some_
  | idle f a keeps actors receiver locks =>
    exact wired.keep same (by rw [actors, List.length_modify])
      (wired.answered_modify (fun actor => (keeps actor).1) actors)
      (by rw [locks]; exact wired.locked)
  | @answers a actor actor' reply here keeps fewer asked after =>
    subst after
    obtain ⟨actors, locks, _⟩ := replies_statics { s with recvActors := s.recvActors.set a actor' }
      actor.respondToWaitStream reply
    refine wired.keep same (by rw [actors, List.length_set]) ?_ (by rw [locks]; exact wired.locked)
    rw [actors]
    intro other member
    rcases List.mem_or_eq_of_mem_set member with before | rfl
    · exact wired.answered other before
    · rw [keeps]
      exact wired.answered actor (List.mem_of_getElem? here)

theorem Wired.init (wired : Wired s) {flags : InitFlags} {results : InitResults} {s' : Setup}
    (leaves : InitLeaves s flags results s')
    (succeeded : s'.succeeded = true → s.projectDir = true) :
    Wired s' := by
  have longer : s.recvActors.length ≤ s'.recvActors.length := by
    rcases leaves.recvActors with same | more
    · rw [same]
    · rw [more, List.length_append]
      exact Nat.le_add_right ..
  constructor
  · intro a called
    rcases leaves.recvSenderTx with same | ⟨new, more⟩
    · rw [same] at called
      exact Nat.lt_of_lt_of_le (wired.known a called) longer
    · rw [new] at called
      cases called
      rw [more, List.length_append]
      exact Nat.lt_succ_self _
  · intro a stored
    rcases leaves.recvJoinHandle with same | ⟨new, more⟩
    · rw [same] at stored
      exact Nat.lt_of_lt_of_le (wired.recvThread a stored) longer
    · rw [new] at stored
      cases stored
      rw [more, List.length_append]
      exact Nat.lt_succ_self _
  · intro actor member
    rw [leaves.channels]
    rcases leaves.recvActors with same | more
    · rw [same] at member
      exact Nat.lt_succ_of_lt (wired.answered actor member)
    · rw [more] at member
      rcases List.mem_append.mp member with before | new
      · exact Nat.lt_succ_of_lt (wired.answered actor before)
      · obtain rfl := List.mem_singleton.mp new
        exact Nat.lt_succ_self _
  · intro b stored
    rcases leaves.sendJoinHandle with same | ⟨new, more⟩
    · rw [same] at stored
      exact Nat.lt_of_lt_of_le (wired.sendThread b stored) leaves.sendActors
    · rw [new] at stored
      cases stored
      rw [more]
      exact Nat.lt_succ_self _
  · intro locked
    rw [leaves.locks] at locked
    have before := wired.locked locked
    rcases leaves.recvSenderTx with same | ⟨new, _⟩
    · rw [same]
      exact before
    · rw [new]
      rfl
  · intro done
    rw [leaves.projectDir]
    exact succeeded done

theorem init_ready (s : Setup) (flags : InitFlags) (results : InitResults)
    (ok : (s.init flags results).2.isOk = true) : s.projectDir = true := by
  have dir : s.opensChannel.projectDir = s.projectDir := rfl
  cases some_ : s.projectDir with
  | true => rfl
  | false =>
    simp only [Setup.init, dir, some_, Bool.false_eq_true, if_false] at ok
    cases ok

theorem Wired.step (wired : Wired s) (move : turn shouldCollect s l = some t) : Wired t := by
  by_cases ordinary : l.ordinary = true
  · obtain ⟨same, how⟩ := ordinary_step ordinary move
    exact wired.ordinary same how
  · cases l with
    | init flags results =>
      simp only [turn] at move
      split at move
      · cases move
      · cases move
        have leaves := init_leaves s flags results
        have whole : InitLeaves s flags results
            { (s.init flags results).1 with
              succeeded := s.succeeded || (s.init flags results).2.isOk } :=
          { leaves with }
        refine wired.init whole ?_
        intro done
        rcases Bool.or_eq_true_iff.mp done with before | ok
        · exact wired.ready before
        · exact init_ready s flags results ok
    | close =>
      simp only [turn] at move
      split at move
      · cases move
      · cases move
        constructor
        · intro a none_
          cases none_
        · intro a none_
          cases none_
        · exact wired.answered
        · intro b none_
          cases none_
        · intro none_
          cases none_
        · intro none_
          cases none_
    | _ => exact absurd rfl ordinary

theorem wired_of_reachable (reachable : SetupReachable shouldCollect s) : Wired s :=
  reachable_invariant Wired (fun _ first => by rw [first]; exact wired_first)
    (fun _ _ _ wired move => wired.step move) reachable

end Steps

section Lost

variable {shouldCollect : List UInt8 → Bool} {s t : Setup} {l : Turn}

/-- The backing is locked, and no reply on its way comes to the stored receiver. -/
structure Lost (s : Setup) : Prop where
  locked : s.waitStreamLocks = true
  receiver : ∃ channel, s.waitStreamReceiver = some (channel, []) ∧
    ∀ actor ∈ s.recvActors, RecvCall.waitStream ∈ actor.calls →
      actor.respondToWaitStream ≠ channel

theorem Lost.step (lost : Lost s) (ordinary : l.ordinary = true)
    (move : turn shouldCollect s l = some t) : Lost t := by
  obtain ⟨locked, channel, receiver, apart⟩ := lost
  obtain ⟨_, how⟩ := ordinary_step ordinary move
  cases how with
  | statics actors same locks =>
    exact ⟨locks.trans locked, channel, same.trans receiver, by rw [actors]; exact apart⟩
  | hears actors some_ locks =>
    rw [receiver] at some_
    cases some_
  | calls free some_ f a keeps actors =>
    rw [locked] at free
    cases free
  | idle f a keeps actors same locks =>
    refine ⟨locks.trans locked, channel, same.trans receiver, ?_⟩
    rw [actors]
    intro actor member asked
    rcases mem_modify member with before | ⟨old, before, rfl⟩
    · exact apart actor before asked
    · rw [(keeps old).2] at asked
      rw [(keeps old).1]
      exact apart old before asked
  | @answers a actor actor' reply here keeps fewer asked after =>
    have member := List.mem_of_getElem? here
    have unheard : Setup.replies { s with recvActors := s.recvActors.set a actor' }
        actor.respondToWaitStream reply = { s with recvActors := s.recvActors.set a actor' } := by
      unfold Setup.replies
      split
      · rename_i some_ there
        obtain ⟨rfl, rfl⟩ : channel = _ ∧ [] = _ := by
          simpa using receiver.symm.trans there
        rw [if_neg fun same => apart actor member (asked rfl) same.symm]
      · rfl
    rw [unheard] at after
    subst after
    refine ⟨locked, channel, receiver, ?_⟩
    intro other there waits
    rcases List.mem_or_eq_of_mem_set there with before | rfl
    · exact apart other before waits
    · rw [keeps]
      exact apart actor member (fewer _ waits)

theorem Lost.not_freed (lost : Lost s) : ¬ Freed shouldCollect s := by
  rintro ⟨trace, t, run, ordinary, free⟩
  have meets : Meets (fun _ l => Turn.ordinary l = true) trace := ordinary
  have last : Lost t := run_invariant (fun _ t => Lost t)
    (fun u first => by rw [first]; exact lost)
    (fun _ _ _ _ _ lost ordinary move => lost.step ordinary move) run meets
  rw [last.locked] at free
  cases free

/-- The reply to a WaitStream that is outstanding when init is called again is lost, whatever
    the flags are. -/
theorem init_loses_wait (wired : Wired s) (locked : s.waitStreamLocks = true) (flags : InitFlags)
    (results : InitResults) : Lost (s.init flags results).1 := by
  have leaves := init_leaves s flags results
  refine ⟨leaves.locks.trans locked, s.channels, leaves.receiver, ?_⟩
  intro actor member asked
  have old (before : actor ∈ s.recvActors) : actor.respondToWaitStream ≠ s.channels :=
    Nat.ne_of_lt (wired.answered actor before)
  rcases leaves.recvActors with same | more
  · rw [same] at member
    exact old member
  · rw [more] at member
    rcases List.mem_append.mp member with before | new
    · exact old before
    · obtain rfl := List.mem_singleton.mp new
      cases asked

end Lost

section Merges

variable {shouldCollect : List UInt8 → Bool} {m : Message} {allocations : MergeAllocs}

theorem merge_next (cut : m.Cut) (few : m.numChunks < 2 ^ 32)
    (wanted : shouldCollect m.header = true) {arrived : Finset Nat}
    (inside : arrived ⊂ Finset.range m.numChunks) (merging : Merging allocations m arrived)
    {i : Nat}
    (range : i < m.numChunks) (fresh : i ∉ arrived) :
    ∃ blob result allocations', m.pages[i]? = some blob ∧
      Iox2.tryRecvStream shouldCollect allocations (some blob) = some (result, allocations') ∧
      Merging allocations' m (insert i arrived) ∧ result.message =
        if (insert i arrived).card = m.numChunks then some (m.payload, m.headerSize) else none := by
  obtain ⟨_, each⟩ := cut.pages_spec
  obtain ⟨blob, page, fragment⟩ := each i range
  have got := Iox2.receivePage_fragment cut few shouldCollect allocations range fragment
  obtain ⟨⟨message, allocations'⟩, merge, merged⟩ :=
    Iox2.mergeFragment_spec cut inside.subset merging range fresh fragment
  rw [if_pos wanted, merge] at got
  obtain ⟨result, received, same⟩ := Iox2.tryRecvStream_message got
  exact ⟨blob, result, allocations', page, received, merged.merging, same.trans merged.message⟩

theorem receive_missing (cut : m.Cut) (few : m.numChunks < 2 ^ 32)
    (wanted : shouldCollect m.header = true) {order : List Nat} (nodup : order.Nodup)
    {arrived : Finset Nat} (inside : arrived ⊂ Finset.range m.numChunks)
    (apart : ∀ i ∈ order, i < m.numChunks ∧ i ∉ arrived) (merging : Merging allocations m arrived) :
    ∃ blobs results allocations', order.mapM (fun i => m.pages[i]?) = some blobs ∧
      receiveAll shouldCollect allocations blobs = some (results, allocations') ∧
      (arrived.card + order.length < m.numChunks → completed results = []) ∧
      (arrived.card + order.length = m.numChunks → order ≠ [] →
        completed results = [(m.payload, m.headerSize)]) := by
  induction order generalizing arrived allocations with
  | nil => exact ⟨[], [], allocations, rfl, rfl, fun _ => rfl, fun _ none_ => absurd rfl none_⟩
  | cons i order ih =>
    obtain ⟨range, fresh⟩ := apart i (List.mem_cons_self ..)
    obtain ⟨blob, result, table, page, received, merging', message⟩ :=
      merge_next cut few wanted inside merging range fresh
    have card := Finset.card_insert_of_notMem fresh
    have below : insert i arrived ⊆ Finset.range m.numChunks :=
      Finset.insert_subset (Finset.mem_range.mpr range) inside.subset
    rw [card] at message
    cases order with
    | nil =>
      refine ⟨[blob], [result], table, by simp [page], by simp [receiveAll, received], ?_, ?_⟩
      · intro fewer
        have early : ¬ arrived.card + 1 = m.numChunks := Nat.ne_of_lt fewer
        rw [if_neg early] at message
        simp [completed, message]
      · intro last _
        have now : arrived.card + 1 = m.numChunks := last
        rw [if_pos now] at message
        simp [completed, message]
    | cons j rest =>
      have later := List.nodup_cons.mp nodup
      have apart' : ∀ k ∈ j :: rest, k < m.numChunks ∧ k ∉ insert i arrived := by
        intro k member
        obtain ⟨inRange, notThere⟩ := apart k (List.mem_cons_of_mem _ member)
        refine ⟨inRange, ?_⟩
        rw [Finset.mem_insert, not_or]
        exact ⟨fun same => later.1 (same ▸ member), notThere⟩
      have missing := apart' j (List.mem_cons_self ..)
      have inside' : insert i arrived ⊂ Finset.range m.numChunks :=
        (Finset.ssubset_iff_of_subset below).mpr
          ⟨j, Finset.mem_range.mpr missing.1, missing.2⟩
      have fewer := Finset.card_lt_card inside'
      rw [card, Finset.card_range] at fewer
      rw [if_neg (Nat.ne_of_lt fewer)] at message
      obtain ⟨blobs, results, last, pages, all, none_, one⟩ := ih later.2 inside' apart' merging'
      have silent : completed (result :: results) = completed results := by
        simp [completed, message]
      refine ⟨blob :: blobs, result :: results, last, ?_, ?_, ?_, ?_⟩
      · rw [List.mapM_cons, page, pages]
        rfl
      · simp [receiveAll, received, all]
      · intro fewer
        rw [silent]
        exact none_ (by rw [card]; simp only [List.length_cons] at fewer ⊢; omega)
      · intro exactly _
        rw [silent]
        exact one (by rw [card]; simp only [List.length_cons] at exactly ⊢; omega) (by simp)

theorem HalfMerged.count {arrived : Finset Nat} {order : List Nat}
    (half : HalfMerged shouldCollect allocations m arrived order) :
    arrived.card + order.length = m.numChunks := by
  have missing : order.toFinset = Finset.range m.numChunks \ arrived := by
    ext i
    rw [List.mem_toFinset, half.missing, Finset.mem_sdiff, Finset.mem_range]
  have length := List.toFinset_card_of_nodup half.nodup
  have total := Finset.card_sdiff_add_card_eq_card half.inside.subset
  rw [missing] at length
  rw [Finset.card_range] at total
  omega

theorem HalfMerged.completes {arrived : Finset Nat} {order : List Nat}
    (half : HalfMerged shouldCollect allocations m arrived order) :
    Completes shouldCollect allocations m order := by
  have fewer := Finset.card_lt_card half.inside
  rw [Finset.card_range] at fewer
  have count := half.count
  have some_ : order ≠ [] := by
    rintro rfl
    simp only [List.length_nil] at count
    omega
  obtain ⟨blobs, results, table, pages, all, _, one⟩ := receive_missing half.cut half.few
    half.wanted half.nodup half.inside (fun i member => (half.missing i).mp member) half.merging
  exact ⟨blobs, results, table, pages, all,
    by rw [one count some_]; exact List.mem_singleton_self _⟩

/-- An actor that has been started anew never completes it with these pages. -/
theorem HalfMerged.forgotten {arrived : Finset Nat} {order : List Nat}
    (half : HalfMerged shouldCollect allocations m arrived order) :
    ¬ Completes shouldCollect .empty m order := by
  have count := half.count
  have some_ := Finset.card_pos.mpr half.some_
  have positive := half.cut.count.1
  have nothing : (∅ : Finset Nat) ⊂ Finset.range m.numChunks :=
    Finset.empty_ssubset.mpr ⟨0, Finset.mem_range.mpr positive⟩
  have fresh : Merging .empty m ∅ := Iox2.merging_nothing.mpr rfl
  obtain ⟨blobs, results, table, pages, all, none_, _⟩ := receive_missing half.cut half.few
    half.wanted half.nodup nothing
    (fun i member => ⟨((half.missing i).mp member).1, Finset.notMem_empty i⟩) fresh
  rintro ⟨blobs', results', table', pages', all', out⟩
  obtain rfl := Option.some.inj (pages.symm.trans pages')
  obtain ⟨rfl, _⟩ : results = results' ∧ table = table' := by
    simpa using all.symm.trans all'
  rw [none_ (by rw [Finset.card_empty]; omega)] at out
  cases out

end Merges

section Reinit

variable {shouldCollect : List UInt8 → Bool} {s : Setup}

theorem serving_none (none_ : s.recvSenderTx = none) : s.serving = .empty := by
  simp [Setup.serving, none_]

/-- A message that is half merged when init starts a new receive actor does not come out. -/
theorem init_loses_merge (wired : Wired s) (dir : s.projectDir = true) {flags : InitFlags}
    {results : InitResults} (starts : startsRecv flags results = true) {m : Message}
    {arrived : Finset Nat} {order : List Nat}
    (half : HalfMerged shouldCollect s.serving m arrived order) :
    ¬ Completes shouldCollect (s.init flags results).1.serving m order := by
  have leaves := init_leaves s flags results
  have called := leaves.started dir starts
  have more : (s.init flags results).1.recvActors = s.recvActors ++ [.start s.channels] := by
    rcases leaves.recvSenderTx with same | ⟨_, more⟩
    · rw [called] at same
      exact absurd (wired.known _ same.symm) (Nat.lt_irrefl _)
    · exact more
  have empty : (s.init flags results).1.serving = .empty := by
    simp [Setup.serving, called, more, RecvActor.start]
  rw [empty]
  exact half.forgotten

theorem harmless_of_nothing_to_do (wired : Wired s) (dir : s.projectDir = true)
    {flags : InitFlags} (nothing : NothingToDo s flags) (results : InitResults) :
    Harmless shouldCollect s (s.init flags results) := by
  obtain ⟨none_, noRecv, noSend, gateway⟩ := nothing
  have only : s.init flags results = (s.opensChannel, .ok ()) := by
    rw [init_gateway dir noRecv noSend]
    cases flag : flags.wsGateway with
    | false => rfl
    | true =>
      have there : s.opensChannel.gateway = true := gateway flag
      simp only [andThen, Setup.opensGateway, there, if_true]
  rw [only]
  constructor
  · intro locked
    have some_ := wired.locked locked
    rw [none_] at some_
    cases some_
  · intro m arrived order half
    have merging := half.merging
    have fewer := Finset.card_lt_card half.inside
    rw [Finset.card_range] at fewer
    rw [serving_none none_, Merging, if_neg (by simp [half.some_.ne_empty, Nat.ne_of_lt fewer])]
      at merging
    obtain ⟨e, entry, _⟩ := merging
    cases entry
  · rfl
  · rfl
  · rfl
  · rfl
  · rfl
  · intro a actor called
    have unchanged : s.opensChannel.recvSenderTx = s.recvSenderTx := rfl
    rw [unchanged, none_] at called
    cases called
  · rfl

theorem no_actor_of_harmless (wired : Wired s) {flags : InitFlags} {results : InitResults}
    (harmless : Harmless shouldCollect s (s.init flags results)) : s.recvSenderTx = none := by
  have leaves := init_leaves s flags results
  by_contra some_
  obtain ⟨a, called⟩ := Option.ne_none_iff_exists'.mp some_
  have range := wired.known a called
  have here : (s.init flags results).1.recvActors[a]? = some s.recvActors[a] := by
    rcases leaves.recvActors with same | more
    · rw [same, List.getElem?_eq_getElem range]
    · rw [more, List.getElem?_append_left range, List.getElem?_eq_getElem range]
  obtain ⟨replies, receiver⟩ := harmless.answers a _ (harmless.recvActor.trans called) here
  have older := wired.answered _ (List.getElem_mem range)
  rw [leaves.receiver] at receiver
  have same : s.channels = s.recvActors[a].respondToWaitStream :=
    congrArg Prod.fst (Option.some.inj receiver)
  omega

theorem nothing_to_do_of_harmless (wired : Wired s) (dir : s.projectDir = true)
    {flags : InitFlags} {results : InitResults}
    (harmless : Harmless shouldCollect s (s.init flags results)) : NothingToDo s flags := by
  have leaves := init_leaves s flags results
  -- A thread that is started takes the place of the join handle, whether it comes up or not.
  have noRecv : flags.iox2Recv = false := by
    by_contra asked
    have now := leaves.recvThread dir (Bool.of_not_eq_false asked)
    rw [harmless.recvThread] at now
    exact absurd (wired.recvThread _ now) (Nat.lt_irrefl _)
  have noSend : flags.iox2Send = false := by
    by_contra asked
    have now := leaves.sendThread dir noRecv (Bool.of_not_eq_false asked)
    rw [harmless.sendThread] at now
    exact absurd (wired.sendThread _ now) (Nat.lt_irrefl _)
  refine ⟨no_actor_of_harmless wired harmless, noRecv, noSend, ?_⟩
  intro flag
  by_contra closed
  have gateway := harmless.gateway
  have result := harmless.result
  have notYet : s.opensChannel.gateway = false := Bool.eq_false_iff.mpr closed
  rw [init_gateway dir noRecv noSend] at gateway result
  simp only [andThen, flag, if_true, Setup.opensGateway, notYet, Bool.false_eq_true, if_false]
    at gateway result
  cases opens : results.gateway with
  | error error =>
    rw [opens] at result
    cases result
  | ok _ =>
    rw [opens] at gateway
    exact closed gateway.symm

/-- init called again before close is harmless exactly if there is no receive actor it could
    cut off, and it has no actor to start and no gateway to open. -/
theorem reinit_harmless_iff (reachable : SetupReachable shouldCollect s)
    (ready : s.succeeded = true) (flags : InitFlags) (results : InitResults) :
    Harmless shouldCollect s (s.init flags results) ↔ NothingToDo s flags := by
  have wired := wired_of_reachable reachable
  have dir := wired.ready ready
  constructor
  · exact nothing_to_do_of_harmless wired dir
  · intro nothing
    exact harmless_of_nothing_to_do wired dir nothing results

def allOk : InitResults := ⟨.ok (), .ok (), .ok ()⟩

/-- A process that sends and has the gateway, and asks for the gateway again. -/
theorem reinit_harmless_sender : ∃ s, SetupReachable (fun _ => true) s ∧ s.succeeded = true ∧
    Harmless (fun _ => true) s (s.init ⟨false, false, true⟩ allOk) := by
  obtain ⟨trace, s, run, ready, none_, gateway⟩ :=
    execute_run (turn fun _ => true) .first [.setGlobalProjectDir, .init ⟨false, true, true⟩ allOk]
      (fun _ s => s.succeeded = true ∧ s.recvSenderTx = none ∧ s.gateway = true) (by decide +kernel)
  exact ⟨s, ⟨trace, run⟩, ready,
    (reinit_harmless_iff ⟨trace, run⟩ ready _ _).mpr ⟨none_, rfl, rfl, fun _ => gateway⟩⟩

/-- A WaitStream is outstanding, and init is called again with no flags at all. -/
theorem reinit_cuts_off : ∃ s, SetupReachable (fun _ => true) s ∧ s.succeeded = true ∧
    s.waitStreamLocks = true ∧
    ¬ Freed (fun _ => true) (s.init ⟨false, false, false⟩ allOk).1 ∧
    ¬ Harmless (fun _ => true) s (s.init ⟨false, false, false⟩ allOk) := by
  obtain ⟨trace, s, run, ready, locked⟩ :=
    execute_run (turn fun _ => true) .first
      [.setGlobalProjectDir, .init ⟨true, true, true⟩ allOk, .waitStream, .returns]
      (fun _ s => s.succeeded = true ∧ s.waitStreamLocks = true) (by decide +kernel)
  have wired := wired_of_reachable ⟨trace, run⟩
  have stuck : ¬ Freed (fun _ => true) (s.init ⟨false, false, false⟩ allOk).1 :=
    (init_loses_wait wired locked _ _).not_freed
  exact ⟨s, ⟨trace, run⟩, ready, locked, stuck, fun harmless => stuck (harmless.wait locked)⟩

end Reinit

end Combined
