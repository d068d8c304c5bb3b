import SkyCurrent.Base.Simulation
import SkyCurrent.Combined.Relay
import SkyCurrent.Iox2.Reassembly

/- A Deno program between sendStream and should_collect of src/skycurrent-deno/mod.ts. The receive
   actor asks should_collect about every page, also about those of this process, and waits until
   the event loop has run it; sc_send_stream keeps the event loop waiting until the send actor has
   found room for every page. -/
namespace Deno.Collect

open Combined (IpcError SendCall Sending SendAct RecvAct Sends bufferSize pageCount)
open Iox2 (Blob)
open Runs

/-- The JavaScript thread: it is free, it is in sc_send_stream, which waits for the send actor or
    sleeps before it tries again, or a panic has ended the process. -/
inductive Thread where
  | free
  | sends (payload : List UInt8) (headerSize : Nat)
  | sleeps (payload : List UInt8) (headerSize : Nat)
  | aborted
  deriving DecidableEq, Repr

structure State where
  process : Combined.State
  /-- The page the receive actor has received and asks should_collect about. -/
  collecting : Option Blob
  thread : Thread

def init : State := ⟨Combined.init, none, .free⟩

/-- The loop of tokio::send_stream, with the answer it gets. -/
def Thread.hears (thread : Thread) (answer : Option (Except IpcError Unit)) : Thread :=
  match thread, answer with
  | .sends _ _, some (.ok _) => .free
  | .sends payload headerSize, some (.error error) =>
    if error.senderRetries then .sleeps payload headerSize else .aborted
  | thread, _ => thread

def asked (page : Blob) : Option (List UInt8) := do
  let numChunks := ByteBuffer.decode (← page.read 12 16)
  if numChunks = 0 then page.read 24 (ByteBuffer.decode (← page.read 16 24) + 24)
  else page.read 32 (ByteBuffer.decode (← page.read 24 32) + 32)

def State.receives (s : State) : Option State :=
  match s.collecting, s.process.recvCalls, s.process.subscriber with
  | none, .tryRecvStream :: _, page :: rest =>
    if (asked page).isSome then
      some { s with process := { s.process with subscriber := rest }, collecting := some page }
    else none
  | _, _, _ => none

def State.collects (shouldCollect : List UInt8 → Bool) (s : State) : Option State :=
  match s.collecting, s.process.recvCalls with
  | some page, .tryRecvStream :: rest =>
    match Iox2.tryRecvStream shouldCollect s.process.mergeAllocs (some page) with
    | none =>
      some { s with
        process := { s.process with
          recvCalls := rest
          tryRecvReply := some (.error .backingCrashedOrNotStarted) }
        collecting := none }
    | some (result, allocations) =>
      some { s with
        process := { s.process with
          recvCalls := rest
          tryRecvReply := some (.ok result)
          mergeAllocs := allocations }
        collecting := none }
  | _, _ => none

def State.recvActor (shouldCollect : List UInt8 → Bool) (s : State) (act : RecvAct) :
    Option State :=
  if s.collecting.isSome then none
  else if act = .answers ∧ s.process.recvCalls.head? = some .tryRecvStream ∧
      (s.process.subscriber.head?.bind asked).isSome then none
  else (s.process.recvActor shouldCollect act).map ({ s with process := · })

def State.queues (s : State) (payload : List UInt8) (headerSize : Nat) : Option State :=
  (s.process.queues payload headerSize).map fun process =>
    { s with process := process, thread := .sends payload headerSize }

inductive Label where
  | sendStream (payload : List UInt8) (headerSize : Nat)
  | wakes
  | collects
  | receives
  | recvActor (act : RecvAct)
  | sendActor (act : SendAct)
  -- the others of the process, and the mesh around it
  | passes (time : Nat)
  | task (backing : Option Combined.Backing)
  | client (c : Nat) (act : Combined.ClientAct)
  | mesh (act : Combined.MeshAct)

def next (shouldCollect : List UInt8 → Bool) (s : State) (l : Label) : Option State :=
  if s.thread = .aborted then none
  else
    match l with
    | .sendStream payload headerSize =>
      if s.thread = .free then s.queues payload headerSize else none
    | .wakes =>
      match s.thread with
      | .sleeps payload headerSize => s.queues payload headerSize
      | _ => none
    | .collects => if s.thread = .free then s.collects shouldCollect else none
    | .receives => s.receives
    | .recvActor act => s.recvActor shouldCollect act
    | .sendActor act =>
      (s.process.sendActor act).map fun process =>
        { s with process := process, thread := s.thread.hears (s.process.answersElsewhere act) }
    | .passes time => some { s with process := { s.process with now := s.process.now + time } }
    | .task none => s.process.proceeds.map ({ s with process := · })
    | .task (some backing) => (s.process.wakes backing).map ({ s with process := · })
    | .client c act => (s.process.client c act).map ({ s with process := · })
    | .mesh act => (s.process.mesh act).map ({ s with process := · })

abbrev CollectRun (shouldCollect : List UInt8 → Bool) :=
  Run (· = init) (fun s l t => next shouldCollect s l = some t)

variable {shouldCollect : List UInt8 → Bool} {s t : State} {trace : List (State × Label)}

/-- The pages that find room while the event loop runs nothing: in the buffer, and one with the
    receive actor. -/
def State.room (s : State) : Nat :=
  bufferSize - s.process.subscriber.length + if s.collecting.isSome then 0 else 1

def own (calls : List SendCall) : List SendCall := calls.filter fun call => !call.forwarded

def Apart (sending : Option Sending) : Prop :=
  ∀ sending', sending = some sending' → sending'.forwarded = true

section Asked

variable {allocations : Iox2.MergeAllocs} {page : Blob}

theorem page_read (page : Blob) {a b : Nat} (order : a ≤ b) (inside : b ≤ Iox2.presetN) :
    ∃ bytes, page.read a b = some bytes := by
  refine ⟨_, if_pos ⟨order, ?_⟩⟩
  rw [page.size]
  exact inside

theorem receivePage_asked : Iox2.receivePage shouldCollect allocations page =
    (asked page).bind fun header =>
      Iox2.receivePage (fun _ => shouldCollect header) allocations page := by
  obtain ⟨size, size_⟩ := page_read page (a := 0) (b := 8) (by decide) (by decide)
  obtain ⟨index, index_⟩ := page_read page (a := 8) (b := 12) (by decide) (by decide)
  obtain ⟨count, count_⟩ := page_read page (a := 12) (b := 16) (by decide) (by decide)
  obtain ⟨identified, identified_⟩ := page_read page (a := 16) (b := 24) (by decide) (by decide)
  obtain ⟨sized, sized_⟩ := page_read page (a := 24) (b := 32) (by decide) (by decide)
  simp only [Iox2.receivePage, asked, size_, index_, count_, identified_, sized_,
    Option.bind_eq_bind, Option.bind_some]
  split
  · cases page.read 24 (ByteBuffer.decode identified + 24) <;> rfl
  · cases page.read 32 (ByteBuffer.decode sized + 32) <;> rfl

theorem tryRecvStream_unasked (allocations : Iox2.MergeAllocs) (unasked : asked page = none) :
    Iox2.tryRecvStream shouldCollect allocations (some page) = none := by
  simp only [Iox2.tryRecvStream]
  rw [receivePage_asked, unasked]
  rfl

theorem asked_of_received (received : ∃ answer, Iox2.receivePage shouldCollect allocations page =
    some answer) : (asked page).isSome := by
  obtain ⟨answer, received⟩ := received
  rw [receivePage_asked] at received
  cases header : asked page with
  | none => simp [header] at received
  | some _ => rfl

theorem sent_asked {payload : List UInt8} {headerSize : Nat} {identification : UInt64}
    {pages : List Blob} (sent : Iox2.sendStream payload headerSize identification =
      some (.ok pages)) (few : pages.length < 2 ^ 32) : ∀ page ∈ pages, (asked page).isSome := by
  obtain ⟨m, is⟩ : ∃ m : Iox2.Message, m = ⟨payload, headerSize, identification⟩ := ⟨_, rfl⟩
  have accepted : m.Accepted := by
    rw [is]
    exact ⟨pages, sent⟩
  have same : m.pages = pages := by simp [is, Iox2.Message.pages, sent]
  rw [← same] at few ⊢
  obtain ⟨inside, ⟨short, blob, whole, spec⟩ | ⟨cut, size, spec⟩⟩ := accepted.pages_spec
  · intro page member
    rw [whole, List.mem_singleton] at member
    subst member
    have room : m.payload.length ≤ Iox2.presetN := by
      have bound := Nat.not_lt.mp short
      unfold Iox2.presetN at bound ⊢
      omega
    exact asked_of_received ⟨_, Iox2.receivePage_whole inside room (fun _ => false) .empty spec⟩
  · intro page member
    obtain ⟨i, range, here⟩ := List.getElem_of_mem member
    obtain ⟨blob, at_, fragment⟩ := spec i (size ▸ range)
    have found : blob = page := by
      rw [List.getElem?_eq_getElem range, here] at at_
      exact (Option.some.inj at_).symm
    subst found
    have received := Iox2.receivePage_fragment cut (size ▸ few) (fun _ => false) .empty
      (size ▸ range) fragment
    exact asked_of_received ⟨_, received⟩

end Asked

section Steps

inductive Moves (s t : State) : Prop where
  | quiet (thread : t.thread = s.thread)
      (calls : own t.process.sendCalls = own s.process.sendCalls)
      (sending : t.process.sending = s.process.sending)
      (bounded : s.process.subscriber.length ≤ bufferSize →
        t.process.subscriber.length ≤ bufferSize ∧ t.room ≤ s.room)
  | collects (free : s.thread = .free) (thread : t.thread = s.thread)
      (calls : t.process.sendCalls = s.process.sendCalls)
      (sending : t.process.sending = s.process.sending)
      (subscriber : t.process.subscriber = s.process.subscriber)
  | queues (payload : List UInt8) (headerSize : Nat)
      (before : s.thread = .free ∨ s.thread = .sleeps payload headerSize)
      (thread : t.thread = .sends payload headerSize)
      (calls : own t.process.sendCalls = own s.process.sendCalls ++ [⟨payload, headerSize, false⟩])
      (sending : t.process.sending = s.process.sending)
      (subscriber : t.process.subscriber = s.process.subscriber) (room : t.room = s.room)
  | sendActor (act : SendAct) (sends : Sends s.process t.process act)
      (thread : t.thread = s.thread.hears (s.process.answersElsewhere act))
      (collecting : t.collecting = s.collecting)

theorem own_append (calls calls' : List SendCall) :
    own (calls ++ calls') = own calls ++ own calls' := by
  simp [own]

theorem Moves.process {process : Combined.State}
    (calls : own process.sendCalls = own s.process.sendCalls)
    (sending : process.sending = s.process.sending)
    (subscriber : process.subscriber = s.process.subscriber) :
    Moves s { s with process := process } := by
  refine .quiet rfl calls sending ?_
  intro bounded
  have same : ({ s with process := process } : State).room = s.room := by
    simp only [State.room, subscriber]
  rw [subscriber, same]
  exact ⟨bounded, Nat.le_refl _⟩

theorem receives_moves (move : s.receives = some t) : Moves s t := by
  unfold State.receives at move
  split at move
  · rename_i page rest idle calls pages
    split at move <;> cases move
    refine .quiet rfl rfl rfl ?_
    intro bounded
    rw [pages] at bounded
    simp only [State.room, idle, pages, List.length_cons] at bounded ⊢
    constructor
    · omega
    · simp
      omega
  · cases move

theorem collects_moves (free : s.thread = .free) (move : s.collects shouldCollect = some t) :
    Moves s t := by
  unfold State.collects at move
  split at move
  · split at move <;> cases move <;> exact .collects free rfl rfl rfl rfl
  · cases move

theorem recvActor_moves {act : RecvAct} (move : s.recvActor shouldCollect act = some t) :
    Moves s t := by
  unfold State.recvActor at move
  split at move
  · cases move
  · split at move
    · cases move
    · rename_i asks
      obtain ⟨process, step, rfl⟩ := Option.map_eq_some_iff.mp move
      have subscriber : process.subscriber = s.process.subscriber := by
        unfold Combined.State.recvActor at step
        split at step
        · cases step
        · rename_i calls
          have unasked : s.process.subscriber.head?.bind asked = none := by
            simpa [calls] using asks
          cases buffer : s.process.subscriber with
          | nil =>
            rw [buffer] at step
            simp only [List.head?_nil, Iox2.tryRecvStream] at step
            cases step
            rfl
          | cons page rest =>
            -- a page without a header ends the actor before it asks
            rw [buffer] at step unasked
            simp only [List.head?_cons, Option.bind_some] at step unasked
            rw [tryRecvStream_unasked _ unasked] at step
            cases step
            rfl
        · split at step <;> cases step
          rfl
        · split at step <;> cases step
          rfl
        · split at step <;> cases step
          rfl
      cases Combined.recvActor_cases step with
      | page answer calls less frame =>
        exact .process (by rw [frame]) (by rw [frame]) subscriber
      | wait answer calls iox2 frame =>
        exact .process (by rw [frame]) (by rw [frame]) subscriber

theorem proceeds_moves {process : Combined.State} (move : s.process.proceeds = some process) :
    Moves s { s with process := process } := by
  rcases Combined.proceeds_sends move with ⟨payload, headerSize, _, rfl⟩ | ⟨_, _, _, frame⟩ |
    ⟨_, _, same⟩
  · exact .process (by simp [own]) rfl rfl
  · exact .process (by rw [frame]) (by rw [frame]) (by rw [frame])
  · exact .process (by rw [same.calls]) same.sending same.subscriber

theorem queues_moves {payload : List UInt8} {headerSize : Nat}
    (before : s.thread = .free ∨ s.thread = .sleeps payload headerSize)
    (move : s.queues payload headerSize = some t) : Moves s t := by
  obtain ⟨process, step, rfl⟩ := Option.map_eq_some_iff.mp move
  unfold Combined.State.queues at step
  split at step <;> cases step
  exact .queues payload headerSize before rfl (by simp [own]) rfl rfl rfl

theorem next_alive {l : Label} (move : next shouldCollect s l = some t) :
    s.thread ≠ .aborted := by
  intro aborted
  unfold next at move
  rw [if_pos aborted] at move
  cases move

theorem next_moves {l : Label} (move : next shouldCollect s l = some t) : Moves s t := by
  unfold next at move
  split at move
  · cases move
  · cases l with
    | sendStream payload headerSize =>
      simp only at move
      split at move
      · rename_i free
        exact queues_moves (Or.inl free) move
      · cases move
    | wakes =>
      simp only at move
      split at move
      · rename_i payload headerSize sleeps
        exact queues_moves (Or.inr sleeps) move
      · cases move
    | collects =>
      simp only at move
      split at move
      · rename_i free
        exact collects_moves free move
      · cases move
    | receives => exact receives_moves move
    | recvActor act => exact recvActor_moves move
    | sendActor act =>
      obtain ⟨process, step, rfl⟩ := Option.map_eq_some_iff.mp move
      exact .sendActor act (Combined.sendActor_spec step) rfl rfl
    | passes time =>
      cases move
      exact .process rfl rfl rfl
    | task backing =>
      cases backing with
      | none =>
        obtain ⟨process, step, rfl⟩ := Option.map_eq_some_iff.mp move
        exact proceeds_moves step
      | some backing =>
        obtain ⟨process, step, rfl⟩ := Option.map_eq_some_iff.mp move
        obtain ⟨_, _, same⟩ := Combined.wakes_sends step
        exact .process (by rw [same.calls]) same.sending same.subscriber
    | client c act =>
      obtain ⟨process, step, rfl⟩ := Option.map_eq_some_iff.mp move
      have frame := Combined.client_frame step
      exact .process (by rw [frame]) (by rw [frame]) (by rw [frame])
    | mesh act =>
      obtain ⟨process, step, rfl⟩ := Option.map_eq_some_iff.mp move
      cases act with
      | notifies =>
        cases step
        exact .process rfl rfl rfl
      | publishes page =>
        simp only [Combined.State.mesh] at step
        split at step <;> cases step
        rename_i room
        refine .quiet rfl rfl rfl ?_
        intro bounded
        simp only [State.room, List.length_append, List.length_singleton]
        omega

end Steps

section Calls

variable {p q : Combined.State} {payload : List UInt8} {headerSize : Nat}

inductive Calls (payload : List UInt8) (headerSize : Nat) (s : State) : Prop where
  | queued (thread : s.thread = .sends payload headerSize)
      (calls : own s.process.sendCalls = [⟨payload, headerSize, false⟩])
      (apart : Apart s.process.sending)
  | sending (sending : Sending) (thread : s.thread = .sends payload headerSize)
      (calls : own s.process.sendCalls = []) (is : s.process.sending = some sending)
      (mine : sending.forwarded = false)
  | sleeps (thread : s.thread = .sleeps payload headerSize)
      (calls : own s.process.sendCalls = []) (apart : Apart s.process.sending)
  | aborted (thread : s.thread = .aborted)

structure Idle (s : State) : Prop where
  thread : s.thread = .free
  calls : own s.process.sendCalls = []
  apart : Apart s.process.sending

structure Sound (s : State) : Prop where
  bounded : s.process.subscriber.length ≤ bufferSize
  stage : Idle s ∨ ∃ payload headerSize, Calls payload headerSize s

theorem Calls.not_free (calls : Calls payload headerSize s) : s.thread ≠ .free := by
  cases calls with
  | queued thread => simp [thread]
  | sending sending thread => simp [thread]
  | sleeps thread => simp [thread]
  | aborted thread => simp [thread]

theorem Calls.frame (stage : Calls payload headerSize s) (thread : t.thread = s.thread)
    (calls : own t.process.sendCalls = own s.process.sendCalls)
    (sending : t.process.sending = s.process.sending) : Calls payload headerSize t := by
  cases stage with
  | queued busy waiting apart =>
    exact .queued (thread.trans busy) (calls.trans waiting) (sending ▸ apart)
  | sending sending' busy waiting is mine =>
    exact .sending sending' (thread.trans busy) (calls.trans waiting) (sending.trans is) mine
  | sleeps busy waiting apart =>
    exact .sleeps (thread.trans busy) (calls.trans waiting) (sending ▸ apart)
  | aborted busy => exact .aborted (thread.trans busy)

inductive Passes (p q : Combined.State) (act : SendAct) : Prop where
  | others (calls : own q.sendCalls = own p.sendCalls) (apart : Apart q.sending)
      (silent : p.answersElsewhere act = none)
  | rejects (call : SendCall) (error : IpcError) (mine : call.forwarded = false)
      (calls : own p.sendCalls = call :: own q.sendCalls) (fatal : error.senderRetries = false)
      (answer : p.answersElsewhere act = some (.error error)) (apart : Apart q.sending)
  | takes (call : SendCall) (sending : Sending) (mine : call.forwarded = false)
      (calls : own p.sendCalls = call :: own q.sendCalls) (is : q.sending = some sending)
      (forwarded : sending.forwarded = false) (silent : p.answersElsewhere act = none)

theorem own_cons (call : SendCall) (calls : List SendCall) :
    own (call :: calls) = if call.forwarded then own calls else call :: own calls := by
  cases forwarded : call.forwarded <;> simp [own, forwarded]

theorem apart_none : Apart none := by
  intro sending is
  cases is

theorem apart_some {sending : Sending} (forwarded : sending.forwarded = true) :
    Apart (some sending) := by
  rintro _ ⟨⟩
  exact forwarded

theorem sends_passes {act : SendAct} (sends : Sends p q act) (apart : Apart p.sending) :
    Passes p q act := by
  cases sends with
  | takes call sending identification idle calls is forwarded result drawn sent subscriber reply
      silent =>
    have split := own_cons call q.sendCalls
    rw [← calls] at split
    cases mine : call.forwarded with
    | true =>
      rw [mine, if_pos rfl] at split
      refine .others split.symm ?_ silent
      rw [is]
      exact apart_some (forwarded.trans mine)
    | false =>
      rw [mine, if_neg (by simp)] at split
      exact .takes call sending mine split is (forwarded.trans mine) silent
  | rejects call error idle calls done fatal subscriber reply answer =>
    have split := own_cons call q.sendCalls
    rw [← calls] at split
    have apart' : Apart q.sending := by
      rw [done]
      exact apart_none
    cases mine : call.forwarded with
    | true =>
      rw [mine, if_pos rfl] at split answer
      exact .others split.symm apart' answer
    | false =>
      rw [mine, if_neg (by simp)] at split answer
      exact .rejects call error mine split fatal answer apart'
  | publishes sending page left was pages is calls room subscriber reply silent =>
    refine .others (by rw [calls]) ?_ silent
    rw [is]
    exact apart_some (apart sending was)
  | goesOn sending sending' was is forwarded left calls subscriber reply silent =>
    refine .others (by rw [calls]) ?_ silent
    rw [is]
    exact apart_some (forwarded.trans (apart sending was))
  | ends sending result was done calls subscriber reply answer =>
    rw [apart sending was, if_pos rfl] at answer
    refine .others (by rw [calls]) ?_ answer
    rw [done]
    exact apart_none

@[simp] theorem hears_none (thread : Thread) : thread.hears none = thread := by
  cases thread <;> rfl

theorem hears_sleeps (answer : Option (Except IpcError Unit)) :
    (Thread.sleeps payload headerSize).hears answer = .sleeps payload headerSize := rfl

theorem hears_error (error : IpcError) :
    (Thread.sends payload headerSize).hears (some (.error error)) =
      if error.senderRetries then .sleeps payload headerSize else .aborted := rfl

theorem Calls.sendActor {act : SendAct} (calls : Calls payload headerSize s)
    (sends : Sends s.process t.process act)
    (thread : t.thread = s.thread.hears (s.process.answersElsewhere act)) :
    Calls payload headerSize t ∨ Idle t ∧ ∃ sending, s.process.sending = some sending ∧
      sending.forwarded = false ∧ sending.result = .ok () ∧ sending.left = [] := by
  cases calls with
  | queued busy waiting apart =>
    rw [busy] at thread
    cases sends_passes sends apart with
    | others same apart' silent =>
      rw [silent, hears_none] at thread
      exact Or.inl (.queued thread (same.trans waiting) apart')
    | rejects call error mine split fatal answer apart' =>
      rw [answer, hears_error, fatal, if_neg (by simp)] at thread
      exact Or.inl (.aborted thread)
    | takes call sending mine split is forwarded silent =>
      rw [silent, hears_none] at thread
      rw [split] at waiting
      exact Or.inl (.sending sending thread (List.cons.inj waiting).2 is forwarded)
  | sending sending busy waiting is mine =>
    rw [busy] at thread
    cases sends with
    | takes call sending' identification idle => rw [is] at idle; cases idle
    | rejects call error idle => rw [is] at idle; cases idle
    | publishes sending' page left was pages is' same room subscriber reply silent =>
      obtain rfl := Option.some.inj (is.symm.trans was)
      rw [silent, hears_none] at thread
      exact Or.inl (.sending _ thread (by rw [same, waiting]) is' mine)
    | goesOn sending' sending'' was is' forwarded left same subscriber reply silent =>
      obtain rfl := Option.some.inj (is.symm.trans was)
      rw [silent, hears_none] at thread
      exact Or.inl (.sending sending'' thread (by rw [same, waiting]) is' (forwarded.trans mine))
    | ends sending' result was done same subscriber reply answer how =>
      obtain rfl := Option.some.inj (is.symm.trans was)
      rw [answer, mine, if_neg (by simp)] at thread
      have waiting' : own t.process.sendCalls = [] := by rw [same, waiting]
      have apart : Apart t.process.sending := by
        rw [done]
        exact apart_none
      cases result with
      | ok _ => exact Or.inr ⟨⟨thread, waiting', apart⟩, sending, is, mine, how rfl⟩
      | error error =>
        rw [hears_error] at thread
        split at thread
        · exact Or.inl (.sleeps thread waiting' apart)
        · exact Or.inl (.aborted thread)
  | sleeps busy waiting apart =>
    rw [busy, hears_sleeps] at thread
    cases sends_passes sends apart with
    | others same apart' silent => exact Or.inl (.sleeps thread (same.trans waiting) apart')
    | rejects call error mine split => rw [split] at waiting; cases waiting
    | takes call sending mine split => rw [split] at waiting; cases waiting
  | aborted busy =>
    rw [busy] at thread
    exact Or.inl (.aborted thread)

theorem sends_bounded {act : SendAct} (sends : Sends p q act)
    (bounded : p.subscriber.length ≤ bufferSize) :
    q.subscriber.length ≤ bufferSize ∧ p.subscriber.length ≤ q.subscriber.length := by
  cases sends with
  | publishes sending page left was pages is calls room subscriber =>
    rw [subscriber, List.length_append, List.length_singleton]
    omega
  | takes call sending identification idle calls is forwarded result drawn sent subscriber =>
    rw [subscriber]
    omega
  | rejects call error idle calls done fatal subscriber => rw [subscriber]; omega
  | goesOn sending sending' was is forwarded left calls subscriber => rw [subscriber]; omega
  | ends sending result was done calls subscriber => rw [subscriber]; omega

theorem Sound.step {l : Label} (sound : Sound s) (move : next shouldCollect s l = some t) :
    Sound t := by
  obtain ⟨bounded, stage⟩ := sound
  cases next_moves move with
  | quiet thread calls sending keeps =>
    refine ⟨(keeps bounded).1, ?_⟩
    rcases stage with ⟨free, none_, apart⟩ | ⟨payload, headerSize, stage⟩
    · exact Or.inl ⟨thread.trans free, calls.trans none_, sending ▸ apart⟩
    · exact Or.inr ⟨payload, headerSize, stage.frame thread calls sending⟩
  | collects free thread calls sending subscriber =>
    refine ⟨subscriber ▸ bounded, ?_⟩
    rcases stage with ⟨_, none_, apart⟩ | ⟨payload, headerSize, stage⟩
    · exact Or.inl ⟨thread.trans free, calls ▸ none_, sending ▸ apart⟩
    · exact absurd free stage.not_free
  | queues payload headerSize before thread calls sending subscriber =>
    refine ⟨subscriber ▸ bounded, Or.inr ⟨payload, headerSize, ?_⟩⟩
    have idle : own s.process.sendCalls = [] ∧ Apart s.process.sending := by
      rcases stage with idle | ⟨_, _, stage⟩
      · exact ⟨idle.calls, idle.apart⟩
      · cases stage with
        | sleeps busy waiting apart => exact ⟨waiting, apart⟩
        | queued busy => rw [busy] at before; simp at before
        | sending _ busy => rw [busy] at before; simp at before
        | aborted busy => rw [busy] at before; simp at before
    exact .queued thread (by rw [calls, idle.1]; rfl) (sending ▸ idle.2)
  | sendActor act sends thread =>
    refine ⟨(sends_bounded sends bounded).1, ?_⟩
    rcases stage with ⟨free, none_, apart⟩ | ⟨payload, headerSize, stage⟩
    · rw [free] at thread
      cases sends_passes sends apart with
      | others same apart' silent =>
        rw [silent] at thread
        exact Or.inl ⟨thread, same.trans none_, apart'⟩
      | rejects call error mine split => rw [split] at none_; cases none_
      | takes call sending mine split => rw [split] at none_; cases none_
    · rcases stage.sendActor sends thread with stage' | ⟨idle, _⟩
      · exact Or.inr ⟨payload, headerSize, stage'⟩
      · exact Or.inl idle

theorem sound_of_run (run : CollectRun shouldCollect trace s) : Sound s := by
  refine reachable_invariant Sound ?_ (fun s l t sound move => sound.step move) ⟨trace, run⟩
  rintro s rfl
  exact ⟨Nat.zero_le _, Or.inl ⟨rfl, rfl, apart_none⟩⟩

end Calls

section Deadlock

variable {payload : List UInt8} {headerSize : Nat}

structure Stuck (payload : List UInt8) (headerSize : Nat) (s : State) : Prop where
  bounded : s.process.subscriber.length ≤ bufferSize
  calls : Calls payload headerSize s
  long : pageCount payload headerSize = 0 ∨ s.room < pageCount payload headerSize
  short : ∀ sending, s.process.sending = some sending → sending.forwarded = false →
    sending.result = .ok () → s.room < sending.left.length

theorem sends_room {act : SendAct} (sends : Sends s.process t.process act)
    (collecting : t.collecting = s.collecting) : t.room ≤ s.room := by
  cases sends with
  | publishes sending page left was pages is calls room subscriber =>
    simp only [State.room, subscriber, collecting, List.length_append, List.length_singleton]
    omega
  | takes call sending identification idle calls is forwarded result drawn sent subscriber =>
    simp only [State.room, subscriber, collecting]
    exact Nat.le_refl _
  | rejects call error idle calls done fatal subscriber =>
    simp only [State.room, subscriber, collecting]
    exact Nat.le_refl _
  | goesOn sending sending' was is forwarded left calls subscriber =>
    simp only [State.room, subscriber, collecting]
    exact Nat.le_refl _
  | ends sending result was done calls subscriber =>
    simp only [State.room, subscriber, collecting]
    exact Nat.le_refl _

theorem Stuck.sendActor_short {act : SendAct} (stuck : Stuck payload headerSize s)
    (alive : s.thread ≠ .aborted) (sends : Sends s.process t.process act)
    (collecting : t.collecting = s.collecting)
    (sending : Sending) (is : t.process.sending = some sending)
    (mine : sending.forwarded = false) (ok : sending.result = .ok ()) :
    t.room < sending.left.length := by
  have less := sends_room sends collecting
  cases sends with
  | takes call sending' identification idle calls is' forwarded result drawn sent =>
    obtain rfl := Option.some.inj (is.symm.trans is')
    have split := own_cons call t.process.sendCalls
    rw [← calls, ← forwarded, mine, if_neg (by simp)] at split
    have same : call = ⟨payload, headerSize, false⟩ := by
      cases stuck.calls with
      | queued busy waiting =>
        rw [split] at waiting
        exact (List.cons.inj waiting).1
      | sending _ _ _ was => rw [idle] at was; cases was
      | sleeps busy waiting => rw [split] at waiting; cases waiting
      | aborted busy => exact absurd busy alive
    subst same
    obtain ⟨count, busy⟩ := Combined.pageCount_sent sent
    rcases stuck.long with nothing | long
    · rw [nothing] at count
      exact absurd (List.eq_nil_of_length_eq_zero count.symm) busy
    · rw [← count]
      exact Nat.lt_of_le_of_lt less long
  | rejects call error idle calls done => rw [done] at is; cases is
  | publishes sending' page left was pages is' calls room subscriber =>
    obtain rfl := Option.some.inj (is.symm.trans is')
    have before := stuck.short sending' was mine ok
    have length : sending'.left.length = left.length + 1 := by simp [pages]
    simp only [State.room, subscriber, collecting, List.length_append, List.length_singleton]
    simp only [State.room] at before
    omega
  | goesOn sending' sending'' was is' forwarded left calls subscriber =>
    obtain rfl := Option.some.inj (is.symm.trans is')
    obtain ⟨ok', same⟩ := left ok
    have before := stuck.short sending' was (forwarded.symm.trans mine) ok'
    rw [same]
    omega
  | ends sending' result was done => rw [done] at is; cases is

theorem Stuck.step {l : Label} (stuck : Stuck payload headerSize s)
    (move : next shouldCollect s l = some t) : Stuck payload headerSize t := by
  have alive := next_alive move
  cases next_moves move with
  | quiet thread calls sending keeps =>
    obtain ⟨bounded, less⟩ := keeps stuck.bounded
    refine ⟨bounded, ?_, stuck.long.imp_right (Nat.lt_of_le_of_lt less), ?_⟩
    · exact stuck.calls.frame thread calls sending
    · intro sending' is mine ok
      rw [sending] at is
      exact Nat.lt_of_le_of_lt less (stuck.short sending' is mine ok)
  | collects free => exact absurd free stuck.calls.not_free
  | queues payload' headerSize' before thread calls sending subscriber room =>
    cases stuck.calls with
    | sleeps busy waiting apart =>
      rw [busy] at before
      obtain ⟨rfl, rfl⟩ : payload = payload' ∧ headerSize = headerSize' := by simpa using before
      refine ⟨subscriber ▸ stuck.bounded, ?_, room ▸ stuck.long, ?_⟩
      · exact .queued thread (by rw [calls, waiting]; rfl) (sending ▸ apart)
      · intro sending' is mine
        rw [sending] at is
        rw [apart sending' is] at mine
        cases mine
    | queued busy => rw [busy] at before; simp at before
    | sending _ busy => rw [busy] at before; simp at before
    | aborted busy => exact absurd busy alive
  | sendActor act sends thread collecting =>
    have calls : Calls payload headerSize t := by
      rcases stuck.calls.sendActor sends thread with calls | ⟨_, sending, is, mine, ok, left⟩
      · exact calls
      · have short := stuck.short sending is mine ok
        simp [left] at short
    exact ⟨(sends_bounded sends stuck.bounded).1, calls,
      stuck.long.imp_right (Nat.lt_of_le_of_lt (sends_room sends collecting)),
      fun sending is mine ok => stuck.sendActor_short alive sends collecting sending is mine ok⟩

def Returns (shouldCollect : List UInt8 → Bool) (s : State) : Prop :=
  Leads (fun s l t => next shouldCollect s l = some t) (fun _ => True) (·.thread = .free) s

theorem Stuck.never_returns (stuck : Stuck payload headerSize s) : ¬ Returns shouldCollect s := by
  rintro ⟨labels, t, path, _, free⟩
  have stuck' := path.keeps (Stuck payload headerSize)
    (fun s l t stuck move => stuck.step move) stuck
  exact stuck'.calls.not_free free

end Deadlock

section Returns

variable {payload : List UInt8} {headerSize : Nat} {sending : Sending}

theorem Returns.here (free : s.thread = .free) : Returns shouldCollect s :=
  Leads.here free

theorem Returns.after {l : Label} (returns : Returns shouldCollect t)
    (move : next shouldCollect s l = some t) : Returns shouldCollect s :=
  Leads.after returns move trivial

structure Publishing (sending : Sending) (s : State) : Prop where
  thread : ∃ payload headerSize, s.thread = .sends payload headerSize
  is : s.process.sending = some sending
  mine : sending.forwarded = false
  turn : sending.notifies = false
  ok : sending.result = .ok ()
  busy : sending.left ≠ []

theorem Publishing.page (publishing : Publishing sending s) {page : Blob} {left : List Blob}
    (pages : sending.left = page :: left) (room : s.process.subscriber.length < bufferSize)
    (further : ∀ t, Publishing { sending with left := left, notifies := false } t →
      t.process.subscriber = s.process.subscriber ++ [page] → t.collecting = s.collecting →
      t.process.recvCalls = s.process.recvCalls → Returns shouldCollect t) :
    Returns shouldCollect s := by
  obtain ⟨⟨payload, headerSize, thread⟩, is, mine, turn, ok, busy⟩ := publishing
  -- the page is in the buffer, its notification comes next
  obtain ⟨p, here⟩ : ∃ p : Combined.State, p = { s.process with
      subscriber := s.process.subscriber ++ [page]
      sending := some { sending with left := left, notifies := true } } := ⟨_, rfl⟩
  have sends : p.sending = some { sending with left := left, notifies := true } := by rw [here]
  have publishes : next shouldCollect s (.sendActor .publishes) =
      some { s with process := p } := by
    simp [next, thread, Combined.State.sendActor, is, turn, Combined.State.publishes, pages, room,
      Combined.State.answersElsewhere, here]
  refine Returns.after ?_ publishes
  cases left with
  | nil =>
    have notifies : next shouldCollect { s with process := p } (.sendActor .notifies) =
        some ⟨{ p with listener := true, sending := none }, s.collecting, .free⟩ := by
      simp [next, thread, Combined.State.sendActor, sends, Combined.State.notified,
        Combined.State.sent, Combined.State.answersElsewhere, mine, ok, Thread.hears]
    exact Returns.after (.here rfl) notifies
  | cons page' left =>
    have notifies : next shouldCollect { s with process := p } (.sendActor .notifies) =
        some { s with process :=
          { p with
            listener := true
            sending := some { sending with left := page' :: left, notifies := false } } } := by
      simp [next, thread, Combined.State.sendActor, sends, Combined.State.notified,
        Combined.State.answersElsewhere]
    refine Returns.after (further _ ?_ ?_ ?_ ?_) notifies
    · exact ⟨⟨payload, headerSize, thread⟩, rfl, mine, rfl, ok, by simp⟩
    · rw [here]
    · rfl
    · rw [here]

theorem Publishing.fits (publishing : Publishing sending s)
    (room : s.process.subscriber.length + sending.left.length ≤ bufferSize) :
    Returns shouldCollect s := by
  generalize left : sending.left = pages at room
  induction pages generalizing s sending with
  | nil => exact absurd left publishing.busy
  | cons page rest ih =>
    simp only [List.length_cons] at room
    refine publishing.page left (by omega) ?_
    intro t publishing' subscriber _ _
    refine ih publishing' rfl ?_
    rw [subscriber, List.length_append, List.length_singleton]
    omega

structure Serves (pages : List Blob) (s : State) : Prop where
  asks : s.collecting = none → s.process.recvCalls.head? = some .tryRecvStream
  header : s.collecting = none → ∀ page ∈ (s.process.subscriber ++ pages).head?,
    (asked page).isSome

theorem Publishing.fits_received (publishing : Publishing sending s)
    (some_ : s.process.subscriber ≠ []) (idle : s.collecting = none) (pages' : List Blob)
    (serves : Serves pages' s)
    (room : s.process.subscriber.length + sending.left.length ≤ bufferSize + 1) :
    Returns shouldCollect s := by
  obtain ⟨⟨payload, headerSize, thread⟩, is, mine, turn, ok, busy⟩ := publishing
  obtain ⟨page, rest, pages⟩ := List.exists_cons_of_ne_nil some_
  obtain ⟨calls, queue⟩ := List.head?_eq_some_iff.mp (serves.asks idle)
  have header : (asked page).isSome := serves.header idle page (by simp [pages])
  have receives : next shouldCollect s .receives = some
      { s with process := { s.process with subscriber := rest }, collecting := some page } := by
    simp [next, thread, State.receives, idle, queue, pages, header]
  have publishing' : Publishing sending
      { s with process := { s.process with subscriber := rest }, collecting := some page } :=
    ⟨⟨payload, headerSize, thread⟩, is, mine, turn, ok, busy⟩
  refine Returns.after (publishing'.fits ?_) receives
  rw [pages, List.length_cons] at room
  simp only
  omega

theorem Publishing.returns (publishing : Publishing sending s)
    (serves : Serves sending.left s) (bounded : s.process.subscriber.length ≤ bufferSize)
    (room : sending.left.length ≤ s.room) : Returns shouldCollect s := by
  cases idle : s.collecting with
  | some page =>
    simp only [State.room, idle, Option.isSome_some, if_true] at room
    refine publishing.fits ?_
    omega
  | none =>
    simp only [State.room, idle, Option.isSome_none, Bool.false_eq_true, if_false] at room
    cases buffer : s.process.subscriber with
    | cons page rest =>
      refine publishing.fits_received (by simp [buffer]) idle _ serves ?_
      omega
    | nil =>
      -- no page to take yet, the first of the call is the one
      obtain ⟨page, left, pages⟩ := List.exists_cons_of_ne_nil publishing.busy
      rw [pages, List.length_cons, buffer, List.length_nil] at room
      refine publishing.page pages (by simp [buffer, bufferSize]) ?_
      intro t publishing' subscriber collecting calls
      rw [buffer, List.nil_append] at subscriber
      refine publishing'.fits_received (by simp [subscriber]) (collecting.trans idle) [] ?_ ?_
      · refine ⟨fun _ => by rw [calls, serves.asks idle], fun _ page' first => ?_⟩
        refine serves.header idle page' ?_
        simpa [subscriber, buffer, pages] using first
      · rw [subscriber, List.length_singleton]
        simp only
        omega

theorem queues_spec (move : s.queues payload headerSize = some t) :
    t = ⟨{ s.process with sendCalls := s.process.sendCalls ++ [⟨payload, headerSize, false⟩] },
      s.collecting, .sends payload headerSize⟩ := by
  obtain ⟨process, step, rfl⟩ := Option.map_eq_some_iff.mp move
  unfold Combined.State.queues at step
  split at step <;> cases step
  rfl

theorem Sound.stuck (sound : Sound s) (free : s.thread = .free)
    (move : s.queues payload headerSize = some t)
    (long : pageCount payload headerSize = 0 ∨ s.room < pageCount payload headerSize) :
    Stuck payload headerSize t := by
  obtain ⟨_, none_, apart⟩ : Idle s := by
    rcases sound.stage with idle | ⟨_, _, stage⟩
    · exact idle
    · exact absurd free stage.not_free
  rw [queues_spec move]
  refine ⟨sound.bounded, .queued rfl ?_ apart, long, ?_⟩
  · rw [own_append, none_]
    rfl
  · intro sending is mine
    rw [apart sending is] at mine
    cases mine

theorem queues_returns (idle : s.process.sending = none) (none_ : s.process.sendCalls = [])
    (asks : s.collecting = none → s.process.recvCalls.head? = some .tryRecvStream)
    (header : ∀ page ∈ s.process.subscriber.head?, (asked page).isSome)
    (bounded : s.process.subscriber.length ≤ bufferSize)
    (move : s.queues payload headerSize = some t) (some_ : 0 < pageCount payload headerSize)
    (room : pageCount payload headerSize ≤ s.room) : Returns shouldCollect t := by
  obtain ⟨pages, sent⟩ : ∃ pages, Iox2.sendStream payload headerSize 1 = some (.ok pages) := by
    by_contra rejected
    have nothing : pageCount payload headerSize = 0 :=
      Combined.pageCount_rejected 1 (fun pages sent => rejected ⟨pages, sent⟩)
    omega
  obtain ⟨count, busy⟩ := Combined.pageCount_sent sent
  have few : pages.length < 2 ^ 32 := by
    have most : s.room ≤ bufferSize + 1 := by
      unfold State.room
      split <;> omega
    unfold bufferSize at most
    omega
  rw [queues_spec move, none_, List.nil_append]
  obtain ⟨u, is⟩ : ∃ u : State, u = ⟨{ s.process with
      sendCalls := []
      sending := some
        { left := pages
          fragmented := Iox2.presetN - 8 - 8 - 8 < payload.length
          forwarded := false
          notifies := false
          result := .ok () } }, s.collecting, .sends payload headerSize⟩ := ⟨_, rfl⟩
  have takes : next shouldCollect
      ⟨{ s.process with sendCalls := [⟨payload, headerSize, false⟩] }, s.collecting,
        .sends payload headerSize⟩ (.sendActor (.takes 1)) = some u := by
    simp [next, Combined.State.sendActor, idle, Combined.State.takesCall, sent,
      Combined.State.answersElsewhere, is]
  subst is
  refine Returns.after ?_ takes
  refine Publishing.returns ⟨⟨payload, headerSize, rfl⟩, rfl, rfl, rfl, rfl, busy⟩ ?_ bounded ?_
  · refine ⟨asks, ?_⟩
    intro _ page first
    cases buffer : s.process.subscriber with
    | nil =>
      simp only [buffer, List.nil_append] at first
      exact sent_asked sent few page (List.mem_of_mem_head? first)
    | cons page' rest =>
      simp only [buffer, List.cons_append, List.head?_cons] at first
      exact header page (by simpa [buffer] using first)
  · exact count ▸ room

/-- While the event loop is in sendStream nothing runs should_collect. In every run, a payload
    that is refused, or has more pages than find room in the buffer and with the receive actor,
    keeps it there for good; with idle actors, any other may come back. -/
theorem send_stream_may_return (run : CollectRun shouldCollect trace s)
    (move : next shouldCollect s (.sendStream payload headerSize) = some t) :
    (Returns shouldCollect t → 0 < pageCount payload headerSize ∧
      pageCount payload headerSize ≤ s.room) ∧
    (s.process.sending = none → s.process.sendCalls = [] →
      (s.collecting = none → s.process.recvCalls.head? = some .tryRecvStream) →
      (∀ page ∈ s.process.subscriber.head?, (asked page).isSome) →
      0 < pageCount payload headerSize → pageCount payload headerSize ≤ s.room →
      Returns shouldCollect t) := by
  have sound := sound_of_run run
  obtain ⟨free, queues⟩ : s.thread = .free ∧ s.queues payload headerSize = some t := by
    have alive := next_alive move
    simp only [next, alive, if_false] at move
    split at move
    · rename_i free
      exact ⟨free, move⟩
    · cases move
  constructor
  · intro returns
    by_contra fits
    have long : pageCount payload headerSize = 0 ∨ s.room < pageCount payload headerSize := by
      omega
    exact (sound.stuck free queues long).never_returns returns
  · intro idle none_ asks header some_ room
    exact queues_returns idle none_ asks header sound.bounded queues some_ room

/-- One page with the receive actor in try_recv_stream, and the same page when the buffer is full
    and the receive actor holds one more. -/
theorem send_stream_may_return_one_page :
    (∃ trace s t, CollectRun (fun _ => true) trace s ∧
      next (fun _ => true) s (.sendStream [1] 0) = some t ∧ Returns (fun _ => true) t) ∧
    ∃ trace s t, CollectRun (fun _ => true) trace s ∧
      next (fun _ => true) s (.sendStream [1] 0) = some t ∧ ¬ Returns (fun _ => true) t := by
  have queues (s : State) (free : s.thread = .free) (none_ : s.process.sendCalls = []) :
      ∃ t, next (fun _ => true) s (.sendStream [1] 0) = some t := by
    refine ⟨⟨{ s.process with sendCalls := [⟨[1], 0, false⟩] }, s.collecting, .sends [1] 0⟩, ?_⟩
    simp [next, free, State.queues, Combined.State.queues, none_, Combined.channelCapacity]
  have one : pageCount [1] 0 = 1 := by decide +kernel
  constructor
  · obtain ⟨trace, s, run, free, room, calls, asks, idle, buffer⟩ :=
      execute_run (next fun _ => true) init (List.replicate 4 (.task none))
        (fun _ s => s.thread = .free ∧ s.room = 11 ∧ s.process.sendCalls = [] ∧
          s.process.recvCalls.head? = some .tryRecvStream ∧ s.process.sending.isNone ∧
          s.process.subscriber.isEmpty)
        (by decide +kernel)
    obtain ⟨t, move⟩ := queues s free calls
    refine ⟨trace, s, t, run, move, (send_stream_may_return run move).2 ?_ calls (fun _ => asks)
      ?_ (by omega) (by omega)⟩
    · simpa using idle
    · simp [List.isEmpty_iff.mp buffer]
  · obtain ⟨trace, s, run, free, room, calls⟩ := execute_run (next fun _ => true) init
      (List.replicate 10 (.mesh (.publishes Iox2.Blob.zeroed)) ++
        List.replicate 4 (.task none) ++ [.receives, .mesh (.publishes Iox2.Blob.zeroed)])
      (fun _ s => s.thread = .free ∧ s.room = 0 ∧ s.process.sendCalls = [])
      (by decide +kernel)
    obtain ⟨t, move⟩ := queues s free calls
    refine ⟨trace, s, t, run, move, ?_⟩
    intro returns
    have fits := (send_stream_may_return run move).1 returns
    omega

end Returns

end Deno.Collect
