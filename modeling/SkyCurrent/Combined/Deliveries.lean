import SkyCurrent.Combined.Backlogs
import SkyCurrent.Gateway.Trip
import SkyCurrent.Iox2.Completion
import SkyCurrent.Iox2.Lossy

/- From the pages that reach the subscriber to the messages that the queue and the web clients
   get. The receiver task, the receive actor and the handlers of the clients work on them side by
   side, and come to what one pass over the pages would give. -/
namespace Combined

open Iox2 (Blob MergeAllocs TryRecvStreamResult Message Sent EachOnce pageAt receiveAll completed)
open Gateway (payloadCopy)
open Runs

variable {shouldCollect : List UInt8 → Bool} {s t : State} {trace : List (State × Label)}

def publishedBy (s : State) : Label → List Blob
  | .mesh (.publishes page) => [page]
  | .sendActor .publishes => (s.sending.bind fun sending => sending.left.head?).toList
  | _ => []

def published (trace : List (State × Label)) : List Blob :=
  trace.flatMap fun e => publishedBy e.1 e.2

def Pc.asks : Pc → Nat
  | .tryRecvReply _ => 1
  | _ => 0

def Pc.copies : Pc → List (List UInt8 × Nat)
  | .sendCopy payload headerSize => [(payload, headerSize)]
  | _ => []

def answered : Option (Except IpcError TryRecvStreamResult) → List (List UInt8 × Nat)
  | some (.ok result) => result.message.toList
  | _ => []

def State.inHand (s : State) : List (List UInt8 × Nat) := answered s.tryRecvReply ++ s.pc.copies

def State.asked (s : State) : Nat :=
  s.recvCalls.count .tryRecvStream + s.tryRecvReply.toList.length

structure Quiet (s t : State) : Prop where
  subscriber : t.subscriber = s.subscriber
  mergeAllocs : t.mergeAllocs = s.mergeAllocs
  reply : t.tryRecvReply = s.tryRecvReply
  received : t.received = s.received
  clients : t.clients = s.clients
  before : s.pc.copies = []
  after : t.pc.copies = []
  asks : t.recvCalls.count .tryRecvStream + s.pc.asks =
    s.recvCalls.count .tryRecvStream + t.pc.asks

section Task

theorem fails_quiet (error : IpcError) : (s.fails error).pc.copies = [] ∧
    (s.fails error).pc.asks = 0 := by
  unfold State.fails
  split <;> exact ⟨rfl, rfl⟩

theorem drains_quiet {again after : Pc} (pc : s.pc = .drain ∨ s.pc = .drainAfterWait)
    (quiet : again.copies = [] ∧ again.asks = 0 ∧ after.copies = [] ∧ after.asks = 0) :
    Quiet s (s.drains again after) := by
  obtain ⟨again1, again2, after1, after2⟩ := quiet
  have here : s.pc.copies = [] ∧ s.pc.asks = 0 := by
    rcases pc with pc | pc <;> rw [pc] <;> exact ⟨rfl, rfl⟩
  have there : (s.drains again after).pc.copies = [] ∧ (s.drains again after).pc.asks = 0 := by
    unfold State.drains
    split
    · exact ⟨after1, after2⟩
    · rename_i backing rest _
      cases backing with
      | ok backing => exact ⟨again1, again2⟩
      | error error => exact fails_quiet error
  rw [drains_frame] at there ⊢
  exact ⟨rfl, rfl, rfl, rfl, rfl, here.1, there.1, by
    change s.recvCalls.count _ + _ = s.recvCalls.count _ + _
    rw [here.2, there.2]⟩

theorem tries_quiet {left : Nat} (pc : s.pc = .tries left) (move : s.tries left = some t) :
    Quiet s t := by
  have here : s.pc.copies = [] ∧ s.pc.asks = 0 := by
    rw [pc]
    exact ⟨rfl, rfl⟩
  unfold State.tries at move
  split at move
  · cases move
    exact ⟨rfl, rfl, rfl, rfl, rfl, here.1, rfl, by rw [here.2]; rfl⟩
  · split at move
    · cases move
      exact ⟨rfl, rfl, rfl, rfl, rfl, here.1, rfl, by rw [here.2]; rfl⟩
    · split at move
      · cases move
        exact ⟨rfl, rfl, rfl, rfl, rfl, here.1, rfl, by rw [here.2]; rfl⟩
      · split at move
        · split at move <;> cases move
          refine ⟨rfl, rfl, rfl, rfl, rfl, here.1, rfl, ?_⟩
          change (s.recvCalls ++ [RecvCall.tryRecvStream]).count RecvCall.tryRecvStream +
            s.pc.asks = s.recvCalls.count RecvCall.tryRecvStream + 1
          rw [here.2]
          simp
        · split at move
          · cases move
            exact ⟨rfl, rfl, rfl, rfl, rfl, here.1, rfl, by rw [here.2]; rfl⟩
          · cases move
            unfold State.unframes
            split <;> exact ⟨rfl, rfl, rfl, rfl, rfl, here.1, rfl, by rw [here.2]; rfl⟩

inductive TaskPages (s : State) : State → Prop where
  | hears {t : State} (left : Nat) (reply : Except IpcError TryRecvStreamResult)
      (pc : s.pc = .tryRecvReply left) (here : s.tryRecvReply = some reply)
      (none_ : t.tryRecvReply = none) (hand : t.pc.copies = answered (some reply))
      (asks : t.pc.asks = 0)
      (frame : t = { s with
        tryRecvReply := t.tryRecvReply
        pc := t.pc
        currentBacking := t.currentBacking
        entered := t.entered
        subscription := t.subscription }) : TaskPages s t
  | pushes (payload : List UInt8) (headerSize : Nat) (pc : s.pc = .sendCopy payload headerSize) :
      TaskPages s { s with
        clients := s.clients.map fun client =>
          { client with backlog := client.backlog ++ [payloadCopy payload headerSize] }
        received := s.received ++ [payload]
        pc := .betweenCalls }
  | quiet {t : State} (quiet : Quiet s t) : TaskPages s t

theorem hears_pages (reply : Except IpcError TryRecvStreamResult) (left : Nat) :
    (s.hears reply left).pc.copies = answered (some reply) ∧ (s.hears reply left).pc.asks = 0 := by
  unfold State.hears
  split
  · exact fails_quiet _
  · exact ⟨rfl, rfl⟩
  · exact ⟨rfl, rfl⟩
  · exact ⟨rfl, rfl⟩

theorem proceeds_pages (move : s.proceeds = some t) : TaskPages s t := by
  cases pc : s.pc with
  | tryRecvReply left =>
    simp only [State.proceeds, pc] at move
    obtain ⟨reply, here, rfl⟩ := Option.map_eq_some_iff.mp move
    obtain ⟨hand, asks⟩ := hears_pages (s := { s with tryRecvReply := none }) reply left
    refine .hears left reply pc here ?_ ?_ ?_ ?_
    · rw [hears_frame]
    · rw [pc] at hand
      exact hand
    · rw [pc] at asks
      exact asks
    · rw [hears_frame]
  | sendCopy payload headerSize =>
    simp only [State.proceeds, pc, Gateway.sendsCopy_eq] at move
    split at move <;> cases move
    exact .pushes payload headerSize pc
  | _ =>
    refine .quiet ?_
    cases proceeds_cases move with
    | calls pc => exact ⟨rfl, rfl, rfl, rfl, rfl, by rw [pc]; rfl, rfl, by rw [pc]; rfl⟩
    | startsOn pc =>
      rw [startsOn_frame]
      exact ⟨rfl, rfl, rfl, rfl, rfl, by rw [pc]; rfl, rfl, by rw [pc]; rfl⟩
    | drains pc => exact drains_quiet (Or.inl pc) ⟨rfl, rfl, rfl, rfl⟩
    | tries left pc move => exact tries_quiet pc move
    | hears left reply pc' => rw [pc'] at pc; cases pc
    | sendsCopy payload headerSize pc' => rw [pc'] at pc; cases pc
    | sends payload headerSize pc =>
      exact ⟨rfl, rfl, rfl, rfl, rfl, by rw [pc]; rfl, rfl, by rw [pc]; rfl⟩
    | resends payload headerSize reply pc here =>
      cases reply with
      | ok _ => exact ⟨rfl, rfl, rfl, rfl, rfl, by rw [pc]; rfl, rfl, by rw [pc]; rfl⟩
      | error error =>
        unfold State.resends
        cases retries : error.senderRetries
        · exact ⟨rfl, rfl, rfl, rfl, rfl, by rw [pc]; rfl, by simp [retries, Pc.copies],
            by simp [retries, pc, Pc.asks]⟩
        · exact ⟨rfl, rfl, rfl, rfl, rfl, by rw [pc]; rfl, by simp [retries, Pc.copies],
            by simp [retries, pc, Pc.asks]⟩
    | selects pc locked => exact ⟨rfl, rfl, rfl, rfl, rfl, by rw [pc]; rfl, rfl, by rw [pc]; rfl⟩
    | asksToWait pc free =>
      refine ⟨rfl, rfl, rfl, rfl, rfl, by rw [pc]; rfl, rfl, ?_⟩
      simp [pc, Pc.asks]
    | subscribes pc unsubscribed =>
      exact ⟨rfl, rfl, rfl, rfl, rfl, by rw [pc]; rfl, by simp only [pc]; rfl, rfl⟩
    | drainsAfterWait pc => exact drains_quiet (Or.inr pc) ⟨rfl, rfl, rfl, rfl⟩

theorem wakes_quiet {backing : Backing} (move : s.wakes backing = some t) : Quiet s t := by
  obtain ⟨pc, ⟨reply, rest, rfl, _, rfl⟩ | rfl⟩ := wakes_cases move
  · cases reply with
    | ok backing => exact ⟨rfl, rfl, rfl, rfl, rfl, by rw [pc]; rfl, rfl, by rw [pc]; rfl⟩
    | error error =>
      obtain ⟨after, asks⟩ := fails_quiet
        (s := { s with waitStreamReceiver := rest, subscription := none }) error
      refine ⟨rfl, rfl, rfl, rfl, rfl, by rw [pc]; rfl, after, ?_⟩
      have none_ : ({ s with waitStreamReceiver := rest, subscription := none
          }.handleWaitStreamReturn (.error error) .drainAfterWait).pc.asks = 0 := asks
      rw [none_, pc]
      rfl
  · exact ⟨rfl, rfl, rfl, rfl, rfl, by rw [pc]; rfl, rfl, by rw [pc]; rfl⟩

end Task

section Actors

inductive ActorPages (shouldCollect : List UInt8 → Bool) (s : State) : State → Prop where
  | takes (rest : List RecvCall) (result : TryRecvStreamResult) (allocations : MergeAllocs)
      (calls : s.recvCalls = .tryRecvStream :: rest)
      (merges : Iox2.tryRecvStream shouldCollect s.mergeAllocs s.subscriber.head? =
        some (result, allocations)) :
      ActorPages shouldCollect s { s with
        recvCalls := rest
        tryRecvReply := some (.ok result)
        subscriber := s.subscriber.tail
        mergeAllocs := allocations }
  | fails (rest : List RecvCall) (error : IpcError) (calls : s.recvCalls = .tryRecvStream :: rest) :
      ActorPages shouldCollect s
        { s with recvCalls := rest, tryRecvReply := some (.error error) }
  | waits (rest : List RecvCall) (calls : s.recvCalls = .waitStream :: rest) (listener : Bool)
      (replies : List (Except IpcError Backing)) :
      ActorPages shouldCollect s
        { s with recvCalls := rest, listener := listener, waitStreamReceiver := replies }

theorem recvActor_pages {act : RecvAct} (move : s.recvActor shouldCollect act = some t) :
    ActorPages shouldCollect s t := by
  unfold State.recvActor at move
  split at move
  · cases move
  · rename_i rest calls
    split at move
    · cases move
      exact .fails rest _ calls
    · rename_i result allocations merges
      cases move
      exact .takes rest result allocations calls merges
  · rename_i rest calls
    split at move <;> cases move
    exact .waits rest calls _ _
  · rename_i rest error calls
    split at move <;> cases move
    exact .fails rest error calls
  · rename_i rest error calls
    split at move <;> cases move
    exact .waits rest calls s.listener _

theorem sendActor_publishes {act : SendAct} (move : s.sendActor act = some t) :
    t.subscriber = s.subscriber ++ publishedBy s (.sendActor act) := by
  cases is : s.sending with
  | none =>
    cases act with
    | takes identification =>
      simp only [State.sendActor, is] at move
      rw [takesCall_frame move]
      exact (List.append_nil _).symm
    | _ => simp [State.sendActor, is] at move
  | some sending =>
    cases act with
    | takes identification => simp [State.sendActor, is] at move
    | publishes =>
      simp only [State.sendActor, is] at move
      split at move
      · cases move
      · unfold State.publishes at move
        split at move
        · cases move
        · rename_i page left pages
          split at move <;> cases move
          simp [publishedBy, is, pages]
    | pageFails error =>
      simp only [State.sendActor, is] at move
      split at move
      · cases move
      · unfold State.pageFails at move
        split at move
        · split at move <;> cases move <;> exact (List.append_nil _).symm
        · cases move
    | notifies =>
      simp only [State.sendActor, is] at move
      split at move <;> cases move
      unfold State.notified
      split <;> exact (List.append_nil _).symm
    | notifyFails =>
      simp only [State.sendActor, is] at move
      split at move <;> cases move
      exact (List.append_nil _).symm
    | interrupted =>
      simp only [State.sendActor, is] at move
      split at move <;> cases move
      exact (List.append_nil _).symm

end Actors

/-- The pages taken from the subscriber so far, what came out of them, and what of that has been
    pushed to the queue and broadcast. -/
structure Delivers (shouldCollect : List UInt8 → Bool) (trace : List (State × Label)) (s : State)
    (taken : List Blob) (delivered : List (List UInt8 × Nat)) : Prop where
  pages : published trace = taken ++ s.subscriber
  merges : ∃ results, receiveAll shouldCollect .empty taken = some (results, s.mergeAllocs) ∧
    completed results = delivered ++ s.inHand
  pushed : s.received = delivered.map Prod.fst
  /-- A web client has the newest of these messages still to read, and no others. -/
  backlogs : ∀ client ∈ s.clients, ∃ unread, unread <:+ delivered ∧
    client.backlog = unread.map fun message => payloadCopy message.1 message.2
  asked : s.asked = s.pc.asks

section Steps

variable {taken : List Blob} {delivered : List (List UInt8 × Nat)} {l : Label}

theorem published_snoc (trace : List (State × Label)) (s : State) (l : Label) :
    published (trace ++ [(s, l)]) = published trace ++ publishedBy s l := by
  simp [published]

theorem Delivers.quiet (del : Delivers shouldCollect trace s taken delivered) (quiet : Quiet s t)
    (none_ : publishedBy s l = []) :
    Delivers shouldCollect (trace ++ [(s, l)]) t taken delivered := by
  have hand : t.inHand = s.inHand := by
    rw [State.inHand, State.inHand, quiet.reply, quiet.before, quiet.after]
  refine ⟨?_, ?_, ?_, ?_, ?_⟩
  · rw [published_snoc, none_, List.append_nil, quiet.subscriber]
    exact del.pages
  · rw [quiet.mergeAllocs, hand]
    exact del.merges
  · rw [quiet.received]
    exact del.pushed
  · rw [quiet.clients]
    exact del.backlogs
  · have before := del.asked
    have asks := quiet.asks
    unfold State.asked at before ⊢
    rw [quiet.reply]
    omega

theorem Delivers.pushes (del : Delivers shouldCollect trace s taken delivered)
    {payload : List UInt8} {headerSize : Nat} (pc : s.pc = .sendCopy payload headerSize) :
    Delivers shouldCollect (trace ++ [(s, .proceeds)]) { s with
        clients := s.clients.map fun client =>
          { client with backlog := client.backlog ++ [payloadCopy payload headerSize] }
        received := s.received ++ [payload]
        pc := .betweenCalls } taken (delivered ++ [(payload, headerSize)]) := by
  have asked := del.asked
  rw [pc] at asked
  have waiting : s.tryRecvReply = none := by
    unfold State.asked at asked
    change _ = 0 at asked
    cases reply : s.tryRecvReply with
    | none => rfl
    | some reply' =>
      rw [reply] at asked
      simp at asked
  refine ⟨?_, ?_, ?_, ?_, asked⟩
  · rw [published_snoc]
    exact (List.append_nil _).trans del.pages
  · obtain ⟨results, all, messages⟩ := del.merges
    refine ⟨results, all, ?_⟩
    rw [messages, State.inHand, State.inHand, pc, waiting]
    simp [answered, Pc.copies]
  · rw [List.map_append, ← del.pushed]
    rfl
  · intro client member
    obtain ⟨old, before, rfl⟩ := List.mem_map.mp member
    obtain ⟨unread, ⟨read, split⟩, backlog⟩ := del.backlogs old before
    refine ⟨unread ++ [(payload, headerSize)], ⟨read, ?_⟩, ?_⟩
    · rw [← split, List.append_assoc]
    · simp [backlog]

theorem Delivers.waiting (del : Delivers shouldCollect trace s taken delivered)
    {rest : List RecvCall} (calls : s.recvCalls = .tryRecvStream :: rest) :
    s.tryRecvReply = none ∧ s.pc.asks = 1 ∧ s.inHand = [] ∧ rest.count .tryRecvStream = 0 := by
  have asked := del.asked
  unfold State.asked at asked
  rw [calls, List.count_cons_self] at asked
  cases pc : s.pc with
  | tryRecvReply left =>
    rw [pc] at asked
    change _ = 1 at asked
    cases reply : s.tryRecvReply with
    | none =>
      refine ⟨rfl, rfl, ?_, by omega⟩
      rw [State.inHand, reply, pc]
      rfl
    | some reply' =>
      rw [reply] at asked
      simp at asked
  | _ =>
    rw [pc] at asked
    change _ = 0 at asked
    omega

theorem completed_one (result : TryRecvStreamResult) :
    completed [result] = answered (some (.ok result)) := by
  cases result <;> rfl

theorem Delivers.takes (del : Delivers shouldCollect trace s taken delivered)
    {rest : List RecvCall} {result : TryRecvStreamResult} {allocations : MergeAllocs}
    (calls : s.recvCalls = .tryRecvStream :: rest)
    (merges : Iox2.tryRecvStream shouldCollect s.mergeAllocs s.subscriber.head? =
      some (result, allocations)) (act : RecvAct) :
    Delivers shouldCollect (trace ++ [(s, .recvActor act)]) { s with
        recvCalls := rest
        tryRecvReply := some (.ok result)
        subscriber := s.subscriber.tail
        mergeAllocs := allocations } (taken ++ s.subscriber.head?.toList) delivered := by
  obtain ⟨empty, one, hand, none_⟩ := del.waiting calls
  have copies : s.pc.copies = [] := (List.append_eq_nil_iff.mp hand).2
  refine ⟨?_, ?_, del.pushed, del.backlogs, ?_⟩
  · rw [published_snoc]
    change published trace ++ [] = _ ++ s.subscriber.tail
    rw [List.append_nil, del.pages, List.append_assoc]
    cases s.subscriber <;> rfl
  · obtain ⟨results, all, messages⟩ := del.merges
    rw [hand, List.append_nil] at messages
    rw [State.inHand]
    simp only [copies, List.append_nil]
    cases pages : s.subscriber with
    | nil =>
      rw [pages] at merges
      simp only [List.head?_nil, Iox2.tryRecvStream, Option.some.injEq, Prod.mk.injEq] at merges
      obtain ⟨rfl, rfl⟩ := merges
      refine ⟨results, by simpa using all, ?_⟩
      rw [messages]
      exact (List.append_nil _).symm
    | cons page pages' =>
      rw [pages] at merges
      have one_ : receiveAll shouldCollect s.mergeAllocs [page] =
          some ([result], allocations) := by
        simp only [List.head?_cons] at merges
        simp [receiveAll, merges]
      refine ⟨results ++ [result], Iox2.receiveAll_append all one_, ?_⟩
      rw [Iox2.completed_append, messages, completed_one]
  · change rest.count .tryRecvStream + 1 = s.pc.asks
    omega

theorem Delivers.fails (del : Delivers shouldCollect trace s taken delivered)
    {rest : List RecvCall} (calls : s.recvCalls = .tryRecvStream :: rest) (error : IpcError)
    (act : RecvAct) :
    Delivers shouldCollect (trace ++ [(s, .recvActor act)])
      { s with recvCalls := rest, tryRecvReply := some (.error error) } taken delivered := by
  obtain ⟨empty, one, hand, none_⟩ := del.waiting calls
  have copies : s.pc.copies = [] := (List.append_eq_nil_iff.mp hand).2
  refine ⟨?_, ?_, del.pushed, del.backlogs, ?_⟩
  · rw [published_snoc]
    exact (List.append_nil _).trans del.pages
  · obtain ⟨results, all, messages⟩ := del.merges
    refine ⟨results, all, ?_⟩
    rw [messages, hand, State.inHand]
    simp only [copies]
    rfl
  · change rest.count .tryRecvStream + 1 = s.pc.asks
    omega

theorem Delivers.hears (del : Delivers shouldCollect trace s taken delivered) {left : Nat}
    {reply : Except IpcError TryRecvStreamResult} (pc : s.pc = .tryRecvReply left)
    (here : s.tryRecvReply = some reply) (none_ : t.tryRecvReply = none)
    (hand : t.pc.copies = answered (some reply)) (asks : t.pc.asks = 0)
    (frame : t = { s with
      tryRecvReply := t.tryRecvReply
      pc := t.pc
      currentBacking := t.currentBacking
      entered := t.entered
      subscription := t.subscription }) :
    Delivers shouldCollect (trace ++ [(s, .proceeds)]) t taken delivered := by
  have same : t.inHand = s.inHand := by
    rw [State.inHand, State.inHand, none_, hand, here, pc]
    exact (List.append_nil _).symm
  have asked := del.asked
  unfold State.asked at asked
  rw [here, pc] at asked
  change _ + 1 = 1 at asked
  refine ⟨?_, ?_, ?_, ?_, ?_⟩
  · rw [published_snoc, frame]
    exact (List.append_nil _).trans del.pages
  · rw [same, frame]
    exact del.merges
  · rw [frame]
    exact del.pushed
  · rw [frame]
    exact del.backlogs
  · rw [State.asked, none_, asks, frame]
    change s.recvCalls.count .tryRecvStream + 0 = 0
    omega

theorem Delivers.client (del : Delivers shouldCollect trace s taken delivered) {c : Nat}
    {act : ClientAct} (move : s.client c act = some t) :
    Delivers shouldCollect (trace ++ [(s, .client c act)]) t taken delivered := by
  have pages : published (trace ++ [(s, .client c act)]) = taken ++ s.subscriber := by
    rw [published_snoc]
    exact (List.append_nil _).trans del.pages
  have backlogs := del.backlogs
  have same : ∀ (other : Client), other ∈ s.clients.eraseIdx c → other ∈ s.clients :=
    fun other member => List.mem_of_mem_eraseIdx member
  refine ⟨?_, ?_, ?_, ?_, ?_⟩
  · rw [client_frame move]
    exact pages
  · rw [client_frame move]
    exact del.merges
  · rw [client_frame move]
    exact del.pushed
  · intro client member
    cases client_cases move with
    | connects =>
      rcases List.mem_append.mp member with before | new
      · exact backlogs client before
      · obtain rfl := List.mem_singleton.mp new
        exact ⟨[], List.nil_suffix, rfl⟩
    | reads backlog frame here =>
      rcases (mem_of_set here).mp member with rfl | other
      · exact backlogs ⟨backlog, none⟩ (List.mem_of_getElem? here)
      · exact backlogs client (same client other)
    | forwards backlog frame here room =>
      rcases (mem_of_set here).mp member with rfl | other
      · exact backlogs ⟨backlog, some frame⟩ (List.mem_of_getElem? here)
      · exact backlogs client (same client other)
    | writes copy backlog here =>
      rcases (mem_of_set here).mp member with rfl | other
      · obtain ⟨unread, suffix, read⟩ :=
          backlogs ⟨copy :: backlog, none⟩ (List.mem_of_getElem? here)
        cases unread with
        | nil => cases read
        | cons message unread =>
          simp only [List.map_cons, List.cons.injEq] at read
          exact ⟨unread, (List.suffix_cons message unread).trans suffix, read.2⟩
      · exact backlogs client (same client other)
    | closes backlog here => exact backlogs client (same client member)
  · rw [client_frame move]
    exact del.asked

theorem Delivers.step (del : Delivers shouldCollect trace s taken delivered)
    (move : next shouldCollect s l = some t) :
    ∃ taken' delivered', Delivers shouldCollect (trace ++ [(s, l)]) t taken' delivered' := by
  have ⟨pages, merges, pushed, backlogs, asked⟩ := del
  cases l with
  | passes time =>
    cases move
    exact ⟨taken, delivered, by rw [published_snoc]; exact (List.append_nil _).trans pages, merges,
      pushed, backlogs, asked⟩
  | proceeds =>
    cases proceeds_pages move with
    | hears left reply pc here none_ hand asks frame =>
      exact ⟨taken, delivered, del.hears pc here none_ hand asks frame⟩
    | pushes payload headerSize pc => exact ⟨taken, _, del.pushes pc⟩
    | quiet quiet => exact ⟨taken, delivered, del.quiet quiet rfl⟩
  | wakes backing => exact ⟨taken, delivered, del.quiet (wakes_quiet move) rfl⟩
  | recvActor act =>
    cases recvActor_pages move with
    | takes rest result allocations calls merges =>
      exact ⟨_, delivered, del.takes calls merges act⟩
    | fails rest error calls => exact ⟨taken, delivered, del.fails calls error act⟩
    | waits rest calls listener replies =>
      refine ⟨taken, delivered, ?_, merges, pushed, backlogs, ?_⟩
      · rw [published_snoc]
        exact (List.append_nil _).trans pages
      · unfold State.asked at asked ⊢
        rw [calls] at asked
        simpa using asked
  | sendActor act =>
    have more := sendActor_publishes move
    refine ⟨taken, delivered, ?_, ?_, ?_, ?_, ?_⟩
    · rw [published_snoc, pages, more, List.append_assoc]
    all_goals rw [sendActor_frame move]
    · exact merges
    · exact pushed
    · exact backlogs
    · exact asked
  | queues payload headerSize =>
    rw [queues_frame move]
    exact ⟨taken, delivered, by rw [published_snoc]; exact (List.append_nil _).trans pages, merges,
      pushed, backlogs, asked⟩
  | client c act => exact ⟨taken, delivered, del.client move⟩
  | mesh act =>
    cases act with
    | publishes page =>
      simp only [next, State.mesh] at move
      split at move <;> cases move
      refine ⟨taken, delivered, ?_, merges, pushed, backlogs, asked⟩
      rw [published_snoc, pages, List.append_assoc]
      rfl
    | notifies =>
      cases move
      exact ⟨taken, delivered, by rw [published_snoc]; exact (List.append_nil _).trans pages,
        merges, pushed, backlogs, asked⟩

theorem delivers_of_run (run : Runs shouldCollect trace s) :
    ∃ taken delivered, Delivers shouldCollect trace s taken delivered := by
  induction run with
  | nil first =>
    subst first
    refine ⟨[], [], rfl, ⟨[], rfl, rfl⟩, rfl, ?_, rfl⟩
    intro client member
    cases member
  | snoc before move ih =>
    obtain ⟨taken, delivered, del⟩ := ih
    exact del.step move

end Steps

section Runs

theorem Delivers.wholly {taken : List Blob} {delivered : List (List UInt8 × Nat)}
    (del : Delivers shouldCollect trace s taken delivered) {messages : List Message}
    (sent : Sent messages) {order : List (Nat × Nat)} (once : Iox2.AtMostOnce messages order)
    (pages : order.mapM (pageAt messages) = some (published trace)) :
    ∃ k, k + s.subscriber.length = order.length ∧
      (s.received ++ s.inHand.map Prod.fst).Perm
        ((Iox2.wholly shouldCollect messages (order.take k)).map Prod.fst) := by
  obtain ⟨split, ⟨results, all, came⟩, pushed, _⟩ := del
  rw [split] at pages
  obtain ⟨first, second, rfl, arrived, waiting⟩ := Iox2.mapM_some_append pages
  refine ⟨first.length, ?_, ?_⟩
  · rw [List.length_append, Iox2.mapM_length waiting]
  · have early : Iox2.AtMostOnce messages first :=
      ⟨once.nodup.sublist (List.sublist_append_left ..),
        fun p member => once.known p (List.mem_append_left _ member)⟩
    obtain ⟨blobs, results', allocations, arrived', all', perm⟩ :=
      @Iox2.completed_perm shouldCollect messages sent _ early
    obtain rfl := Option.some.inj (arrived.symm.trans arrived')
    rw [all, Option.some.injEq, Prod.mk.injEq] at all'
    rw [← all'.1, came] at perm
    rw [pushed, ← List.map_append, List.take_left]
    exact perm.map _

/-- The messages of which every page has been taken are the messages received, whatever order
    the pages came in and whoever's turn it was: none is missing, and none comes twice. -/
theorem received_exactly_once (run : Runs shouldCollect trace s) {messages : List Message}
    (sent : Sent messages) {order : List (Nat × Nat)} (once : Iox2.AtMostOnce messages order)
    (pages : order.mapM (pageAt messages) = some (published trace)) :
    ∃ k, k + s.subscriber.length = order.length ∧
      (s.received ++ s.inHand.map Prod.fst).Perm
        ((Iox2.wholly shouldCollect messages (order.take k)).map Prod.fst) := by
  obtain ⟨taken, delivered, del⟩ := delivers_of_run run
  exact del.wholly sent once pages

instance : DecidableEq Blob := fun a b =>
  decidable_of_iff (a.bytes = b.bytes) (by cases a; cases b; simp)

theorem once_two_of_three : Iox2.AtMostOnce Iox2.someMessages [(1, 1), (0, 0), (1, 0)] := by
  refine ⟨by decide, ?_⟩
  intro p member
  rw [← Iox2.someOrder_each.all]
  revert p
  decide

/-- Of the page still with the subscriber and the two taken, only the short message is whole. -/
theorem received_exactly_once_short : ∃ trace s, Runs (fun _ => true) trace s ∧
    s.received = [[1, 2]] ∧ ∃ k, k + s.subscriber.length = 3 ∧
      (s.received ++ s.inHand.map Prod.fst).Perm
        ((Iox2.wholly (fun _ => true) Iox2.someMessages
          ([(1, 1), (0, 0), (1, 0)].take k)).map Prod.fst) := by
  obtain ⟨trace, s, run, received, pages⟩ := execute_run (next fun _ => true) init
    ([(1, 1), (0, 0), (1, 0)].filterMap (fun p => (pageAt Iox2.someMessages p).map
      fun page => Label.mesh (.publishes page)) ++
      [.proceeds, .proceeds, .proceeds, .proceeds, .recvActor .answers, .proceeds, .proceeds,
        .proceeds, .proceeds, .recvActor .answers, .proceeds, .proceeds])
    (fun trace s => s.received = [[1, 2]] ∧
      [(1, 1), (0, 0), (1, 0)].mapM (pageAt Iox2.someMessages) = some (published trace))
    (by decide +kernel)
  exact ⟨trace, s, run, received,
    received_exactly_once run Iox2.someMessages_sent once_two_of_three pages⟩

/-- Pages that are lost, that come twice or in another order: the actor does not fail on the next
    one, and neither the queue nor a web client has been given anything but messages that were
    sent and are wanted. -/
theorem received_only_sent (run : Runs shouldCollect trace s) {messages : List Message}
    (sent : Sent messages) (drawn : ∀ page ∈ published trace, ∃ p, pageAt messages p = some page) :
    (Iox2.tryRecvStream shouldCollect s.mergeAllocs s.subscriber.head?).isSome = true ∧
      (∀ payload ∈ s.received, ∃ m ∈ messages, shouldCollect m.header = true ∧
        payload = m.payload) ∧
      ∀ client ∈ s.clients, ∀ copy ∈ client.backlog, ∃ m ∈ messages,
        shouldCollect m.header = true ∧ Gateway.unframe copy = some (m.payload, m.headerSize) := by
  obtain ⟨taken, delivered, split, ⟨results, all, came⟩, pushed, backlogs, _⟩ :=
    delivers_of_run run
  have drawn' : ∀ page ∈ taken, ∃ p, pageAt messages p = some page := by
    intro page member
    exact drawn page (split ▸ List.mem_append_left _ member)
  obtain ⟨results', allocations, all', held, out⟩ :=
    @Iox2.receiveAll_drawn shouldCollect messages sent _ drawn' _ Iox2.partial_empty
  rw [all, Option.some.injEq, Prod.mk.injEq] at all'
  obtain ⟨rfl, rfl⟩ := all'
  have deliveredOut : ∀ message ∈ delivered, ∃ m ∈ messages, shouldCollect m.header = true ∧
      message = (m.payload, m.headerSize) := by
    intro message member
    exact out message (came ▸ List.mem_append_left _ member)
  refine ⟨?_, ?_, ?_⟩
  · cases pages : s.subscriber with
    | nil => rfl
    | cons page rest =>
      have there : page ∈ published trace := by simp [split, pages]
      obtain ⟨p, here⟩ := drawn page there
      obtain ⟨m, message, ofMessage⟩ := Iox2.pageAt_some here
      obtain ⟨result, allocations, received, _⟩ :=
        Iox2.partial_step sent held (List.mem_of_getElem? message) ofMessage shouldCollect
      rw [List.head?_cons, received]
      rfl
  · intro payload member
    rw [pushed] at member
    obtain ⟨message, there, rfl⟩ := List.mem_map.mp member
    obtain ⟨m, known, wanted, rfl⟩ := deliveredOut message there
    exact ⟨m, known, wanted, rfl⟩
  · intro client member copy unread
    obtain ⟨left, ⟨read, rfl⟩, backlog⟩ := backlogs client member
    rw [backlog] at unread
    obtain ⟨message, there, rfl⟩ := List.mem_map.mp unread
    obtain ⟨m, known, wanted, rfl⟩ := deliveredOut message (List.mem_append_right _ there)
    have ⟨inside, room⟩ := Iox2.Message.accepted_iff.mp (sent.accepted m known)
    have small : m.headerSize < 2 ^ 64 := by
      by_cases long : m.Fragmented
      · have fits : 8 + 8 + 8 + 8 + m.headerSize < 1024 := room long
        omega
      · have short : ¬ 1000 < m.payload.length := long
        omega
    exact ⟨m, known, wanted, Gateway.unframe_payloadCopy small⟩

/-- The second message twice in part, the short one twice, and a page of the third: a client is
    still to read the first copy of the short one. -/
theorem received_only_sent_lossy : ∃ trace s, Runs (fun _ => true) trace s ∧
    s.received = [[1, 2]] ∧ s.clients.map (·.backlog.length) = [1] ∧
    (Iox2.tryRecvStream (fun _ => true) s.mergeAllocs s.subscriber.head?).isSome = true ∧
      (∀ payload ∈ s.received, ∃ m ∈ Iox2.someMessages, true = true ∧ payload = m.payload) ∧
      ∀ client ∈ s.clients, ∀ copy ∈ client.backlog, ∃ m ∈ Iox2.someMessages,
        true = true ∧ Gateway.unframe copy = some (m.payload, m.headerSize) := by
  obtain ⟨trace, s, run, received, clients, pages⟩ := execute_run (next fun _ => true) init
    ([.client 0 .connects] ++
      [(1, 0), (1, 0), (0, 0), (0, 0), (2, 1)].filterMap
        (fun p => (pageAt Iox2.someMessages p).map fun page => Label.mesh (.publishes page)) ++
      [.proceeds, .proceeds, .proceeds, .proceeds, .recvActor .answers, .proceeds, .proceeds,
        .proceeds, .proceeds, .recvActor .answers, .proceeds, .proceeds,
        .proceeds, .proceeds, .recvActor .answers, .proceeds, .proceeds])
    (fun trace s => s.received = [[1, 2]] ∧ s.clients.map (·.backlog.length) = [1] ∧
      (published trace).map some =
        [(1, 0), (1, 0), (0, 0), (0, 0), (2, 1)].map (pageAt Iox2.someMessages))
    (by decide +kernel)
  have drawn : ∀ page ∈ published trace, ∃ p, pageAt Iox2.someMessages p = some page := by
    intro page member
    have there := List.mem_map_of_mem (f := some) member
    rw [pages] at there
    obtain ⟨p, _, here⟩ := List.mem_map.mp there
    exact ⟨p, here⟩
  exact ⟨trace, s, run, received, clients,
    received_only_sent run Iox2.someMessages_sent drawn⟩

end Runs

end Combined
