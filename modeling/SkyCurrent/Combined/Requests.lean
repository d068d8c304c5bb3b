import SkyCurrent.Combined.Steps
import SkyCurrent.Iox2.Layout

/- The calls of send_stream: how many pages one is, where that of the receiver task is between
   the task and the send actor, and what each step does to the calls, the pages still to be
   published and the buffer of this process's own subscriber. -/
namespace Combined

open Runs

variable {shouldCollect : List UInt8 → Bool} {s t : State}

def pageCount (payload : List UInt8) (headerSize : Nat) : Nat :=
  (Iox2.Message.mk payload headerSize 0).pages.length

theorem pages_of_identification (payload : List UInt8) (headerSize : Nat) (i j : UInt64) :
    (Iox2.Message.mk payload headerSize i).pages.length =
      (Iox2.Message.mk payload headerSize j).pages.length := by
  have rejected (k : UInt64) (no : ¬ (Iox2.Message.mk payload headerSize k).Accepted) :
      (Iox2.Message.mk payload headerSize k).pages = [] := by
    unfold Iox2.Message.pages
    split
    · rename_i pages sent
      exact absurd ⟨pages, sent⟩ no
    · rfl
  have same : (Iox2.Message.mk payload headerSize i).Accepted ↔
      (Iox2.Message.mk payload headerSize j).Accepted := by
    rw [Iox2.Message.accepted_iff, Iox2.Message.accepted_iff]
    rfl
  by_cases accepted : (Iox2.Message.mk payload headerSize i).Accepted
  · rw [accepted.page_count, (same.mp accepted).page_count]
    rfl
  · rw [rejected i accepted, rejected j (accepted ∘ same.mpr)]

theorem pageCount_sent {payload : List UInt8} {headerSize : Nat} {identification : UInt64}
    {pages : List Iox2.Blob}
    (sent : Iox2.sendStream payload headerSize identification = some (.ok pages)) :
    pageCount payload headerSize = pages.length ∧ pages ≠ [] := by
  have accepted : (Iox2.Message.mk payload headerSize identification).Accepted := ⟨pages, sent⟩
  have here : (Iox2.Message.mk payload headerSize identification).pages = pages := by
    simp [Iox2.Message.pages, sent]
  constructor
  · rw [pageCount, pages_of_identification payload headerSize 0 identification, here]
  · obtain ⟨_, ⟨_, blob, whole, _⟩ | ⟨cut, size, _⟩⟩ := accepted.pages_spec
    · rw [← here, whole]
      exact List.cons_ne_nil _ _
    · rw [here] at size
      intro nothing
      have positive := cut.count.1
      rw [← size, nothing] at positive
      exact absurd positive (by simp)

theorem pageCount_rejected {payload : List UInt8} {headerSize : Nat} (identification : UInt64)
    (rejected : ∀ pages, Iox2.sendStream payload headerSize identification ≠ some (.ok pages)) :
    pageCount payload headerSize = 0 := by
  rw [pageCount, pages_of_identification payload headerSize 0 identification]
  unfold Iox2.Message.pages
  split
  · rename_i pages sent
    exact absurd sent (rejected pages)
  · rfl

def Pc.forwards : Pc → Bool
  | .sendStreamReply _ _ => true
  | _ => false

def State.underWay (s : State) : Nat :=
  s.sendCalls.countP (·.forwarded) + s.sending.toList.countP (·.forwarded) +
    s.sendStreamReply.toList.length

structure Orderly (s : State) : Prop where
  one : s.underWay = if s.pc.forwards then 1 else 0
  busy : ∀ sending, s.sending = some sending → sending.notifies = false → sending.left ≠ []
  bounded : s.subscriber.length ≤ bufferSize

section Task

structure SameSends (s t : State) : Prop where
  calls : t.sendCalls = s.sendCalls
  sending : t.sending = s.sending
  reply : t.sendStreamReply = s.sendStreamReply
  subscriber : t.subscriber = s.subscriber

theorem handleWaitStreamReturn_pc {backing : Except IpcError Backing} {after : Pc}
    (elsewhere : after.forwards = false) :
    (s.handleWaitStreamReturn backing after).pc.forwards = false := by
  cases backing with
  | ok backing => exact elsewhere
  | error error =>
    simp only [State.handleWaitStreamReturn, State.fails]
    split <;> rfl

theorem drains_pc {again after : Pc} (elsewhereAgain : again.forwards = false)
    (elsewhere : after.forwards = false) : (s.drains again after).pc.forwards = false := by
  unfold State.drains
  split
  · exact elsewhere
  · exact handleWaitStreamReturn_pc elsewhereAgain

theorem tries_pc {left : Nat} (move : s.tries left = some t) : t.pc.forwards = false := by
  unfold State.tries at move
  split at move
  · cases move
    rfl
  · split at move
    · cases move
      rfl
    · split at move
      · cases move
        rfl
      · split at move
        · split at move <;> cases move
          rfl
        · split at move
          · cases move
            rfl
          · cases move
            unfold State.unframes
            split <;> rfl

theorem hears_pc (reply : Except IpcError Iox2.TryRecvStreamResult) (left : Nat) :
    (s.hears reply left).pc.forwards = false := by
  unfold State.hears State.fails
  split
  · split <;> rfl
  all_goals rfl

theorem proceeds_sends (move : s.proceeds = some t) :
    (∃ payload headerSize, s.pc = .sendStream payload headerSize ∧ t = { s with
        sendCalls := s.sendCalls ++ [⟨payload, headerSize, true⟩]
        pc := .sendStreamReply payload headerSize }) ∨
      (s.pc.forwards = true ∧ s.sendStreamReply ≠ none ∧ t.pc.forwards = false ∧
        t = { s with sendStreamReply := none, pc := t.pc }) ∨
      (s.pc.forwards = false ∧ t.pc.forwards = false ∧ SameSends s t) := by
  cases proceeds_cases move with
  | calls pc => exact Or.inr (Or.inr ⟨by rw [pc]; rfl, rfl, rfl, rfl, rfl, rfl⟩)
  | startsOn pc =>
    rw [startsOn_frame]
    exact Or.inr (Or.inr ⟨by rw [pc]; rfl, rfl, rfl, rfl, rfl, rfl⟩)
  | drains pc =>
    refine Or.inr (Or.inr ⟨by rw [pc]; rfl, drains_pc rfl rfl, ?_⟩)
    rw [drains_frame]
    exact ⟨rfl, rfl, rfl, rfl⟩
  | tries left pc move =>
    refine Or.inr (Or.inr ⟨by rw [pc]; rfl, tries_pc move, ?_⟩)
    rw [tries_frame move]
    exact ⟨rfl, rfl, rfl, rfl⟩
  | hears left reply pc =>
    refine Or.inr (Or.inr ⟨by rw [pc]; rfl, hears_pc reply left, ?_⟩)
    rw [hears_frame]
    exact ⟨rfl, rfl, rfl, rfl⟩
  | sendsCopy payload headerSize pc after frame =>
    refine Or.inr (Or.inr ⟨by rw [pc]; rfl, by rw [after]; rfl, ?_⟩)
    rw [frame]
    exact ⟨rfl, rfl, rfl, rfl⟩
  | sends payload headerSize pc => exact Or.inl ⟨payload, headerSize, pc, rfl⟩
  | resends payload headerSize reply pc here =>
    refine Or.inr (Or.inl ⟨by rw [pc]; rfl, by simp [here], ?_⟩)
    cases reply with
    | ok _ => exact ⟨rfl, rfl⟩
    | error error =>
      refine ⟨?_, rfl⟩
      simp only [State.resends]
      split <;> rfl
  | selects pc locked => exact Or.inr (Or.inr ⟨by rw [pc]; rfl, rfl, rfl, rfl, rfl, rfl⟩)
  | asksToWait pc free => exact Or.inr (Or.inr ⟨by rw [pc]; rfl, rfl, rfl, rfl, rfl, rfl⟩)
  | subscribes pc unsubscribed =>
    have away : s.pc.forwards = false := by
      rw [pc]
      rfl
    exact Or.inr (Or.inr ⟨away, away, rfl, rfl, rfl, rfl⟩)
  | drainsAfterWait pc =>
    refine Or.inr (Or.inr ⟨by rw [pc]; rfl, drains_pc rfl rfl, ?_⟩)
    rw [drains_frame]
    exact ⟨rfl, rfl, rfl, rfl⟩

theorem wakes_sends {backing : Backing} (move : s.wakes backing = some t) :
    s.pc.forwards = false ∧ t.pc.forwards = false ∧ SameSends s t := by
  obtain ⟨pc, ⟨reply, rest, _, _, rfl⟩ | rfl⟩ := wakes_cases move
  · rw [pc]
    refine ⟨rfl, handleWaitStreamReturn_pc rfl, ?_⟩
    rw [handleWaitStreamReturn_frame]
    exact ⟨rfl, rfl, rfl, rfl⟩
  · rw [pc]
    exact ⟨rfl, rfl, rfl, rfl, rfl, rfl⟩

end Task

section SendActor

inductive SendMove (s t : State) : Prop where
  | takes (call : SendCall) (sending : Sending)
      (idle : s.sending = none) (calls : s.sendCalls = call :: t.sendCalls)
      (takes : t.sending = some sending) (forwarded : sending.forwarded = call.forwarded)
      (pages : sending.left.length = pageCount call.payload call.headerSize)
      (busy : sending.left ≠ []) (notYet : sending.notifies = false)
      (reply : t.sendStreamReply = s.sendStreamReply) (subscriber : t.subscriber = s.subscriber)
  | rejects (call : SendCall) (result : Except IpcError Unit)
      (idle : s.sending = none) (calls : s.sendCalls = call :: t.sendCalls)
      (pages : pageCount call.payload call.headerSize = 0) (done : t.sending = none)
      (reply : t.sendStreamReply = if call.forwarded then some result else s.sendStreamReply)
      (subscriber : t.subscriber = s.subscriber)
  | publishes (sending sending' : Sending) (page : Iox2.Blob) (was : s.sending = some sending)
      (is : t.sending = some sending') (forwarded : sending'.forwarded = sending.forwarded)
      (left : sending.left = page :: sending'.left) (notifies : sending'.notifies = true)
      (room : s.subscriber.length < bufferSize) (calls : t.sendCalls = s.sendCalls)
      (reply : t.sendStreamReply = s.sendStreamReply)
      (subscriber : t.subscriber = s.subscriber ++ [page])
  | goesOn (sending sending' : Sending) (was : s.sending = some sending)
      (is : t.sending = some sending') (forwarded : sending'.forwarded = sending.forwarded)
      (left : sending'.left.length ≤ sending.left.length)
      (busy : sending'.notifies = false → sending'.left ≠ []) (calls : t.sendCalls = s.sendCalls)
      (reply : t.sendStreamReply = s.sendStreamReply)
      (subscriber : t.subscriber = s.subscriber)
  | ends (sending : Sending) (result : Except IpcError Unit) (was : s.sending = some sending)
      (done : t.sending = none) (calls : t.sendCalls = s.sendCalls)
      (reply : t.sendStreamReply = if sending.forwarded then some result else s.sendStreamReply)
      (subscriber : t.subscriber = s.subscriber)

theorem takesCall_sends {identification : UInt64} (idle : s.sending = none)
    (move : s.takesCall identification = some t) : SendMove s t := by
  unfold State.takesCall at move
  split at move
  · cases move
  · rename_i call rest calls
    split at move
    · cases move
    · simp only at move
      split at move
      · rename_i failed
        cases move
        have pages : pageCount call.payload call.headerSize = 0 :=
          pageCount_rejected identification (by simp [failed])
        exact .rejects call _ idle calls pages rfl rfl rfl
      · rename_i failed
        cases move
        have pages : pageCount call.payload call.headerSize = 0 :=
          pageCount_rejected identification (by simp [failed])
        exact .rejects call _ idle calls pages rfl rfl rfl
      · rename_i pages sent
        cases move
        obtain ⟨count, some_⟩ := pageCount_sent sent
        exact .takes call _ idle calls rfl rfl count.symm some_ rfl rfl rfl

theorem publishes_sends {sending : Sending} (is : s.sending = some sending)
    (move : s.publishes sending = some t) : SendMove s t := by
  unfold State.publishes at move
  split at move
  · cases move
  · rename_i page left pages
    split at move
    · rename_i room
      cases move
      exact .publishes _ _ page is rfl rfl pages rfl room rfl rfl rfl
    · cases move

theorem sendActor_sends {act : SendAct} (orderly : Orderly s) (move : s.sendActor act = some t) :
    SendMove s t := by
  rcases sendActor_cases move with ⟨_, idle, takes⟩ |
    ⟨sending, is, ⟨notYet, publishes | ⟨_, fails⟩⟩ | ⟨_, rfl⟩ | ⟨_, rfl⟩⟩
  · exact takesCall_sends idle takes
  · exact publishes_sends is publishes
  · unfold State.pageFails at fails
    split at fails
    · split at fails <;> cases fails
      · exact .goesOn _ _ is is rfl le_rfl (orderly.busy _ is) rfl rfl rfl
      · exact .goesOn _ _ is rfl rfl (by simp) (by simp) rfl rfl rfl
    · cases fails
  · unfold State.notified
    split
    · exact .ends _ _ is rfl rfl rfl rfl
    · rename_i pages
      exact .goesOn _ _ is rfl rfl le_rfl (by simp [pages]) rfl rfl rfl
  · exact .ends _ _ is rfl rfl rfl rfl

end SendActor

section Order

theorem Orderly.init : Orderly init := by
  refine ⟨rfl, ?_, Nat.zero_le _⟩
  intro sending was
  cases was

theorem Orderly.proceeds (orderly : Orderly s) (move : s.proceeds = some t) : Orderly t := by
  have one := orderly.one
  unfold State.underWay at one
  rcases proceeds_sends move with ⟨payload, headerSize, pc, rfl⟩ | ⟨pc, some_, left, same⟩ |
    ⟨pc, left, same⟩
  · refine ⟨?_, orderly.busy, orderly.bounded⟩
    have elsewhere : s.pc.forwards = false := by rw [pc]; rfl
    have more : (s.sendCalls ++ [SendCall.mk payload headerSize true]).countP
        (fun call => call.forwarded) = s.sendCalls.countP (fun call => call.forwarded) + 1 := by
      simp
    simp only [elsewhere, Bool.false_eq_true, if_false] at one
    simp only [State.underWay, Pc.forwards, more, if_true]
    omega
  · have busy := orderly.busy
    have bounded := orderly.bounded
    rw [same]
    refine ⟨?_, busy, bounded⟩
    obtain ⟨reply, here⟩ := Option.ne_none_iff_exists'.mp some_
    simp only [pc, here, if_true, Option.toList_some, List.length_singleton] at one
    simp only [State.underWay, left, Option.toList_none, List.length_nil, Bool.false_eq_true,
      if_false]
    omega
  · constructor
    · rw [State.underWay, same.calls, same.sending, same.reply, left, one, pc]
    · rw [same.sending]
      exact orderly.busy
    · rw [same.subscriber]
      exact orderly.bounded

theorem Orderly.sendActor (orderly : Orderly s) (moved : SendMove s t) (pc : t.pc = s.pc) :
    Orderly t := by
  have one := orderly.one
  have bounded := orderly.bounded
  have most : s.underWay ≤ 1 := by rw [one]; split <;> simp
  unfold State.underWay at one most
  cases moved with
  | takes call sending idle calls is forwarded pages busy _ reply subscriber =>
    refine ⟨?_, ?_, by rwa [subscriber]⟩
    · rw [pc, ← one, State.underWay, is, reply, idle, calls]
      simp [List.countP_cons, forwarded]
    · rw [is]
      rintro _ ⟨⟩ _
      exact busy
  | rejects call result idle calls pages done reply subscriber =>
    refine ⟨?_, by simp [done], by rwa [subscriber]⟩
    rw [pc, ← one, State.underWay, done, reply, idle, calls]
    rw [idle, calls] at most
    simp only [List.countP_cons] at most ⊢
    cases forwarded : call.forwarded with
    | true =>
      simp only [forwarded, if_true, Option.toList_none, Option.toList_some, List.countP_nil,
        List.length_singleton] at most ⊢
      omega
    | false => simp
  | publishes sending sending' page was is forwarded left notifies room calls reply subscriber =>
    constructor
    · rw [pc, ← one, State.underWay, is, reply, calls, was]
      simp [forwarded]
    · rw [is]
      rintro _ ⟨⟩ idle
      rw [notifies] at idle
      cases idle
    · rw [subscriber, List.length_append, List.length_singleton]
      omega
  | goesOn sending sending' was is forwarded left busy calls reply subscriber =>
    refine ⟨?_, ?_, by rwa [subscriber]⟩
    · rw [pc, ← one, State.underWay, is, reply, calls, was]
      simp [forwarded]
    · rw [is]
      rintro _ ⟨⟩
      exact busy
  | ends sending result was done calls reply subscriber =>
    refine ⟨?_, by simp [done], by rwa [subscriber]⟩
    rw [pc, ← one, State.underWay, done, reply, calls, was]
    rw [was] at most
    cases forwarded : sending.forwarded with
    | true =>
      simp only [forwarded, if_true, Option.toList_none, Option.toList_some, List.countP_nil,
        List.countP_singleton, List.length_singleton] at most ⊢
      omega
    | false => simp [forwarded]

theorem Orderly.step {l : Label} (orderly : Orderly s) (move : next shouldCollect s l = some t) :
    Orderly t := by
  have ⟨one, busy, bounded⟩ := orderly
  cases l with
  | passes time =>
    cases move
    exact ⟨one, busy, bounded⟩
  | proceeds => exact orderly.proceeds move
  | wakes backing =>
    obtain ⟨pc, left, same⟩ := wakes_sends move
    refine ⟨?_, by rwa [same.sending], by rwa [same.subscriber]⟩
    rw [State.underWay, same.calls, same.sending, same.reply, left, ← pc]
    exact one
  | recvActor act =>
    cases recvActor_cases move with
    | page reply calls less frame =>
      rw [frame]
      exact ⟨one, busy, Nat.le_trans less bounded⟩
    | wait reply calls iox2 frame =>
      rw [frame]
      exact ⟨one, busy, bounded⟩
  | sendActor act =>
    exact orderly.sendActor (sendActor_sends orderly move) (by rw [sendActor_frame move])
  | queues payload headerSize =>
    simp only [next, State.queues] at move
    split at move <;> cases move
    refine ⟨?_, busy, bounded⟩
    simpa [State.underWay] using one
  | client c act =>
    rw [client_frame move]
    exact ⟨one, busy, bounded⟩
  | mesh act =>
    cases act with
    | publishes page =>
      simp only [next, State.mesh] at move
      split at move
      · rename_i room
        cases move
        refine ⟨one, busy, ?_⟩
        rw [List.length_append, List.length_singleton]
        omega
      · cases move
    | notifies =>
      cases move
      exact ⟨one, busy, bounded⟩

theorem orderly_of_run {trace : List (State × Label)} (run : Runs shouldCollect trace s) :
    Orderly s :=
  reachable_invariant Orderly (by rintro s rfl; exact .init)
    (fun _ _ _ orderly move => orderly.step move) ⟨trace, run⟩

end Order

end Combined
