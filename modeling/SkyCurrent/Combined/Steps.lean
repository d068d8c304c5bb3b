import SkyCurrent.Combined.Model

/- What a step of each party can be, and what it leaves alone. The parties around the receiver
   task share little with it, so a step of theirs is the old state with a few fields of the
   new one. -/
namespace Combined

open Iox2 (TryRecvStreamResult)

variable {shouldCollect : List UInt8 → Bool} {s t : State}

theorem client_frame {c : Nat} {act : ClientAct} (move : s.client c act = some t) :
    t = { s with
      clients := t.clients
      receivingChannelRx := t.receivingChannelRx
      subscription := t.subscription } := by
  unfold State.client State.forwards at move
  split at move
  all_goals first
    | (cases move <;> rfl)
    | (split at move <;> cases move; rfl)

theorem mesh_frame {act : MeshAct} (move : s.mesh act = some t) :
    t = { s with subscriber := t.subscriber, listener := t.listener } := by
  cases act with
  | publishes page =>
    simp only [State.mesh] at move
    split at move <;> cases move
    rfl
  | notifies =>
    cases move
    rfl

theorem queues_frame {payload : List UInt8} {headerSize : Nat}
    (move : s.queues payload headerSize = some t) : t = { s with sendCalls := t.sendCalls } := by
  unfold State.queues at move
  split at move <;> cases move
  rfl

theorem takesCall_frame {identification : UInt64} (move : s.takesCall identification = some t) :
    t = { s with
      sendCalls := t.sendCalls
      sending := t.sending
      sendStreamReply := t.sendStreamReply } := by
  unfold State.takesCall at move
  split at move
  · cases move
  · split at move
    · cases move
    · simp only at move
      split at move <;> cases move <;> rfl

theorem sendActor_cases {act : SendAct} (move : s.sendActor act = some t) :
    (∃ identification, s.sending = none ∧ s.takesCall identification = some t) ∨
      ∃ sending, s.sending = some sending ∧
        (sending.notifies = false ∧ (s.publishes sending = some t ∨
            ∃ error, s.pageFails sending error = some t) ∨
          sending.notifies = true ∧ t = s.notified sending ∨
          ∃ error, t = s.sent sending.forwarded (.error error)) := by
  cases is : s.sending with
  | none =>
    cases act with
    | takes identification =>
      simp only [State.sendActor, is] at move
      exact Or.inl ⟨identification, rfl, move⟩
    | _ => simp [State.sendActor, is] at move
  | some sending =>
    refine Or.inr ⟨sending, rfl, ?_⟩
    cases act with
    | takes identification => simp [State.sendActor, is] at move
    | publishes =>
      simp only [State.sendActor, is] at move
      split at move
      · cases move
      · rename_i idle
        exact Or.inl ⟨Bool.eq_false_iff.mpr idle, Or.inl move⟩
    | pageFails error =>
      simp only [State.sendActor, is] at move
      split at move
      · cases move
      · rename_i idle
        exact Or.inl ⟨Bool.eq_false_iff.mpr idle, Or.inr ⟨error, move⟩⟩
    | notifies =>
      simp only [State.sendActor, is] at move
      split at move <;> cases move
      rename_i notifies
      exact Or.inr (Or.inl ⟨notifies, rfl⟩)
    | notifyFails =>
      simp only [State.sendActor, is] at move
      split at move <;> cases move
      exact Or.inr (Or.inr ⟨_, rfl⟩)
    | interrupted =>
      simp only [State.sendActor, is] at move
      split at move <;> cases move
      exact Or.inr (Or.inr ⟨_, rfl⟩)

theorem sendActor_frame {act : SendAct} (move : s.sendActor act = some t) :
    t = { s with
      subscriber := t.subscriber
      listener := t.listener
      sendCalls := t.sendCalls
      sending := t.sending
      sendStreamReply := t.sendStreamReply } := by
  rcases sendActor_cases move with ⟨_, _, takes⟩ | ⟨sending, _, ⟨_, publishes | ⟨_, fails⟩⟩ |
    ⟨_, rfl⟩ | ⟨_, rfl⟩⟩
  · rw [takesCall_frame takes]
  · unfold State.publishes at publishes
    split at publishes
    · cases publishes
    · split at publishes <;> cases publishes
      rfl
  · unfold State.pageFails at fails
    split at fails
    · split at fails <;> cases fails <;> rfl
    · cases fails
  · unfold State.notified
    split <;> rfl
  · rfl

theorem wait_errs {error : IpcError} (may : RecvCall.waitStream.mayErr error = true) :
    error = .iox2ListenerWaitError ∨ error = .interruptSignalReceivedError := by
  cases error with
  | iox2ListenerWaitError => exact Or.inl rfl
  | interruptSignalReceivedError => exact Or.inr rfl
  | _ => cases may

inductive RecvStep (s t : State) : Prop where
  | page (reply : Except IpcError TryRecvStreamResult)
      (calls : s.recvCalls = .tryRecvStream :: t.recvCalls)
      (less : t.subscriber.length ≤ s.subscriber.length)
      (frame : t = { s with
        recvCalls := t.recvCalls
        tryRecvReply := some reply
        subscriber := t.subscriber
        mergeAllocs := t.mergeAllocs })
  | wait (reply : Except IpcError Backing) (calls : s.recvCalls = .waitStream :: t.recvCalls)
      (iox2 : reply = .ok .iox2 ∨ reply = .error .iox2ListenerWaitError ∨
        reply = .error .interruptSignalReceivedError)
      (frame : t = { s with
        recvCalls := t.recvCalls
        listener := t.listener
        waitStreamReceiver := s.waitStreamReceiver ++ [reply] })

theorem recvActor_cases {act : RecvAct} (move : s.recvActor shouldCollect act = some t) :
    RecvStep s t := by
  unfold State.recvActor at move
  split at move
  · cases move
  · rename_i calls
    split at move <;> cases move
    · exact .page _ calls le_rfl rfl
    · exact .page _ calls (by simp) rfl
  · rename_i calls
    split at move <;> cases move
    exact .wait _ calls (Or.inl rfl) rfl
  · rename_i calls
    split at move <;> cases move
    exact .page _ calls le_rfl rfl
  · rename_i calls
    split at move
    · rename_i may
      cases move
      refine .wait _ calls ?_ rfl
      rcases wait_errs may with rfl | rfl
      · exact Or.inr (Or.inl rfl)
      · exact Or.inr (Or.inr rfl)
    · cases move

section ReceiverTask

theorem startsOn_frame : s.startsOn =
    { s with currentBacking := s.startsOn.currentBacking, entered := s.startsOn.entered } := by
  unfold State.startsOn
  split
  · rfl
  · split <;> rfl

theorem handleWaitStreamReturn_frame (backing : Except IpcError Backing) (after : Pc) :
    s.handleWaitStreamReturn backing after = { s with
      pc := (s.handleWaitStreamReturn backing after).pc
      waitStreamLocks := (s.handleWaitStreamReturn backing after).waitStreamLocks
      subscription := (s.handleWaitStreamReturn backing after).subscription } := by
  cases backing <;> rfl

theorem drains_frame (again after : Pc) : s.drains again after =
    { s with
      pc := (s.drains again after).pc
      waitStreamLocks := (s.drains again after).waitStreamLocks
      waitStreamReceiver := (s.drains again after).waitStreamReceiver
      subscription := (s.drains again after).subscription } := by
  unfold State.drains
  split
  · rfl
  · rename_i backing rest _
    cases backing <;> rfl

theorem tries_frame {left : Nat} (move : s.tries left = some t) :
    t = { s with
      pc := t.pc
      currentBacking := t.currentBacking
      entered := t.entered
      recvCalls := t.recvCalls
      receivingChannelRx := t.receivingChannelRx } := by
  unfold State.tries at move
  split at move
  · cases move
    rfl
  · split at move
    · cases move
      rfl
    · split at move
      · cases move
        rfl
      · split at move
        · split at move <;> cases move
          rfl
        · split at move
          · cases move
            rfl
          · cases move
            unfold State.unframes
            split <;> rfl

theorem hears_frame (reply : Except IpcError TryRecvStreamResult) (left : Nat) :
    s.hears reply left = { s with
      pc := (s.hears reply left).pc
      currentBacking := (s.hears reply left).currentBacking
      entered := (s.hears reply left).entered
      subscription := (s.hears reply left).subscription } := by
  unfold State.hears
  split <;> rfl

inductive TaskStep (s : State) : State → Prop where
  | calls (pc : s.pc = .betweenCalls) : TaskStep s { s with pc := .tryRecvStream }
  | startsOn (pc : s.pc = .tryRecvStream) : TaskStep s { s.startsOn with pc := .drain }
  | drains (pc : s.pc = .drain) : TaskStep s (s.drains .drain (.tries 2))
  | tries {t : State} (left : Nat) (pc : s.pc = .tries left) (move : s.tries left = some t) :
      TaskStep s t
  | hears (left : Nat) (reply : Except IpcError TryRecvStreamResult)
      (pc : s.pc = .tryRecvReply left) :
      TaskStep s ({ s with tryRecvReply := none }.hears reply left)
  | sendsCopy {t : State} (payload : List UInt8) (headerSize : Nat)
      (pc : s.pc = .sendCopy payload headerSize) (after : t.pc = .betweenCalls)
      (frame : t = { s with clients := t.clients, received := t.received, pc := t.pc }) :
      TaskStep s t
  | sends (payload : List UInt8) (headerSize : Nat) (pc : s.pc = .sendStream payload headerSize) :
      TaskStep s { s with
        sendCalls := s.sendCalls ++ [⟨payload, headerSize, true⟩]
        pc := .sendStreamReply payload headerSize }
  | resends (payload : List UInt8) (headerSize : Nat) (reply : Except IpcError Unit)
      (pc : s.pc = .sendStreamReply payload headerSize) (here : s.sendStreamReply = some reply) :
      TaskStep s ({ s with sendStreamReply := none }.resends reply payload headerSize)
  | selects (pc : s.pc = .waitStream) (locked : s.waitStreamLocks .iox2 = true) :
      TaskStep s { s with pc := .select }
  | asksToWait (pc : s.pc = .waitStream) (free : s.waitStreamLocks .iox2 = false) :
      TaskStep s { s with
        recvCalls := s.recvCalls ++ [.waitStream]
        waitStreamLocks := Function.update s.waitStreamLocks .iox2 true
        pc := .select }
  | subscribes (pc : s.pc = .select) (unsubscribed : s.subscription = none) :
      TaskStep s { s with subscription := some [] }
  | drainsAfterWait (pc : s.pc = .drainAfterWait) :
      TaskStep s (s.drains .drainAfterWait .tryRecvStream)

theorem proceeds_cases (move : s.proceeds = some t) : TaskStep s t := by
  unfold State.proceeds at move
  cases pc : s.pc with
  | betweenCalls =>
    simp only [pc] at move
    cases move
    exact .calls pc
  | tryRecvStream =>
    simp only [pc] at move
    cases move
    exact .startsOn pc
  | drain =>
    simp only [pc] at move
    cases move
    exact .drains pc
  | tries left =>
    simp only [pc] at move
    exact .tries left pc move
  | tryRecvReply left =>
    simp only [pc] at move
    obtain ⟨reply, _, rfl⟩ := Option.map_eq_some_iff.mp move
    have step := TaskStep.hears left reply pc
    rwa [pc] at step
  | sendCopy payload headerSize =>
    simp only [pc, State.sendsCopy] at move
    split at move <;> cases move
    exact .sendsCopy payload headerSize pc rfl rfl
  | sendStream payload headerSize =>
    simp only [pc] at move
    split at move <;> cases move
    exact .sends payload headerSize pc
  | sendStreamReply payload headerSize =>
    simp only [pc] at move
    obtain ⟨reply, here, rfl⟩ := Option.map_eq_some_iff.mp move
    have step := TaskStep.resends payload headerSize reply pc here
    rwa [pc] at step
  | waitStream =>
    simp only [pc, State.waits] at move
    split at move
    · rename_i locked
      cases move
      exact .selects pc locked
    · rename_i free
      split at move <;> cases move
      exact .asksToWait pc (Bool.eq_false_iff.mpr free)
  | select =>
    simp only [pc] at move
    split at move
    · rename_i unsubscribed
      cases move
      have step := TaskStep.subscribes pc (Option.isNone_iff_eq_none.mp unsubscribed)
      rwa [pc] at step
    · cases move
  | drainAfterWait =>
    simp only [pc] at move
    cases move
    exact .drainsAfterWait pc
  | panicked =>
    simp only [pc] at move
    cases move

theorem wakes_cases {backing : Backing} (move : s.wakes backing = some t) : s.pc = .select ∧
    ((∃ reply rest, backing = .iox2 ∧ s.waitStreamReceiver = reply :: rest ∧
        t = { s with waitStreamReceiver := rest, subscription := none }.handleWaitStreamReturn
          reply .drainAfterWait) ∨
      t = { s with subscription := none, pc := .tryRecvStream }) := by
  unfold State.wakes at move
  split at move
  · rename_i pc
    refine ⟨pc, ?_⟩
    cases backing with
    | iox2 =>
      cases replies : s.waitStreamReceiver with
      | nil => simp [replies] at move
      | cons reply rest =>
        simp only [replies] at move
        cases move
        exact Or.inl ⟨reply, rest, rfl, rfl, rfl⟩
    | wsGateway =>
      cases subscription : s.subscription with
      | none => simp [subscription] at move
      | some backlog =>
        cases backlog with
        | nil => simp [subscription] at move
        | cons frame backlog =>
          simp only [subscription] at move
          cases move
          exact Or.inr rfl
  · cases move

end ReceiverTask

def looks : List Label :=
  [.proceeds, .proceeds, .proceeds, .proceeds, .recvActor .answers, .proceeds, .proceeds,
    .proceeds]

def sendsFrame (frame : List UInt8) : List Label :=
  [.client 0 .connects, .client 0 (.reads frame), .client 0 .forwards]

end Combined
