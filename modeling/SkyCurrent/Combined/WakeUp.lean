import SkyCurrent.Combined.Steps

/- Whether a suspended receiver task is woken for a message of the gateway. The subscription
   that could wake it is made at the first poll of wait_stream, after try_recv_stream. -/
namespace Combined

open Runs

variable {shouldCollect : List UInt8 → Bool} {s t : State}

/-- A reply to WaitStream is in WAIT_STREAM_RECEIVER, or on its way: the actor executes or will
    execute the request, and an event for it has arrived. -/
def State.replyInFlight (s : State) : Prop :=
  s.waitStreamReceiver ≠ [] ∨ .waitStream ∈ s.recvCalls ∧ s.listener = true

instance (s : State) : Decidable s.replyInFlight := inferInstanceAs (Decidable (_ ∨ _))

/-- recv_stream is suspended in wait_stream, RECEIVING_CHANNEL_RX holds a message, and nothing
    that has happened will wake it. -/
def LostWakeUp (s : State) : Prop :=
  s.pc = .select ∧ s.subscription = some [] ∧ s.receivingChannelRx ≠ [] ∧ ¬ s.replyInFlight

instance (s : State) : Decidable (LostWakeUp s) := inferInstanceAs (Decidable (_ ∧ _))

/-- The step is not the first poll of the gateway's branch, or no message has come before it
    that was not received, or a reply will wake the task. -/
def SubscribesInTime (s : State) (l : Label) : Prop :=
  match l with
  | .proceeds =>
    s.pc = .select → s.subscription = none → s.receivingChannelRx = [] ∨ s.replyInFlight
  | _ => True

instance (s : State) : (l : Label) → Decidable (SubscribesInTime s l)
  | .proceeds => inferInstanceAs (Decidable (_ → _ → _))
  | .passes _ | .wakes _ | .recvActor _ | .sendActor _ | .queues _ _ | .client _ _ | .mesh _ =>
    isTrue trivial

structure Awake (s : State) : Prop where
  subscribed : s.subscription ≠ none → s.pc = .select
  woken : s.subscription = some [] → s.receivingChannelRx = [] ∨ s.replyInFlight

section Task

theorem handleWaitStreamReturn_subscription {backing : Except IpcError Backing} {after : Pc}
    (unsubscribed : s.subscription = none) :
    (s.handleWaitStreamReturn backing after).subscription = none := by
  cases backing with
  | error error => rfl
  | ok backing => exact unsubscribed

theorem drains_subscription {again after : Pc} (unsubscribed : s.subscription = none) :
    (s.drains again after).subscription = none := by
  unfold State.drains
  split
  · exact unsubscribed
  · exact handleWaitStreamReturn_subscription unsubscribed

theorem hears_subscription {reply : Except IpcError Iox2.TryRecvStreamResult} {left : Nat}
    (unsubscribed : s.subscription = none) : (s.hears reply left).subscription = none := by
  unfold State.hears
  split
  · rfl
  all_goals exact unsubscribed

theorem proceeds_subscription (unsubscribed : s.subscription = none) (other : s.pc ≠ .select)
    (move : s.proceeds = some t) : t.subscription = none := by
  cases proceeds_cases move with
  | startsOn pc =>
    rw [startsOn_frame]
    exact unsubscribed
  | drains pc => exact drains_subscription unsubscribed
  | tries left pc move =>
    rw [tries_frame move]
    exact unsubscribed
  | hears left reply pc => exact hears_subscription unsubscribed
  | sendsCopy payload headerSize pc after frame =>
    rw [frame]
    exact unsubscribed
  | resends payload headerSize reply pc here => cases reply <;> exact unsubscribed
  | subscribes pc _ => exact absurd pc other
  | drainsAfterWait pc => exact drains_subscription unsubscribed
  | calls | sends | selects | asksToWait => exact unsubscribed

theorem proceeds_select (selects : s.pc = .select) (move : s.proceeds = some t) :
    s.subscription = none ∧ t = { s with subscription := some [] } := by
  cases proceeds_cases move with
  | subscribes pc unsubscribed => exact ⟨unsubscribed, rfl⟩
  | calls pc | startsOn pc | drains pc | tries _ pc | hears _ _ pc | sendsCopy _ _ pc
  | sends _ _ pc | resends _ _ _ pc | selects pc | asksToWait pc | drainsAfterWait pc =>
    rw [selects] at pc
    cases pc

theorem wakes_subscription {backing : Backing} (move : s.wakes backing = some t) :
    t.subscription = none := by
  obtain ⟨_, ⟨reply, rest, _, _, rfl⟩ | rfl⟩ := wakes_cases move
  · exact handleWaitStreamReturn_subscription rfl
  · rfl

end Task

theorem Awake.unsubscribed (none_ : s.subscription = none) : Awake s := by
  constructor
  · intro some_
    exact absurd none_ some_
  · intro some_
    rw [none_] at some_
    cases some_

theorem Awake.proceeds (awake : Awake s) (inTime : SubscribesInTime s .proceeds)
    (move : s.proceeds = some t) : Awake t := by
  by_cases selects : s.pc = .select
  · obtain ⟨none_, rfl⟩ := proceeds_select selects move
    exact ⟨fun _ => selects, fun _ => inTime selects none_⟩
  · have none_ : s.subscription = none := by
      by_contra some_
      exact selects (awake.subscribed some_)
    exact .unsubscribed (proceeds_subscription none_ selects move)

theorem recvActor_replyInFlight {act : RecvAct} (move : s.recvActor shouldCollect act = some t)
    (inFlight : s.replyInFlight) : t.replyInFlight := by
  cases recvActor_cases move with
  | page reply calls less frame =>
    rcases inFlight with reply | ⟨request, event⟩
    · left
      rw [frame]
      exact reply
    · rw [calls, List.mem_cons] at request
      rcases request with other | request
      · cases other
      · right
        rw [frame]
        exact ⟨request, event⟩
  | wait reply calls iox2 frame =>
    left
    rw [frame]
    simp

theorem forwards_wakes {clients : List Client} {frame : List UInt8}
    (move : s.forwards clients frame = some t) :
    t.subscription = none ∧ s.subscription = none ∨
      t.subscription ≠ some [] ∧ s.subscription ≠ none := by
  unfold State.forwards at move
  split at move <;> cases move
  cases s.subscription with
  | none => exact Or.inl ⟨rfl, rfl⟩
  | some backlog => exact Or.inr ⟨by simp, by simp⟩

theorem client_wakes {c : Nat} {act : ClientAct} (move : s.client c act = some t) :
    (t.subscription = s.subscription ∧ t.receivingChannelRx = s.receivingChannelRx) ∨
      t.subscription = none ∧ s.subscription = none ∨
        t.subscription ≠ some [] ∧ s.subscription ≠ none := by
  unfold State.client at move
  split at move
  · cases move
    exact Or.inl ⟨rfl, rfl⟩
  · cases move
    exact Or.inl ⟨rfl, rfl⟩
  · exact Or.inr (forwards_wakes move)
  · cases move
    exact Or.inl ⟨rfl, rfl⟩
  · cases move
    exact Or.inl ⟨rfl, rfl⟩
  · cases move

theorem Awake.client {c : Nat} {act : ClientAct} (awake : Awake s)
    (move : s.client c act = some t) : Awake t := by
  have same := client_frame move
  have pc : t.pc = s.pc := by rw [same]
  have inFlight : t.replyInFlight ↔ s.replyInFlight := by rw [same]; rfl
  rcases client_wakes move with ⟨kept, rx⟩ | ⟨none_, _⟩ | ⟨message, some_⟩
  · constructor
    · rw [kept, pc]
      exact awake.subscribed
    · rw [kept, rx, inFlight]
      exact awake.woken
  · exact .unsubscribed none_
  · constructor
    · intro _
      rw [pc]
      exact awake.subscribed some_
    · intro nothing
      exact absurd nothing message

/-- The steps of the others around: they touch neither the task nor its subscription, and an
    event that has arrived stays until the actor has seen it. -/
theorem Awake.around (awake : Awake s) (pc : t.pc = s.pc)
    (subscription : t.subscription = s.subscription)
    (rx : t.receivingChannelRx = s.receivingChannelRx)
    (inFlight : s.replyInFlight → t.replyInFlight) : Awake t := by
  constructor
  · rw [subscription, pc]
    exact awake.subscribed
  · intro nothing
    rw [subscription] at nothing
    rw [rx]
    exact (awake.woken nothing).imp_right inFlight

theorem sendActor_listener {act : SendAct} (move : s.sendActor act = some t)
    (event : s.listener = true) : t.listener = true := by
  rcases sendActor_cases move with ⟨_, _, takes⟩ | ⟨sending, _, ⟨_, publishes | ⟨_, fails⟩⟩ |
    ⟨_, rfl⟩ | ⟨_, rfl⟩⟩
  · rw [takesCall_frame takes]
    exact event
  · unfold State.publishes at publishes
    split at publishes
    · cases publishes
    · split at publishes <;> cases publishes
      exact event
  · unfold State.pageFails at fails
    split at fails
    · split at fails <;> cases fails <;> exact event
    · cases fails
  · unfold State.notified
    split <;> rfl
  · exact event

theorem mesh_listener {act : MeshAct} (move : s.mesh act = some t) (event : s.listener = true) :
    t.listener = true := by
  cases act with
  | publishes page =>
    simp only [State.mesh] at move
    split at move <;> cases move
    exact event
  | notifies =>
    cases move
    rfl

theorem Awake.step {l : Label} (awake : Awake s) (inTime : SubscribesInTime s l)
    (move : next shouldCollect s l = some t) : Awake t := by
  cases l with
  | passes time =>
    cases move
    exact awake.around rfl rfl rfl id
  | proceeds => exact awake.proceeds inTime move
  | wakes backing => exact .unsubscribed (wakes_subscription move)
  | recvActor act =>
    have inFlight := recvActor_replyInFlight move
    cases recvActor_cases move with
    | page reply calls less frame =>
      exact awake.around (by rw [frame]) (by rw [frame]) (by rw [frame]) inFlight
    | wait reply calls iox2 frame =>
      exact awake.around (by rw [frame]) (by rw [frame]) (by rw [frame]) inFlight
  | sendActor act =>
    have same := sendActor_frame move
    refine awake.around (by rw [same]) (by rw [same]) (by rw [same]) ?_
    rintro (reply | ⟨request, event⟩)
    · exact Or.inl (by rw [same]; exact reply)
    · exact Or.inr ⟨by rw [same]; exact request, sendActor_listener move event⟩
  | queues payload headerSize =>
    have same := queues_frame move
    refine awake.around (by rw [same]) (by rw [same]) (by rw [same]) ?_
    rw [same]
    exact id
  | client c act => exact awake.client move
  | mesh act =>
    have same := mesh_frame move
    refine awake.around (by rw [same]) (by rw [same]) (by rw [same]) ?_
    rintro (reply | ⟨request, event⟩)
    · exact Or.inl (by rw [same]; exact reply)
    · exact Or.inr ⟨by rw [same]; exact request, mesh_listener move event⟩

theorem Awake.notLost (awake : Awake s) : ¬ LostWakeUp s := by
  rintro ⟨_, subscription, message, silent⟩
  rcases awake.woken subscription with nothing | reply
  · exact message nothing
  · exact silent reply

/-- No wake-up is lost as long as every subscription is made while the receiving channel is
    empty or a reply is in flight, and one is lost at the first subscription that is not. -/
theorem no_lost_wake_up_iff {trace : List (State × Label)} (run : Runs shouldCollect trace s) :
    Throughout (fun _ s => ¬ LostWakeUp s) trace s ↔ Meets SubscribesInTime trace := by
  constructor
  · intro holds
    refine meets_of_throughout ?_ run holds
    intro trace s l t _ _ move late kept
    apply kept
    cases l with
    | proceeds =>
      simp only [SubscribesInTime, Classical.not_imp, not_or] at late
      obtain ⟨selects, _, message, silent⟩ := late
      obtain ⟨_, rfl⟩ := proceeds_select selects move
      exact ⟨selects, rfl, message, silent⟩
    | _ => exact absurd trivial late
  · intro inTime
    refine throughout_of_runs ?_ run inTime
    intro trace s run inTime
    have awake : Awake s := by
      refine run_invariant (fun _ s => Awake s) ?_ ?_ run inTime
      · rintro s rfl
        exact .unsubscribed rfl
      · intro _ _ _ _ _ awake inTime move
        exact awake.step inTime move
    exact awake.notLost

def emptyFrame : List UInt8 := ByteBuffer.encode 8 0

/-- The frame arrives at a suspended task, which takes it 10 ms later. -/
theorem no_lost_wake_up_message : ∃ trace s, Runs (fun _ => true) trace s ∧
    Throughout (fun _ s => ¬ LostWakeUp s) trace s ∧ s.pc = .sendStream [] 0 := by
  obtain ⟨trace, s, run, inTime, pc⟩ := execute_run (next fun _ => true) init
    (looks ++ [.proceeds, .proceeds, .passes (slot + 1)] ++ sendsFrame emptyFrame ++
      [.wakes .wsGateway, .proceeds, .proceeds, .proceeds])
    (fun trace s => (∀ e ∈ trace, SubscribesInTime e.1 e.2) ∧ s.pc = .sendStream [] 0)
    (by decide +kernel)
  exact ⟨trace, s, run, (no_lost_wake_up_iff run).mpr inTime, pc⟩

/-- The frame arrives after the task has looked and before it subscribes. -/
theorem wake_up_lost : ∃ trace s, Runs (fun _ => true) trace s ∧ LostWakeUp s :=
  execute_run (next fun _ => true) init
    (looks ++ sendsFrame emptyFrame ++ [.proceeds, .proceeds]) (fun _ s => LostWakeUp s)
    (by decide +kernel)

/-- The frame arrives in time and wakes the task, which asks the blocked iox2 backing twice
    and the gateway not at all. -/
theorem wake_up_lost_unasked : ∃ trace s, Runs (fun _ => true) trace s ∧ LostWakeUp s :=
  execute_run (next fun _ => true) init
    (looks ++ [.proceeds, .proceeds] ++ sendsFrame emptyFrame ++
      [.wakes .wsGateway, .proceeds, .proceeds, .proceeds, .proceeds, .proceeds, .proceeds,
        .proceeds])
    (fun _ s => LostWakeUp s) (by decide +kernel)

end Combined
