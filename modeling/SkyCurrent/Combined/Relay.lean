import SkyCurrent.Combined.Backlogs
import SkyCurrent.Combined.Requests

/- From the frames of the web clients, and the calls of other threads, to the pages this process
   publishes. The handlers of the clients, the receiver task and the send actor work on them side
   by side, and come to what sending them one after another would give. -/
namespace Combined

open Iox2 (Blob)
open ByteBuffer (decode)
open Runs

variable {shouldCollect : List UInt8 → Bool} {s t : State} {trace : List (State × Label)}

section SendActor

def State.answersElsewhere (s : State) (act : SendAct) : Option (Except IpcError Unit) :=
  match s.sending, act with
  | none, .takes identification =>
    match s.sendCalls with
    | [] => none
    | call :: _ =>
      if call.forwarded then none
      else
        match Iox2.sendStream call.payload call.headerSize identification with
        | none => some (.error .backingCrashedOrNotStarted)
        | some (.error error) => some (.error (.rejected error))
        | some (.ok _) => none
  | some sending, .notifies =>
    if sending.forwarded = false ∧ sending.left = [] then some sending.result else none
  | some sending, .notifyFails =>
    if sending.forwarded then none else some (.error .iox2NotifierNotifyError)
  | some sending, .interrupted =>
    if sending.forwarded then none else some (.error .interruptSignalReceivedError)
  | _, _ => none

def State.begins (s : State) (act : SendAct) : Option Iox2.Message :=
  match s.sending, s.sendCalls, act with
  | none, call :: _, .takes identification =>
    match Iox2.sendStream call.payload call.headerSize identification with
    | some (.ok _) => some ⟨call.payload, call.headerSize, identification⟩
    | _ => none
  | _, _, _ => none

def State.ends (s : State) (act : SendAct) : Option (Except IpcError Unit) :=
  match s.sending, act with
  | some sending, .notifies => if sending.left.isEmpty then some sending.result else none
  | some _, .notifyFails => some (.error .iox2NotifierNotifyError)
  | some _, .interrupted => some (.error .interruptSignalReceivedError)
  | _, _ => none

def transmittedBy (s : State) : Label → List Blob
  | .sendActor .publishes => (s.sending.bind fun sending => sending.left.head?).toList
  | _ => []

inductive Sends (s t : State) (act : SendAct) : Prop where
  | takes (call : SendCall) (sending : Sending) (identification : UInt64)
      (idle : s.sending = none) (calls : s.sendCalls = call :: t.sendCalls)
      (is : t.sending = some sending) (forwarded : sending.forwarded = call.forwarded)
      (result : sending.result = .ok ()) (drawn : identification ≠ 0)
      (sent : Iox2.sendStream call.payload call.headerSize identification =
        some (.ok sending.left))
      (subscriber : t.subscriber = s.subscriber) (reply : t.sendStreamReply = s.sendStreamReply)
      (silent : s.answersElsewhere act = none) (nothing : transmittedBy s (.sendActor act) = [])
      (begins : s.begins act = some ⟨call.payload, call.headerSize, identification⟩)
      (fragmented : sending.fragmented = decide (Iox2.presetN - 8 - 8 - 8 < call.payload.length))
  | rejects (call : SendCall) (error : IpcError) (idle : s.sending = none)
      (calls : s.sendCalls = call :: t.sendCalls) (done : t.sending = none)
      (fatal : error.senderRetries = false) (subscriber : t.subscriber = s.subscriber)
      (reply : t.sendStreamReply =
        if call.forwarded then some (.error error) else s.sendStreamReply)
      (answer : s.answersElsewhere act = if call.forwarded then none else some (.error error))
      (nothing : transmittedBy s (.sendActor act) = []) (refused : s.begins act = none)
  | publishes (sending : Sending) (page : Blob) (left : List Blob)
      (was : s.sending = some sending) (pages : sending.left = page :: left)
      (is : t.sending = some { sending with left := left, notifies := true })
      (calls : t.sendCalls = s.sendCalls) (room : s.subscriber.length < bufferSize)
      (subscriber : t.subscriber = s.subscriber ++ [page])
      (reply : t.sendStreamReply = s.sendStreamReply) (silent : s.answersElsewhere act = none)
      (one : transmittedBy s (.sendActor act) = [page])
  | goesOn (sending sending' : Sending) (was : s.sending = some sending)
      (is : t.sending = some sending') (forwarded : sending'.forwarded = sending.forwarded)
      (left : sending'.result = .ok () → sending.result = .ok () ∧ sending'.left = sending.left)
      (calls : t.sendCalls = s.sendCalls) (subscriber : t.subscriber = s.subscriber)
      (reply : t.sendStreamReply = s.sendStreamReply) (silent : s.answersElsewhere act = none)
      (less : sending'.left.Sublist sending.left)
      (nothing : transmittedBy s (.sendActor act) = []) (still : s.ends act = none)
      (fragmented : sending'.fragmented = sending.fragmented)
      (skips : sending'.left = sending.left ∧ sending'.result = sending.result ∨
        sending.fragmented = false ∧ sending'.left = sending.left.tail ∧ sending'.result ≠ .ok ())
  | ends (sending : Sending) (result : Except IpcError Unit) (was : s.sending = some sending)
      (done : t.sending = none) (calls : t.sendCalls = s.sendCalls)
      (subscriber : t.subscriber = s.subscriber)
      (reply : t.sendStreamReply =
        if sending.forwarded then some result else s.sendStreamReply)
      (answer : s.answersElsewhere act = if sending.forwarded then none else some result)
      (how : result = .ok () → sending.result = .ok () ∧ sending.left = [])
      (nothing : transmittedBy s (.sendActor act) = []) (ends : s.ends act = some result)

theorem takesCall_spec {identification : UInt64} (is : s.sending = none)
    (move : s.takesCall identification = some t) : Sends s t (.takes identification) := by
  unfold State.takesCall at move
  split at move
  · cases move
  · rename_i call rest calls
    split at move
    · cases move
    · rename_i drawn
      split at move
      · rename_i failed
        cases move
        exact .rejects call .backingCrashedOrNotStarted is calls rfl rfl rfl rfl
          (by simp [State.answersElsewhere, is, calls, failed]) rfl
          (by simp [State.begins, is, calls, failed])
      · rename_i error failed
        cases move
        exact .rejects call (.rejected error) is calls rfl rfl rfl rfl
          (by simp [State.answersElsewhere, is, calls, failed]) rfl
          (by simp [State.begins, is, calls, failed])
      · rename_i pages sent
        cases move
        exact .takes call _ identification is calls rfl rfl rfl drawn sent rfl rfl
          (by simp [State.answersElsewhere, is, calls, sent]) rfl
          (by simp [State.begins, is, calls, sent]) rfl

theorem sendActor_spec {act : SendAct} (move : s.sendActor act = some t) : Sends s t act := by
  cases is : s.sending with
  | none =>
    cases act with
    | takes identification =>
      simp only [State.sendActor, is] at move
      exact takesCall_spec is move
    | _ => simp [State.sendActor, is] at move
  | some sending =>
    cases act with
    | takes identification => simp [State.sendActor, is] at move
    | publishes =>
      simp only [State.sendActor, is] at move
      split at move
      · cases move
      · unfold State.publishes at move
        split at move
        · cases move
        · rename_i page left pages
          split at move <;> cases move
          rename_i room
          exact .publishes sending page left is pages rfl rfl room rfl rfl
            (by simp [State.answersElsewhere, is]) (by simp [transmittedBy, is, pages])
    | pageFails error =>
      simp only [State.sendActor, is] at move
      split at move
      · cases move
      · unfold State.pageFails at move
        split at move
        · split at move <;> cases move
          · exact .goesOn sending sending is is rfl (fun ok => ⟨ok, rfl⟩) rfl rfl rfl
              (by simp [State.answersElsewhere, is]) (List.Sublist.refl _) rfl
              (by simp [State.ends, is]) rfl (Or.inl ⟨rfl, rfl⟩)
          · rename_i short
            exact .goesOn sending _ is rfl rfl (by simp) rfl rfl rfl
              (by simp [State.answersElsewhere, is]) (List.tail_sublist _) rfl
              (by simp [State.ends, is]) rfl (Or.inr ⟨by simpa using short, rfl, by simp⟩)
        · cases move
    | notifies =>
      simp only [State.sendActor, is] at move
      split at move <;> cases move
      unfold State.notified
      split
      · rename_i pages
        refine .ends sending sending.result is rfl rfl rfl rfl ?_ (fun ok => ⟨ok, pages⟩) rfl
          (by simp [State.ends, is, pages])
        simp only [State.answersElsewhere, is, pages, and_true]
        cases sending.forwarded <;> simp
      · rename_i page left pages
        exact .goesOn sending { sending with notifies := false } is rfl rfl
          (fun ok => ⟨ok, rfl⟩) rfl rfl rfl (by simp [State.answersElsewhere, is, pages])
          (List.Sublist.refl _) rfl (by simp [State.ends, is, pages]) rfl (Or.inl ⟨rfl, rfl⟩)
    | notifyFails =>
      simp only [State.sendActor, is] at move
      split at move <;> cases move
      exact .ends sending (.error .iox2NotifierNotifyError) is rfl rfl rfl rfl
        (by simp [State.answersElsewhere, is]) (by simp) rfl (by simp [State.ends, is])
    | interrupted =>
      simp only [State.sendActor, is] at move
      split at move <;> cases move
      exact .ends sending (.error .interruptSignalReceivedError) is rfl rfl rfl rfl
        (by simp [State.answersElsewhere, is]) (by simp) rfl (by simp [State.ends, is])

end SendActor

/-- What the gateway branch of try_recv_stream makes of a frame that is long enough. -/
def unframed (frame : List UInt8) : List UInt8 × Nat :=
  (frame.take (frame.length - 8), decode (frame.drop (frame.length - 8)))

def arrivedBy (s : State) : Label → List (List UInt8 × Nat)
  | .client c .forwards => (((s.clients[c]?).bind (·.sending)).map unframed).toList
  | _ => []

def queuedBy (s : State) : Label → List SendCall
  | .queues payload headerSize => [⟨payload, headerSize, false⟩]
  | .proceeds =>
    match s.pc with
    | .sendStream payload headerSize => [⟨payload, headerSize, true⟩]
    | _ => []
  | _ => []

def transmitted (trace : List (State × Label)) : List Blob :=
  trace.flatMap fun e => transmittedBy e.1 e.2

def arrived (trace : List (State × Label)) : List (List UInt8 × Nat) :=
  trace.flatMap fun e => arrivedBy e.1 e.2

def queued (trace : List (State × Label)) : List SendCall :=
  trace.flatMap fun e => queuedBy e.1 e.2

def State.frameInHand (s : State) : List (List UInt8 × Nat) :=
  match s.pc, s.sendStreamReply with
  | .sendStream payload headerSize, _ => [(payload, headerSize)]
  | .sendStreamReply _ _, some (.ok _) => []
  | .sendStreamReply payload headerSize, _ => [(payload, headerSize)]
  | _, _ => []

/-- One send_stream of the send actor: the call, the pages it has published, and its result. -/
structure SendAttempt where
  call : SendCall
  pages : List Blob
  result : Except IpcError Unit

namespace SendAttempt

def frame (attempt : SendAttempt) : Option (List UInt8 × Nat) :=
  match attempt.result with
  | .ok _ =>
    if attempt.call.forwarded then some (attempt.call.payload, attempt.call.headerSize) else none
  | .error _ => none

/-- An attempt publishes pages of its call, in their order, and all of them if it succeeds. -/
structure Fair (attempt : SendAttempt) : Prop where
  part : attempt.pages = [] ∨ ∃ identification pages, identification ≠ 0 ∧
    Iox2.sendStream attempt.call.payload attempt.call.headerSize identification =
      some (.ok pages) ∧ attempt.pages.Sublist pages
  whole : attempt.result = .ok () → ∃ identification, identification ≠ 0 ∧
    Iox2.sendStream attempt.call.payload attempt.call.headerSize identification =
      some (.ok attempt.pages)

end SendAttempt

inductive UnderWay : Option Sending → Option (SendCall × List Blob) → Prop where
  | idle : UnderWay none none
  | sends (sending : Sending) (call : SendCall) (done all : List Blob) (identification : UInt64)
      (forwarded : sending.forwarded = call.forwarded) (drawn : identification ≠ 0)
      (sent : Iox2.sendStream call.payload call.headerSize identification = some (.ok all))
      (part : (done ++ sending.left).Sublist all)
      (whole : sending.result = .ok () → done ++ sending.left = all) :
      UnderWay (some sending) (some (call, done))

/-- The attempts so far come one after another, in the order of the calls; and the frames that
    were sent, the one in hand and those in the channel are the frames that have arrived. Where
    the task has panicked it has lost the frame it had in hand. -/
structure Relays (trace : List (State × Label)) (s : State) (past : List SendAttempt)
    (current : Option (SendCall × List Blob)) (lost : List (List UInt8 × Nat)) : Prop where
  pages : transmitted trace = past.flatMap (·.pages) ++ current.toList.flatMap (·.2)
  calls : queued trace = past.map (·.call) ++ current.toList.map (·.1) ++ s.sendCalls
  fair : ∀ attempt ∈ past, attempt.Fair
  now : UnderWay s.sending current
  frames : arrived trace = past.filterMap SendAttempt.frame ++ s.frameInHand ++ lost ++
    s.receivingChannelRx.map unframed
  one : lost.length ≤ 1
  alive : s.pc ≠ .panicked → lost = []
  mine : ∀ payload headerSize, s.pc = .sendStreamReply payload headerSize → ∀ call,
    call ∈ s.sendCalls ∨ call ∈ current.map (·.1) → call.forwarded = true →
      call = ⟨payload, headerSize, true⟩

section Task

structure TaskFrames (s t : State) (calls : List SendCall) (taken : List (List UInt8 × Nat)) :
    Prop where
  channel : s.receivingChannelRx.map unframed = taken ++ t.receivingChannelRx.map unframed
  hand : t.frameInHand = s.frameInHand ++ taken ∨ t.pc = .panicked ∧ t.frameInHand = []
  few : (s.frameInHand ++ taken).length ≤ 1
  alive : s.pc ≠ .panicked
  queues : t.sendCalls = s.sendCalls ++ calls
  sending : t.sending = s.sending
  asks : ∀ payload headerSize, t.pc = .sendStreamReply payload headerSize →
    s.pc.forwards = false ∧ calls = [⟨payload, headerSize, true⟩]

def Pc.apart : Pc → Bool
  | .sendStream _ _ => false
  | .sendStreamReply _ _ => false
  | _ => true

theorem frameInHand_apart (apart : s.pc.apart = true) : s.frameInHand = [] := by
  unfold State.frameInHand
  cases pc : s.pc with
  | sendStream payload headerSize => rw [pc] at apart; cases apart
  | sendStreamReply payload headerSize => rw [pc] at apart; cases apart
  | _ => rfl

theorem queuedBy_apart (apart : s.pc.apart = true) : queuedBy s .proceeds = [] := by
  unfold queuedBy
  cases pc : s.pc with
  | sendStream payload headerSize => rw [pc] at apart; cases apart
  | _ => rfl

theorem TaskFrames.aside (before : s.pc.apart = true) (after : t.pc.apart = true)
    (alive : s.pc ≠ .panicked) (channel : t.receivingChannelRx = s.receivingChannelRx)
    (calls : t.sendCalls = s.sendCalls) (sending : t.sending = s.sending) :
    TaskFrames s t [] [] := by
  have none_ := frameInHand_apart before
  refine ⟨by simp [channel], Or.inl ?_, by simp [none_], alive, by simp [calls], sending, ?_⟩
  · simp [none_, frameInHand_apart after]
  · intro payload headerSize pc
    rw [pc] at after
    cases after

theorem fails_apart_frames (error : IpcError) : (s.fails error).pc.apart = true := by
  unfold State.fails
  cases error.receiverRetries <;> rfl

theorem handleWaitStreamReturn_frames (backing : Except IpcError Backing) {after : Pc}
    (apart : after.apart = true) : (s.handleWaitStreamReturn backing after).pc.apart = true := by
  cases backing with
  | ok backing => exact apart
  | error error => exact fails_apart_frames error

theorem drains_frames {again after : Pc} (apartAgain : again.apart = true)
    (apart : after.apart = true) : (s.drains again after).pc.apart = true := by
  unfold State.drains
  split
  · exact apart
  · exact handleWaitStreamReturn_frames _ apartAgain

theorem hears_frames (reply : Except IpcError Iox2.TryRecvStreamResult) (left : Nat) :
    (s.hears reply left).pc.apart = true := by
  unfold State.hears
  split
  · exact fails_apart_frames _
  · rfl
  · rfl
  · rfl

theorem tries_frames {left : Nat} (pc : s.pc = .tries left) (move : s.tries left = some t) :
    ∃ taken, TaskFrames s t [] taken := by
  have before : s.pc.apart = true := by rw [pc]; rfl
  have alive : s.pc ≠ .panicked := by rw [pc]; simp
  unfold State.tries at move
  split at move
  · cases move
    exact ⟨[], .aside before rfl alive rfl rfl rfl⟩
  · split at move
    · cases move
      exact ⟨[], .aside before rfl alive rfl rfl rfl⟩
    · split at move
      · cases move
        exact ⟨[], .aside before rfl alive rfl rfl rfl⟩
      · split at move
        · split at move <;> cases move
          exact ⟨[], .aside before rfl alive rfl rfl rfl⟩
        · split at move
          · cases move
            exact ⟨[], .aside before rfl alive rfl rfl rfl⟩
          · rename_i frame rest channel
            cases move
            have none_ := frameInHand_apart before
            refine ⟨[unframed frame], ?_⟩
            unfold State.unframes
            split
            · refine ⟨by simp [channel], Or.inr ⟨rfl, rfl⟩, by simp [none_], alive, by simp, rfl,
                ?_⟩
              intro payload headerSize pc'
              cases pc'
            · refine ⟨by simp [channel], Or.inl ?_, by simp [none_], alive, by simp, rfl, ?_⟩
              · rw [none_]
                rfl
              · intro payload headerSize pc'
                cases pc'

theorem resends_frames {payload : List UInt8} {headerSize : Nat} {reply : Except IpcError Unit}
    (pc : s.pc = .sendStreamReply payload headerSize) (here : s.sendStreamReply = some reply) :
    TaskFrames s ({ s with sendStreamReply := none }.resends reply payload headerSize) [] [] := by
  have alive : s.pc ≠ .panicked := by rw [pc]; simp
  cases reply with
  | ok _ =>
    have none_ : s.frameInHand = [] := by simp [State.frameInHand, pc, here]
    refine ⟨rfl, Or.inl ?_, by simp [none_], alive, by simp [State.resends], rfl, ?_⟩
    · rw [none_]
      rfl
    · intro payload headerSize pc'
      cases pc'
  | error error =>
    have one : s.frameInHand = [(payload, headerSize)] := by simp [State.frameInHand, pc, here]
    refine ⟨rfl, ?_, by simp [one], alive, by simp [State.resends], rfl, ?_⟩
    · cases retries : error.senderRetries with
      | true =>
        rw [one]
        exact Or.inl (by simp [State.resends, State.frameInHand, retries])
      | false => exact Or.inr (by simp [State.resends, State.frameInHand, retries])
    · intro payload headerSize pc'
      simp only [State.resends] at pc'
      split at pc' <;> cases pc'

theorem proceeds_frames (orderly : Orderly s) (move : s.proceeds = some t) :
    ∃ taken, TaskFrames s t (queuedBy s .proceeds) taken := by
  have aside (before : s.pc.apart = true) (after : t.pc.apart = true) (alive : s.pc ≠ .panicked)
      (channel : t.receivingChannelRx = s.receivingChannelRx) (calls : t.sendCalls = s.sendCalls)
      (sending : t.sending = s.sending) : ∃ taken, TaskFrames s t (queuedBy s .proceeds) taken := by
    rw [queuedBy_apart before]
    exact ⟨[], .aside before after alive channel calls sending⟩
  cases proceeds_cases move with
  | calls pc => exact aside (by rw [pc]; rfl) rfl (by simp [pc]) rfl rfl rfl
  | startsOn pc =>
    refine aside (by rw [pc]; rfl) rfl (by simp [pc]) ?_ ?_ ?_
    all_goals rw [startsOn_frame]
  | drains pc =>
    refine aside (by rw [pc]; rfl) (drains_frames rfl rfl) (by simp [pc]) ?_ ?_ ?_
    all_goals rw [drains_frame]
  | tries left pc move =>
    rw [queuedBy_apart (by rw [pc]; rfl)]
    exact tries_frames pc move
  | hears left reply pc =>
    refine aside (by rw [pc]; rfl) (hears_frames reply left) (by simp [pc]) ?_ ?_ ?_
    all_goals rw [hears_frame]
  | sendsCopy payload headerSize pc after frame =>
    refine aside (by rw [pc]; rfl) (by rw [after]; rfl) (by simp [pc]) ?_ ?_ ?_
    all_goals rw [frame]
  | sends payload headerSize pc =>
    have none_ : s.sendStreamReply = none := by
      have under := orderly.one
      simp only [pc, Pc.forwards, State.underWay] at under
      simp only [Bool.false_eq_true, if_false] at under
      exact List.eq_nil_of_length_eq_zero (by omega) |> Option.toList_eq_nil_iff.mp
    have one : s.frameInHand = [(payload, headerSize)] := by simp [State.frameInHand, pc]
    refine ⟨[], ⟨rfl, Or.inl ?_, by simp [one], by simp [pc], by simp [queuedBy, pc], rfl, ?_⟩⟩
    · rw [one]
      simp [State.frameInHand, none_]
    · intro payload' headerSize' pc'
      cases pc'
      rw [pc]
      exact ⟨rfl, by simp [queuedBy, pc]⟩
  | resends payload headerSize reply pc here =>
    have nothing : queuedBy s .proceeds = [] := by simp [queuedBy, pc]
    rw [nothing]
    exact ⟨[], resends_frames pc here⟩
  | selects pc locked => exact aside (by rw [pc]; rfl) rfl (by simp [pc]) rfl rfl rfl
  | asksToWait pc free => exact aside (by rw [pc]; rfl) rfl (by simp [pc]) rfl rfl rfl
  | subscribes pc unsubscribed =>
    have apart : s.pc.apart = true := by rw [pc]; rfl
    exact aside apart apart (by simp [pc]) rfl rfl rfl
  | drainsAfterWait pc =>
    refine aside (by rw [pc]; rfl) (drains_frames rfl rfl) (by simp [pc]) ?_ ?_ ?_
    all_goals rw [drains_frame]

theorem wakes_frames {backing : Backing} (move : s.wakes backing = some t) :
    TaskFrames s t [] [] := by
  obtain ⟨pc, ⟨reply, rest, _, _, rfl⟩ | rfl⟩ := wakes_cases move
  · refine .aside (by rw [pc]; rfl) (handleWaitStreamReturn_frames _ rfl) (by simp [pc]) ?_ ?_ ?_
    all_goals rw [handleWaitStreamReturn_frame]
  · exact .aside (by rw [pc]; rfl) rfl (by simp [pc]) rfl rfl rfl

end Task

section Steps

variable {past : List SendAttempt} {current : Option (SendCall × List Blob)}
  {lost : List (List UInt8 × Nat)} {l : Label}

theorem transmitted_snoc (trace : List (State × Label)) (s : State) (l : Label) :
    transmitted (trace ++ [(s, l)]) = transmitted trace ++ transmittedBy s l := by
  simp [transmitted]

theorem arrived_snoc (trace : List (State × Label)) (s : State) (l : Label) :
    arrived (trace ++ [(s, l)]) = arrived trace ++ arrivedBy s l := by
  simp [arrived]

theorem queued_snoc (trace : List (State × Label)) (s : State) (l : Label) :
    queued (trace ++ [(s, l)]) = queued trace ++ queuedBy s l := by
  simp [queued]

theorem Orderly.no_frame (orderly : Orderly s) (elsewhere : s.pc.forwards = false) :
    (∀ call ∈ s.sendCalls, call.forwarded = false) ∧
      ∀ sending, s.sending = some sending → sending.forwarded = false := by
  have under := orderly.one
  simp only [elsewhere, State.underWay, Bool.false_eq_true, if_false] at under
  constructor
  · intro call member
    have none_ : s.sendCalls.countP (·.forwarded) = 0 := by omega
    simpa using List.countP_eq_zero.mp none_ call member
  · intro sending is
    have none_ : s.sending.toList.countP (·.forwarded) = 0 := by omega
    simpa using List.countP_eq_zero.mp none_ sending (by simp [is])

theorem Orderly.frame (orderly : Orderly s)
    (mine : (∃ call ∈ s.sendCalls, call.forwarded = true) ∨
      ∃ sending, s.sending = some sending ∧ sending.forwarded = true) :
    s.pc.forwards = true ∧ s.sendStreamReply = none := by
  have under := orderly.one
  have positive : 0 < s.sendCalls.countP (·.forwarded) + s.sending.toList.countP (·.forwarded) := by
    rcases mine with ⟨call, member, forwarded⟩ | ⟨sending, is, forwarded⟩
    · have some_ : 0 < s.sendCalls.countP (·.forwarded) :=
        List.countP_pos_iff.mpr ⟨call, member, forwarded⟩
      omega
    · have some_ : 0 < s.sending.toList.countP (·.forwarded) :=
        List.countP_pos_iff.mpr ⟨sending, by simp [is], forwarded⟩
      omega
  simp only [State.underWay] at under
  cases waits : s.pc.forwards with
  | false =>
    simp only [waits, Bool.false_eq_true, if_false] at under
    omega
  | true =>
    simp only [waits, if_true] at under
    refine ⟨rfl, Option.toList_eq_nil_iff.mp (List.eq_nil_of_length_eq_zero ?_)⟩
    omega

theorem UnderWay.forwarded (now : UnderWay s.sending current) {call : SendCall}
    (member : call ∈ current.map (·.1)) (forwarded : call.forwarded = true) :
    ∃ sending, s.sending = some sending ∧ sending.forwarded = true := by
  generalize is : s.sending = sending at now
  cases now with
  | idle => cases member
  | sends sending call' done all identification same drawn sent part whole =>
    obtain rfl : call' = call := by simpa using member
    exact ⟨sending, rfl, same.trans forwarded⟩

theorem Relays.task (relays : Relays trace s past current lost) (orderly : Orderly s)
    {calls : List SendCall} {taken : List (List UInt8 × Nat)}
    (frames : TaskFrames s t calls taken) (silent : transmittedBy s l = [])
    (nothing : arrivedBy s l = []) (queues : queuedBy s l = calls) :
    ∃ lost, Relays (trace ++ [(s, l)]) t past current lost := by
  have nobody := relays.alive frames.alive
  have arrived_ : arrived trace = past.filterMap SendAttempt.frame ++ s.frameInHand ++ taken ++
      t.receivingChannelRx.map unframed := by
    rw [relays.frames, nobody, frames.channel]
    simp
  have mine : ∀ payload headerSize, t.pc = .sendStreamReply payload headerSize → ∀ call,
      call ∈ t.sendCalls ∨ call ∈ current.map (·.1) → call.forwarded = true →
        call = ⟨payload, headerSize, true⟩ := by
    intro payload headerSize pc call member forwarded
    obtain ⟨elsewhere, one⟩ := frames.asks payload headerSize pc
    obtain ⟨free, idle⟩ := orderly.no_frame elsewhere
    rcases member with member | member
    · rw [frames.queues, one, List.mem_append, List.mem_singleton] at member
      rcases member with old | new
      · rw [free call old] at forwarded
        cases forwarded
      · exact new
    · obtain ⟨sending, is, forwarded'⟩ := relays.now.forwarded member forwarded
      rw [idle sending is] at forwarded'
      cases forwarded'
  have pages : transmitted (trace ++ [(s, l)]) =
      past.flatMap (·.pages) ++ current.toList.flatMap (·.2) := by
    rw [transmitted_snoc, silent, List.append_nil, relays.pages]
  have calls_ : queued (trace ++ [(s, l)]) =
      past.map (·.call) ++ current.toList.map (·.1) ++ t.sendCalls := by
    rw [queued_snoc, queues, relays.calls, frames.queues, List.append_assoc, List.append_assoc]
  rcases frames.hand with same | ⟨panicked, none_⟩
  · refine ⟨[], pages, calls_, relays.fair, frames.sending ▸ relays.now, ?_, by simp, fun _ => rfl,
      mine⟩
    rw [arrived_snoc, nothing, List.append_nil, arrived_, same]
    simp
  · refine ⟨s.frameInHand ++ taken, pages, calls_, relays.fair, frames.sending ▸ relays.now, ?_,
      frames.few, fun alive => absurd panicked alive, mine⟩
    rw [arrived_snoc, nothing, List.append_nil, arrived_, none_]
    simp

theorem Relays.around (relays : Relays trace s past current lost) (pc : t.pc = s.pc)
    (reply : t.sendStreamReply = s.sendStreamReply) (sending : t.sending = s.sending)
    (calls : t.sendCalls = s.sendCalls ++ queuedBy s l)
    (own : ∀ call ∈ queuedBy s l, call.forwarded = false) (silent : transmittedBy s l = [])
    (channel : t.receivingChannelRx.map unframed =
      s.receivingChannelRx.map unframed ++ arrivedBy s l) :
    Relays (trace ++ [(s, l)]) t past current lost := by
  have hand : t.frameInHand = s.frameInHand := by
    unfold State.frameInHand
    rw [pc, reply]
  refine ⟨?_, ?_, relays.fair, sending ▸ relays.now, ?_, relays.one, pc ▸ relays.alive, ?_⟩
  · rw [transmitted_snoc, silent, List.append_nil, relays.pages]
  · rw [queued_snoc, relays.calls, calls, List.append_assoc, List.append_assoc]
  · rw [arrived_snoc, relays.frames, hand, channel]
    simp
  · intro payload headerSize pc' call member forwarded
    rw [pc] at pc'
    refine relays.mine payload headerSize pc' call ?_ forwarded
    rcases member with member | member
    · rw [calls, List.mem_append] at member
      rcases member with old | new
      · exact Or.inl old
      · rw [own call new] at forwarded
        cases forwarded
    · exact Or.inr member

theorem frameInHand_same (pc : t.pc = s.pc) (reply : t.sendStreamReply = s.sendStreamReply) :
    t.frameInHand = s.frameInHand := by
  unfold State.frameInHand
  rw [pc, reply]

theorem frameInHand_answered (waits : s.pc.forwards = true) (notYet : s.sendStreamReply = none)
    (pc : t.pc = s.pc) {result : Except IpcError Unit} (reply : t.sendStreamReply = some result) :
    ∃ payload headerSize, s.pc = .sendStreamReply payload headerSize ∧
      s.frameInHand = [(payload, headerSize)] ∧
      t.frameInHand = if result = .ok () then [] else [(payload, headerSize)] := by
  cases here : s.pc with
  | sendStreamReply payload headerSize =>
    refine ⟨payload, headerSize, rfl, by simp [State.frameInHand, here, notYet], ?_⟩
    rw [here] at pc
    cases result with
    | ok _ => simp [State.frameInHand, pc, reply]
    | error error => simp [State.frameInHand, pc, reply]
  | _ => rw [here] at waits; cases waits

theorem Relays.goesOn (relays : Relays trace s past current lost) {act : SendAct}
    {current' : Option (SendCall × List Blob)} {page : List Blob}
    (one : transmittedBy s (.sendActor act) = page)
    (pages : current'.toList.flatMap (·.2) = current.toList.flatMap (·.2) ++ page)
    (calls : current'.toList.map (·.1) ++ t.sendCalls =
      current.toList.map (·.1) ++ s.sendCalls)
    (now : UnderWay t.sending current') (pc : t.pc = s.pc)
    (reply : t.sendStreamReply = s.sendStreamReply)
    (channel : t.receivingChannelRx = s.receivingChannelRx) :
    Relays (trace ++ [(s, .sendActor act)]) t past current' lost := by
  refine ⟨?_, ?_, relays.fair, now, ?_, relays.one, pc ▸ relays.alive, ?_⟩
  · rw [transmitted_snoc, one, relays.pages, pages, List.append_assoc]
  · have none_ : queuedBy s (.sendActor act) = [] := rfl
    rw [queued_snoc, none_, List.append_nil, relays.calls, List.append_assoc, List.append_assoc,
      calls]
  · have none_ : arrivedBy s (.sendActor act) = [] := rfl
    rw [arrived_snoc, none_, List.append_nil, relays.frames, frameInHand_same pc reply, channel]
  · intro payload headerSize pc' call member forwarded
    rw [pc] at pc'
    refine relays.mine payload headerSize pc' call ?_ forwarded
    have all : call ∈ current'.toList.map (·.1) ++ t.sendCalls := by
      rw [List.mem_append]
      rcases member with member | member
      · exact Or.inr member
      · exact Or.inl (by simpa using member)
    rw [calls, List.mem_append] at all
    rcases all with old | old
    · exact Or.inr (by simpa using old)
    · exact Or.inl old

theorem Relays.ended (relays : Relays trace s past current lost) {act : SendAct}
    {call : SendCall} {pages : List Blob} {result : Except IpcError Unit}
    (silent : transmittedBy s (.sendActor act) = [])
    (done : current.toList.flatMap (·.2) = pages)
    (calls : current.toList.map (·.1) ++ s.sendCalls = call :: t.sendCalls)
    (fair : SendAttempt.Fair ⟨call, pages, result⟩) (idle : t.sending = none)
    (mine : call.forwarded = true → s.pc.forwards = true ∧ s.sendStreamReply = none)
    (pc : t.pc = s.pc)
    (reply : t.sendStreamReply = if call.forwarded then some result else s.sendStreamReply)
    (channel : t.receivingChannelRx = s.receivingChannelRx) :
    Relays (trace ++ [(s, .sendActor act)]) t (past ++ [⟨call, pages, result⟩]) none lost := by
  have ours : ∀ payload headerSize, s.pc = .sendStreamReply payload headerSize → ∀ call',
      call' ∈ call :: t.sendCalls → call'.forwarded = true →
        call' = ⟨payload, headerSize, true⟩ := by
    intro payload headerSize pc' call' member forwarded
    refine relays.mine payload headerSize pc' call' ?_ forwarded
    rw [← calls, List.mem_append] at member
    rcases member with old | old
    · exact Or.inr (by simpa using old)
    · exact Or.inl old
  have hand : s.frameInHand =
      (SendAttempt.frame ⟨call, pages, result⟩).toList ++ t.frameInHand := by
    cases forwarded : call.forwarded with
    | false =>
      rw [forwarded, if_neg (by simp)] at reply
      rw [frameInHand_same pc reply]
      cases result <;> simp [SendAttempt.frame, forwarded]
    | true =>
      rw [forwarded, if_pos rfl] at reply
      obtain ⟨waits, notYet⟩ := mine forwarded
      obtain ⟨payload, headerSize, here, before, after⟩ :=
        frameInHand_answered waits notYet pc reply
      have same := ours payload headerSize here call (by simp) forwarded
      rw [before, after, same]
      cases result with
      | ok _ => simp [SendAttempt.frame]
      | error error => simp [SendAttempt.frame]
  refine ⟨?_, ?_, ?_, ?_, ?_, relays.one, pc ▸ relays.alive, ?_⟩
  · rw [transmitted_snoc, silent, List.append_nil, relays.pages, done]
    simp
  · have none_ : queuedBy s (.sendActor act) = [] := rfl
    rw [queued_snoc, none_, List.append_nil, relays.calls, List.append_assoc, calls]
    simp
  · intro attempt member
    rcases List.mem_append.mp member with old | new
    · exact relays.fair attempt old
    · rw [List.mem_singleton.mp new]
      exact fair
  · rw [idle]
    exact .idle
  · have none_ : arrivedBy s (.sendActor act) = [] := rfl
    rw [arrived_snoc, none_, List.append_nil, relays.frames, hand, channel]
    cases frame : SendAttempt.frame ⟨call, pages, result⟩ <;> simp [frame]
  · intro payload headerSize pc' call' member forwarded
    rw [pc] at pc'
    rcases member with member | member
    · exact ours payload headerSize pc' call' (List.mem_cons_of_mem _ member) forwarded
    · cases member

theorem Relays.sendActor (relays : Relays trace s past current lost) (orderly : Orderly s)
    {act : SendAct} (sends : Sends s t act) (pc : t.pc = s.pc)
    (channel : t.receivingChannelRx = s.receivingChannelRx) :
    ∃ past current, Relays (trace ++ [(s, .sendActor act)]) t past current lost := by
  have now := relays.now
  cases sends with
  | takes call sending identification idle calls is forwarded result drawn sent subscriber reply
      silent nothing =>
    rw [idle] at now
    cases now
    have now' : UnderWay t.sending (some (call, [])) := by
      rw [is]
      exact .sends sending call [] sending.left identification forwarded drawn sent
        (List.Sublist.refl _) (fun _ => rfl)
    exact ⟨past, _, relays.goesOn nothing (by simp) (by simp [calls]) now' pc reply channel⟩
  | rejects call error idle calls done fatal subscriber reply answer nothing =>
    rw [idle] at now
    cases now
    have mine : call.forwarded = true → s.pc.forwards = true ∧ s.sendStreamReply = none := by
      intro forwarded
      exact orderly.frame (Or.inl ⟨call, by simp [calls], forwarded⟩)
    have fair : SendAttempt.Fair ⟨call, [], .error error⟩ := ⟨Or.inl rfl, by simp⟩
    exact ⟨_, _, relays.ended nothing (by simp) (by simp [calls]) fair done mine pc reply
      channel⟩
  | publishes sending page left was pages is calls room subscriber reply silent one =>
    rw [was] at now
    cases now with
    | sends _ call done all identification forwarded drawn sent part whole =>
      have split : done ++ [page] ++ left = done ++ sending.left := by simp [pages]
      have now' : UnderWay t.sending (some (call, done ++ [page])) := by
        rw [is]
        exact .sends _ call (done ++ [page]) all identification forwarded drawn sent
          (split ▸ part) (fun ok => split.trans (whole ok))
      exact ⟨past, _, relays.goesOn one (by simp) (by simp [calls]) now' pc reply channel⟩
  | goesOn sending sending' was is forwarded left calls subscriber reply silent less nothing =>
    rw [was] at now
    cases now with
    | sends _ call done all identification forwarded' drawn sent part whole =>
      have now' : UnderWay t.sending (some (call, done)) := by
        rw [is]
        refine .sends sending' call done all identification (forwarded.trans forwarded') drawn sent
          (((List.Sublist.refl done).append less).trans part) ?_
        intro ok
        obtain ⟨ok', same⟩ := left ok
        rw [same]
        exact whole ok'
      exact ⟨past, _, relays.goesOn nothing (by simp) (by simp [calls]) now' pc reply channel⟩
  | ends sending result was done calls subscriber reply answer how nothing =>
    rw [was] at now
    cases now with
    | sends _ call pages all identification forwarded drawn sent part whole =>
      have mine : call.forwarded = true → s.pc.forwards = true ∧ s.sendStreamReply = none := by
        intro mine
        exact orderly.frame (Or.inr ⟨sending, was, forwarded.trans mine⟩)
      have fair : SendAttempt.Fair ⟨call, pages, result⟩ := by
        refine ⟨Or.inr ⟨identification, all, drawn, sent, ?_⟩, ?_⟩
        · exact (List.sublist_append_left pages sending.left).trans part
        · intro ok
          obtain ⟨ok', left⟩ := how ok
          have same := whole ok'
          rw [left, List.append_nil] at same
          exact ⟨identification, drawn, same ▸ sent⟩
      rw [forwarded] at reply
      exact ⟨_, _, relays.ended nothing (by simp) (by simp [calls]) fair done mine pc reply
        channel⟩

theorem Relays.step (relays : Relays trace s past current lost) (orderly : Orderly s)
    (move : next shouldCollect s l = some t) :
    ∃ past current lost, Relays (trace ++ [(s, l)]) t past current lost := by
  cases l with
  | passes time =>
    cases move
    exact ⟨past, current, lost, relays.around rfl rfl rfl (by simp [queuedBy])
      (by simp [queuedBy]) rfl (by simp [arrivedBy])⟩
  | proceeds =>
    obtain ⟨taken, frames⟩ := proceeds_frames orderly move
    exact ⟨past, current, relays.task orderly frames rfl rfl rfl⟩
  | wakes backing => exact ⟨past, current, relays.task orderly (wakes_frames move) rfl rfl rfl⟩
  | recvActor act =>
    refine ⟨past, current, lost, ?_⟩
    have moved : t.pc = s.pc ∧ t.sendStreamReply = s.sendStreamReply ∧ t.sending = s.sending ∧
        t.sendCalls = s.sendCalls ∧ t.receivingChannelRx = s.receivingChannelRx := by
      cases recvActor_cases move with
      | page reply calls less frame =>
        rw [frame]
        exact ⟨rfl, rfl, rfl, rfl, rfl⟩
      | wait reply calls iox2 frame =>
        rw [frame]
        exact ⟨rfl, rfl, rfl, rfl, rfl⟩
    obtain ⟨pc, reply, sending, calls, channel⟩ := moved
    exact relays.around pc reply sending (by simp [queuedBy, calls]) (by simp [queuedBy]) rfl
      (by simp [arrivedBy, channel])
  | sendActor act =>
    have frame := sendActor_frame move
    have pc : t.pc = s.pc := by rw [frame]
    have channel : t.receivingChannelRx = s.receivingChannelRx := by rw [frame]
    obtain ⟨past', current', relays'⟩ := relays.sendActor orderly (sendActor_spec move) pc channel
    exact ⟨past', current', lost, relays'⟩
  | queues payload headerSize =>
    simp only [next, State.queues] at move
    split at move <;> cases move
    exact ⟨past, current, lost, relays.around rfl rfl rfl rfl (by simp [queuedBy]) rfl
      (by simp [arrivedBy])⟩
  | client c act =>
    refine ⟨past, current, lost, ?_⟩
    cases client_cases move with
    | forwards backlog frame here room =>
      exact relays.around rfl rfl rfl (by simp [queuedBy]) (by simp [queuedBy]) rfl
        (by simp [arrivedBy, here])
    | _ =>
      exact relays.around rfl rfl rfl (by simp [queuedBy]) (by simp [queuedBy]) rfl
        (by simp [arrivedBy])
  | mesh act =>
    refine ⟨past, current, lost, ?_⟩
    cases act with
    | notifies =>
      cases move
      exact relays.around rfl rfl rfl (by simp [queuedBy]) (by simp [queuedBy]) rfl
        (by simp [arrivedBy])
    | publishes page =>
      simp only [next, State.mesh] at move
      split at move <;> cases move
      exact relays.around rfl rfl rfl (by simp [queuedBy]) (by simp [queuedBy]) rfl
        (by simp [arrivedBy])

end Steps

/-- In every run the attempts of the send actor come one after another, each with pages of its
    call only, and in the order in which the receiver task and the other threads have made their
    calls; and the frames that were sent in full are the first that arrived, in that order. -/
theorem relayed_in_order (run : Runs shouldCollect trace s) :
    ∃ past current lost, Relays trace s past current lost := by
  have both : (∃ past current lost, Relays trace s past current lost) ∧ Orderly s := by
    induction run with
    | nil first =>
      subst first
      refine ⟨⟨[], none, [], ?_⟩, Orderly.init⟩
      refine ⟨rfl, rfl, by simp, .idle, rfl, by simp, fun _ => rfl, ?_⟩
      intro payload headerSize pc
      cases pc
    | snoc before move ih =>
      obtain ⟨⟨past, current, lost, relays⟩, orderly⟩ := ih
      exact ⟨relays.step orderly move, orderly.step move⟩
  exact both.1

/-- A frame is sent again after a notification has failed, with the call of another thread between
    the two attempts. -/
theorem relayed_in_order_again : ∃ trace s, Runs (fun _ => true) trace s ∧
    arrived trace = [([1], 0)] ∧ s.frameInHand = [] ∧ s.receivingChannelRx = [] ∧
    (queued trace).map (·.forwarded) = [true, false, true] ∧ (transmitted trace).length = 3 ∧
    ∃ past current lost, Relays trace s past current lost := by
  obtain ⟨trace, s, run, computed⟩ := execute_run (next fun _ => true) init
    (sendsFrame [1, 0, 0, 0, 0, 0, 0, 0, 0] ++ looks ++
      [.queues [2] 0, .sendActor (.takes 1), .sendActor .publishes, .sendActor .notifyFails,
        .sendActor (.takes 2), .sendActor .publishes, .sendActor .notifies, .proceeds, .proceeds,
        .sendActor (.takes 3), .sendActor .publishes, .sendActor .notifies])
    (fun trace s => arrived trace = [([1], 0)] ∧ s.frameInHand = [] ∧
      s.receivingChannelRx = [] ∧ (queued trace).map (·.forwarded) = [true, false, true] ∧
      (transmitted trace).length = 3)
    (by decide +kernel)
  obtain ⟨arrived_, hand, channel, queued_, pages⟩ := computed
  exact ⟨trace, s, run, arrived_, hand, channel, queued_, pages, relayed_in_order run⟩

end Combined
