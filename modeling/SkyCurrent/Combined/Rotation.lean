import SkyCurrent.Combined.Steps

/- One call of try_recv_stream of backing/combined.rs from its start to its end, while nobody
   else acts: which backings are asked, in which order, and what it makes of their answers. -/
namespace Combined

open Iox2 (TryRecvStreamResult)
open Runs

structure Slot where
  current : Backing
  entered : Nat
  deriving DecidableEq, Repr

/-- How the for loop is left: with a message of the mesh, with a frame of a websocket client
    that is sent on before PotentiallyAvailable is returned, or with a result or an error. -/
inductive Returned where
  | newCompleted (payload : List UInt8) (headerSize : Nat)
  | unframes (frame : List UInt8)
  | potentiallyAvailable
  | outOfAccessible
  | fails (error : IpcError)
  deriving DecidableEq, Repr

structure Call where
  returned : Returned
  asked : List Backing
  slot : Slot
  deriving DecidableEq, Repr

def State.firstSlot (s : State) : Slot :=
  match s.currentBacking with
  | none => ⟨.iox2, s.now⟩
  | some backing => if s.now - s.entered > slot then ⟨backing.next, s.now⟩ else ⟨backing, s.entered⟩

def drained (locks : Backing → Bool) : List (Except IpcError Backing) →
    Except IpcError (Backing → Bool)
  | [] => .ok locks
  | .error error :: _ => .error error
  | .ok backing :: replies => drained (Function.update locks backing false) replies

def State.answers (shouldCollect : List UInt8 → Bool) (fault : Option IpcError) (s : State) :
    Backing → Except IpcError TryRecvStreamResult
  | .iox2 =>
    match fault with
    | some error => .error error
    | none =>
      match Iox2.tryRecvStream shouldCollect s.mergeAllocs s.subscriber.head? with
      | none => .error .backingCrashedOrNotStarted
      | some (result, _) => .ok result
  | .wsGateway =>
    match s.receivingChannelRx with
    | [] => .ok .outOfAccessible
    | frame :: _ => .ok (.newCompleted (frame, 0))

def Returned.ofMessage (message : List UInt8 × Nat) : Backing → Returned
  | .iox2 => .newCompleted message.1 message.2
  | .wsGateway => .unframes message.1

/-- The for loop. It goes on only from a backing that had nothing, so that no question changes
    what a later one finds. -/
def tryBackings (answers : Backing → Except IpcError TryRecvStreamResult)
    (locks : Backing → Bool) (now : Nat) : Nat → Slot → List Backing → Call
  | 0, slot, asked => ⟨.outOfAccessible, asked, slot⟩
  | left + 1, slot, asked =>
    if locks slot.current then tryBackings answers locks now left slot asked
    else
      match answers slot.current with
      | .error error => ⟨.fails error, asked ++ [slot.current], slot⟩
      | .ok (.newCompleted message) =>
        ⟨.ofMessage message slot.current, asked ++ [slot.current], slot⟩
      | .ok .potentiallyAvailable => ⟨.potentiallyAvailable, asked ++ [slot.current], slot⟩
      | .ok .outOfAccessible =>
        tryBackings answers locks now left ⟨slot.current.next, now⟩ (asked ++ [slot.current])

def State.tryRecvStream (shouldCollect : List UInt8 → Bool) (fault : Option IpcError)
    (s : State) : Call :=
  match drained s.waitStreamLocks s.waitStreamReceiver with
  | .error error => ⟨.fails error, [], s.firstSlot⟩
  | .ok locks => tryBackings (s.answers shouldCollect fault) locks s.now 2 s.firstSlot []

def State.Empty (s : State) : Backing → Prop
  | .iox2 => s.subscriber = []
  | .wsGateway => s.receivingChannelRx = []

/-- No backing is asked twice, none while it is blocked, and the call gives up only when every
    other one was asked and had nothing. -/
structure Thorough (s : State) (locks : Backing → Bool) (call : Call) : Prop where
  once : call.asked.Nodup
  free : ∀ b ∈ call.asked, locks b = false
  exhausted : call.returned = .outOfAccessible → ∀ b, locks b = false → b ∈ call.asked ∧ s.Empty b

/-- The call does not start on a blocked backing while the other one is free. -/
def StartsFree (s : State) (locks : Backing → Bool) : Prop :=
  locks s.firstSlot.current = true → locks s.firstSlot.current.next = true

variable {shouldCollect : List UInt8 → Bool} {fault : Option IpcError} {s : State}
  {locks : Backing → Bool}

theorem Backing.next_ne (b : Backing) : b.next ≠ b := by
  cases b <;> simp [Backing.next]

theorem Backing.eq_or_next (b c : Backing) : c = b ∨ c = b.next := by
  cases b <;> cases c <;> simp [Backing.next]

theorem subscriber_empty {allocations : Iox2.MergeAllocs}
    (nothing : Iox2.tryRecvStream shouldCollect s.mergeAllocs s.subscriber.head? =
      some (.outOfAccessible, allocations)) :
    s.subscriber = [] ∧ allocations = s.mergeAllocs := by
  cases pages : s.subscriber with
  | nil =>
    rw [pages, List.head?_nil] at nothing
    simp only [Iox2.tryRecvStream, Option.some.injEq, Prod.mk.injEq, true_and] at nothing
    exact ⟨rfl, nothing.symm⟩
  | cons page rest =>
    rw [pages, List.head?_cons] at nothing
    unfold Iox2.tryRecvStream at nothing
    cases received : Iox2.receivePage shouldCollect s.mergeAllocs page with
    | none => simp [received] at nothing
    | some outcome =>
      obtain ⟨message, allocations⟩ := outcome
      cases message <;> simp [received] at nothing

theorem empty_of_answer {b : Backing}
    (answer : s.answers shouldCollect fault b = .ok .outOfAccessible) : s.Empty b := by
  cases b with
  | iox2 =>
    simp only [State.answers] at answer
    split at answer
    · cases answer
    · split at answer
      · cases answer
      · rename_i result allocations received
        cases answer
        exact (subscriber_empty received).1
  | wsGateway =>
    simp only [State.answers] at answer
    split at answer
    · assumption
    · cases answer

section Loop

variable {answers : Backing → Except IpcError TryRecvStreamResult} {now : Nat}

theorem tryBackings_blocked {slot : Slot} (blocked : locks slot.current = true) (left : Nat)
    (asked : List Backing) :
    tryBackings answers locks now left slot asked = ⟨.outOfAccessible, asked, slot⟩ := by
  induction left with
  | zero => rfl
  | succ left ih => rw [tryBackings, if_pos blocked, ih]

theorem tryBackings_free (slot : Slot) (free : locks slot.current = false) (left : Nat)
    (asked : List Backing) :
    (∃ returned, returned ≠ .outOfAccessible ∧
      tryBackings answers locks now (left + 1) slot asked =
        ⟨returned, asked ++ [slot.current], slot⟩) ∨
    answers slot.current = .ok .outOfAccessible ∧
      tryBackings answers locks now (left + 1) slot asked =
        tryBackings answers locks now left ⟨slot.current.next, now⟩ (asked ++ [slot.current]) := by
  rw [tryBackings, if_neg (by simp [free])]
  cases answer : answers slot.current with
  | error error => exact Or.inl ⟨_, by simp, rfl⟩
  | ok result =>
    cases result with
    | newCompleted message =>
      refine Or.inl ⟨_, ?_, rfl⟩
      cases slot.current <;> simp [Returned.ofMessage]
    | potentiallyAvailable => exact Or.inl ⟨_, by simp, rfl⟩
    | outOfAccessible => exact Or.inr ⟨rfl, rfl⟩

end Loop

theorem thorough_of_free (free : locks s.firstSlot.current = false) :
    Thorough s locks
      (tryBackings (s.answers shouldCollect fault) locks s.now 2 s.firstSlot []) := by
  generalize s.firstSlot = slot at free
  rcases tryBackings_free slot free 1 [] with ⟨returned, other, done⟩ | ⟨empty, goesOn⟩
  · rw [done]
    exact ⟨by simp, by simpa using free, fun given => absurd given other⟩
  · rw [goesOn]
    have first := empty_of_answer empty
    have apart := Backing.next_ne slot.current
    cases second : locks slot.current.next with
    | true =>
      rw [tryBackings_blocked second]
      refine ⟨by simp, by simpa using free, fun _ b unblocked => ?_⟩
      rcases Backing.eq_or_next slot.current b with rfl | rfl
      · exact ⟨by simp, first⟩
      · rw [second] at unblocked
        cases unblocked
    | false =>
      rcases tryBackings_free ⟨slot.current.next, s.now⟩ second 0 ([] ++ [slot.current])
        with ⟨returned, other, done⟩ | ⟨empty', goesOn'⟩
      · rw [done]
        refine ⟨by simpa using apart.symm, ?_, fun given => absurd given other⟩
        simp [free, second]
      · rw [goesOn']
        refine ⟨by simpa [tryBackings] using apart.symm, by simp [tryBackings, free, second], ?_⟩
        intro _ b _
        rcases Backing.eq_or_next slot.current b with rfl | rfl
        · exact ⟨by simp [tryBackings], first⟩
        · exact ⟨by simp [tryBackings], empty_of_answer empty'⟩

section Steps

def Goes (shouldCollect : List UInt8 → Bool) : State → State → Prop :=
  Relation.ReflTransGen fun s t =>
    next shouldCollect s .proceeds = some t ∨ next shouldCollect s (.recvActor .answers) = some t

def Returned.pc : Returned → Pc
  | .newCompleted payload headerSize => .sendCopy payload headerSize
  | .unframes frame => (init.unframes frame).pc
  | .potentiallyAvailable => .tryRecvStream
  | .outOfAccessible => .waitStream
  | .fails error => if error.receiverRetries then .betweenCalls else .panicked

theorem Goes.proceeds {t u : State} (move : s.proceeds = some t)
    (goes : Goes shouldCollect t u) : Goes shouldCollect s u :=
  goes.head (Or.inl move)

theorem Goes.answers {t u : State} (move : s.recvActor shouldCollect .answers = some t)
    (goes : Goes shouldCollect t u) : Goes shouldCollect s u :=
  goes.head (Or.inr move)

theorem unframes_pc (frame : List UInt8) : (s.unframes frame).pc = (init.unframes frame).pc := by
  unfold State.unframes
  split <;> rfl

theorem tryBackings_goes (left : Nat) : ∀ {s : State} (slot : Slot) (asked : List Backing),
    s.pc = .tries left → s.currentBacking = some slot.current → s.tryRecvReply = none →
    (s.waitStreamLocks .iox2 = false → s.recvCalls = []) →
    ∃ t, Goes shouldCollect s t ∧ t.pc = (tryBackings (s.answers shouldCollect none)
      s.waitStreamLocks s.now left slot asked).returned.pc := by
  induction left with
  | zero =>
    intro s slot asked pc _ _ _
    exact ⟨{ s with pc := .waitStream },
      .proceeds (by simp [State.proceeds, pc, State.tries]) .refl, rfl⟩
  | succ left ih =>
    intro s slot asked pc current reply idle
    by_cases blocked : s.waitStreamLocks slot.current = true
    · have skips : s.proceeds = some { s with pc := .tries left } := by
        simp [State.proceeds, pc, State.tries, current, blocked]
      obtain ⟨t, goes, done⟩ :=
        ih (s := { s with pc := .tries left }) slot asked rfl current reply idle
      refine ⟨t, goes.proceeds skips, ?_⟩
      rw [tryBackings, if_pos blocked]
      exact done
    · rw [tryBackings, if_neg blocked]
      cases backing : slot.current with
      | iox2 =>
        rw [backing] at blocked current
        have none_ := idle (Bool.eq_false_iff.mpr blocked)
        have asks : s.proceeds = some { s with
            recvCalls := [.tryRecvStream], pc := .tryRecvReply left } := by
          simp [State.proceeds, pc, State.tries, current, blocked, none_, channelCapacity]
        cases received : Iox2.tryRecvStream shouldCollect s.mergeAllocs s.subscriber.head? with
        | none =>
          have replies : State.recvActor shouldCollect { s with
              recvCalls := [.tryRecvStream], pc := .tryRecvReply left } .answers = some { s with
              recvCalls := [], pc := .tryRecvReply left
              tryRecvReply := some (.error .backingCrashedOrNotStarted) } := by
            simp [State.recvActor, received]
          refine ⟨_, .proceeds asks (.answers replies (.proceeds rfl .refl)), ?_⟩
          simp [State.answers, received, State.hears, State.fails, Returned.pc]
        | some outcome =>
          obtain ⟨result, allocations⟩ := outcome
          have replies : State.recvActor shouldCollect { s with
              recvCalls := [.tryRecvStream], pc := .tryRecvReply left } .answers = some { s with
              recvCalls := [], pc := .tryRecvReply left, tryRecvReply := some (.ok result)
              subscriber := s.subscriber.tail, mergeAllocs := allocations } := by
            simp [State.recvActor, received]
          cases result with
          | newCompleted message =>
            refine ⟨_, .proceeds asks (.answers replies (.proceeds rfl .refl)), ?_⟩
            simp [State.answers, received, State.hears, Returned.pc, Returned.ofMessage]
          | potentiallyAvailable =>
            refine ⟨_, .proceeds asks (.answers replies (.proceeds rfl .refl)), ?_⟩
            simp [State.answers, received, State.hears, Returned.pc]
          | outOfAccessible =>
            obtain ⟨empty, rfl⟩ := subscriber_empty received
            have kept : s.subscriber.tail = s.subscriber := by
              rw [empty]
              rfl
            rw [kept] at replies
            obtain ⟨t, goes, done⟩ := ih (s := { s with
              recvCalls := [], pc := .tries left, tryRecvReply := none
              currentBacking := some .wsGateway, entered := s.now })
              ⟨.wsGateway, s.now⟩ (asked ++ [.iox2]) rfl rfl rfl fun _ => rfl
            refine ⟨t, .proceeds asks (.answers replies (.proceeds rfl goes)), ?_⟩
            have nothing : s.answers shouldCollect none .iox2 = .ok .outOfAccessible := by
              simp [State.answers, received]
            rw [nothing]
            exact done
      | wsGateway =>
        rw [backing] at blocked current
        cases frames : s.receivingChannelRx with
        | nil =>
          have asks : s.proceeds = some { s with
              currentBacking := some .iox2, entered := s.now, pc := .tries left } := by
            simp [State.proceeds, pc, State.tries, current, blocked, frames, State.triesNext,
              Backing.next]
          obtain ⟨t, goes, done⟩ := ih (s := { s with
            currentBacking := some .iox2, entered := s.now, pc := .tries left })
            ⟨.iox2, s.now⟩ (asked ++ [.wsGateway]) rfl rfl reply idle
          refine ⟨t, goes.proceeds asks, ?_⟩
          have nothing : s.answers shouldCollect none .wsGateway = .ok .outOfAccessible := by
            simp [State.answers, frames]
          rw [nothing]
          exact done
        | cons frame rest =>
          have takes :
              s.proceeds = some ({ s with receivingChannelRx := rest }.unframes frame) := by
            simp [State.proceeds, pc, State.tries, current, blocked, frames]
          refine ⟨_, .proceeds takes .refl, ?_⟩
          rw [unframes_pc]
          simp [State.answers, frames, Returned.pc, Returned.ofMessage]

theorem startsOn_slot : s.startsOn = { s with
    currentBacking := some s.firstSlot.current, entered := s.firstSlot.entered } := by
  unfold State.startsOn State.firstSlot
  cases current : s.currentBacking with
  | none => rfl
  | some backing =>
    simp only
    split
    · rfl
    · rw [← current]

theorem drain_goes (pc : s.pc = .drain) :
    ∃ t, Goes shouldCollect s t ∧
      match drained s.waitStreamLocks s.waitStreamReceiver with
      | .error error => t.pc = (Returned.fails error).pc
      | .ok locks => t = { s with
          pc := .tries 2, waitStreamReceiver := [], waitStreamLocks := locks } := by
  generalize replies : s.waitStreamReceiver = waiting
  induction waiting generalizing s with
  | nil =>
    have leaves : s.proceeds = some { s with pc := .tries 2 } := by
      simp [State.proceeds, pc, State.drains, replies]
    refine ⟨{ s with pc := .tries 2 }, .proceeds leaves .refl, ?_⟩
    rw [drained, ← replies]
  | cons reply waiting ih =>
    have takes : s.proceeds = some ({ s with waitStreamReceiver := waiting }.handleWaitStreamReturn
        reply .drain) := by
      simp [State.proceeds, pc, State.drains, replies]
    cases reply with
    | error error => exact ⟨_, .proceeds takes .refl, rfl⟩
    | ok backing =>
      obtain ⟨t, goes, done⟩ := ih (s := { s with
        pc := .drain
        waitStreamReceiver := waiting
        waitStreamLocks := Function.update s.waitStreamLocks backing false }) rfl rfl
      exact ⟨t, .proceeds takes goes, done⟩

theorem tryRecvStream_goes (pc : s.pc = .tryRecvStream) (reply : s.tryRecvReply = none)
    (idle : ∀ locks, drained s.waitStreamLocks s.waitStreamReceiver = .ok locks →
      locks .iox2 = false → s.recvCalls = []) :
    ∃ t, Goes shouldCollect s t ∧ t.pc = (s.tryRecvStream shouldCollect none).returned.pc := by
  have starts : s.proceeds = some { s with
      currentBacking := some s.firstSlot.current, entered := s.firstSlot.entered
      pc := .drain } := by
    simp [State.proceeds, pc, startsOn_slot]
  obtain ⟨t, goes, done⟩ := @drain_goes shouldCollect { s with
    currentBacking := some s.firstSlot.current, entered := s.firstSlot.entered
    pc := .drain } rfl
  unfold State.tryRecvStream
  simp only at done
  cases drains : drained s.waitStreamLocks s.waitStreamReceiver with
  | error error =>
    rw [drains] at done
    exact ⟨t, goes.proceeds starts, done⟩
  | ok locks =>
    rw [drains] at done
    subst done
    obtain ⟨u, loops, done⟩ := tryBackings_goes 2 (s := { s with
      currentBacking := some s.firstSlot.current, entered := s.firstSlot.entered
      pc := .tries 2, waitStreamReceiver := [], waitStreamLocks := locks }) s.firstSlot [] rfl rfl
      reply (idle locks drains)
    exact ⟨u, (goes.proceeds starts).trans loops, done⟩

end Steps

/-- try_recv_stream gives up only when there is nothing if and only if it does not start on a
    blocked backing while the other one is free. -/
theorem gives_up_iff (calls : drained s.waitStreamLocks s.waitStreamReceiver = .ok locks) :
    Thorough s locks (s.tryRecvStream shouldCollect fault) ↔ StartsFree s locks := by
  unfold State.tryRecvStream
  rw [calls]
  cases first : locks s.firstSlot.current with
  | false =>
    constructor
    · intro _ blocked
      rw [first] at blocked
      cases blocked
    · intro _
      exact thorough_of_free first
  | true =>
    simp only [tryBackings_blocked first]
    constructor
    · intro thorough _
      by_contra free
      have asked := (thorough.exhausted rfl _ (Bool.eq_false_iff.mpr free)).1
      simp at asked
    · intro startsFree
      refine ⟨List.nodup_nil, by simp, fun _ b free => ?_⟩
      rcases Backing.eq_or_next s.firstSlot.current b with rfl | rfl
      · rw [first] at free
        cases free
      · rw [startsFree first] at free
        cases free

/-- The slot of iox2 has run out and the gateway is asked first; iox2, which is blocked, is not. -/
theorem gives_up_next_slot : ∃ s : State, s.waitStreamLocks .iox2 = true ∧
    (s.tryRecvStream (fun _ => true) none).asked = [.wsGateway] ∧
    Thorough s s.waitStreamLocks (s.tryRecvStream (fun _ => true) none) := by
  let s : State := { init with
    now := Combined.slot + 1
    currentBacking := some .iox2
    waitStreamLocks := fun b => b == .iox2 }
  exact ⟨s, rfl, by decide, (gives_up_iff (s := s) rfl).mpr (by unfold StartsFree; decide)⟩

/-- A frame is there, but the slot belongs to iox2, which is blocked. -/
theorem gives_up_early : ∃ s : State, s.receivingChannelRx = [[1]] ∧
    s.waitStreamLocks .wsGateway = false ∧
    s.tryRecvStream (fun _ => true) none = ⟨.outOfAccessible, [], ⟨.iox2, 0⟩⟩ ∧
    ¬ Thorough s s.waitStreamLocks (s.tryRecvStream (fun _ => true) none) := by
  let s : State := { init with
    currentBacking := some .iox2
    receivingChannelRx := [[1]]
    waitStreamLocks := fun b => b == .iox2 }
  refine ⟨s, rfl, rfl, rfl, fun thorough => ?_⟩
  have asked := (thorough.exhausted rfl .wsGateway rfl).1
  simp [s, State.tryRecvStream, drained, tryBackings, State.firstSlot, init] at asked

end Combined
