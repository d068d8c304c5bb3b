import SkyCurrent.Combined.Retries
import SkyCurrent.Gateway.Trip

/- What a binary frame of a websocket client makes of the thread that receives. The gateway
   hands on whatever bytes the client has sent; the branch of try_recv_stream in
   backing/combined.rs takes the trailer off and gives the rest to send_stream. -/
namespace Gateway

open ByteBuffer
open Combined (Event IpcError iox2SendStream sendWhole sendFragment sendFragments)
open Iox2 (Blob Message presetN)

/-- How the branch ends: it returns PotentiallyAvailable, with what it has forwarded and the
    pages that were published for it, or the thread panics. -/
inductive Outcome where
  | returns (forwarded : Option (List UInt8 × Nat)) (published : List Blob)
  | panics

/-- The loop around send_stream. Each call draws an identification; three errors of iceoryx2
    are tried again, every other error is a panic. It is `none` while the loop goes on. -/
def sendsOn (payload : List UInt8) (headerSize : Nat) : List UInt64 → List Event → Option Outcome
  | [], _ => none
  | identification :: identifications, events => do
    match Iox2.sendStream payload headerSize identification with
    | none => some .panics
    | some _ =>
      let attempt ← iox2SendStream payload headerSize identification events
      match attempt.result with
      | .ok _ => some (.returns (some (payload, headerSize)) attempt.published)
      | .error error =>
        if error.senderRetries then sendsOn payload headerSize identifications attempt.events
        else some .panics

def wsGatewayBranch (frame : List UInt8) (identifications : List UInt64) (events : List Event) :
    Option Outcome :=
  match unframe frame with
  | none => some .panics
  | some (payload, headerSize) => sendsOn payload headerSize identifications events

def Survives (frame : List UInt8) : Outcome → Prop
  | .panics => False
  | .returns none _ => True
  | .returns (some forwarded) _ => unframe frame = some forwarded

/-- A trailer is there, the header it announces lies inside the payload, and if the payload
    needs more than one page the header leaves room for a chunk. -/
def Forwardable (frame : List UInt8) : Prop :=
  8 ≤ frame.length ∧
    decode (frame.drop (frame.length - 8)) ≤ frame.length - 8 ∧
    (frame.length - 8 ≤ presetN - 8 - 8 - 8 ∨
      8 + 8 + 8 + 8 + decode (frame.drop (frame.length - 8)) < presetN)

instance (frame : List UInt8) : Decidable (Forwardable frame) :=
  inferInstanceAs (Decidable (_ ∧ _ ∧ (_ ∨ _)))

def successes : Nat → List Event
  | 0 => []
  | n + 1 => .published :: .notified :: successes n

section Branch

variable {payload : List UInt8} {headerSize : Nat}

theorem sendWhole_succeeds (data : Blob) (n : Nat) (rest : List Event) :
    sendWhole data (successes (n + 1) ++ rest) = some ⟨.ok (), [data], successes n ++ rest⟩ :=
  rfl

theorem sendFragments_succeeds (pages : List Blob) (n : Nat) (rest : List Event) :
    sendFragments pages (successes (pages.length + n) ++ rest) =
      some ⟨.ok (), pages, successes n ++ rest⟩ := by
  induction pages with
  | nil => simp [sendFragments]
  | cons page pages ih =>
    have longer : (page :: pages).length + n = (pages.length + n) + 1 := by
      simp only [List.length_cons]
      omega
    rw [longer]
    simp [successes, sendFragments, sendFragment, Combined.notify, ih]

theorem accepted_pages {identification : UInt64}
    (accepted : (Message.mk payload headerSize identification).Accepted) :
    Iox2.sendStream payload headerSize identification =
      some (.ok (Message.mk payload headerSize identification).pages) := by
  obtain ⟨pages, sent⟩ := accepted
  have sent' : Iox2.sendStream payload headerSize identification = some (.ok pages) := sent
  simp [Message.pages, sent']

theorem page_bound {identification : UInt64}
    (accepted : (Message.mk payload headerSize identification).Accepted) :
    (Message.mk payload headerSize identification).pages.length ≤ payload.length + 8 := by
  rw [accepted.page_count]
  split
  · obtain ⟨_, ⟨short, _⟩ | ⟨cut, _⟩⟩ := accepted.pages_spec
    · contradiction
    · have positive := cut.size_positive
      obtain ⟨some_, whole⟩ := cut.count
      have last := cut.last_bounds
      have least := Nat.le_mul_of_pos_right
        ((Message.mk payload headerSize identification).numChunks - 1) positive
      simp only at whole
      omega
  · omega

theorem iox2SendStream_succeeds {identification : UInt64}
    (accepted : (Message.mk payload headerSize identification).Accepted) :
    ∃ rest, iox2SendStream payload headerSize identification (successes (payload.length + 8)) =
      some ⟨.ok (), (Message.mk payload headerSize identification).pages, rest⟩ := by
  have bound := page_bound accepted
  have sends := accepted_pages accepted
  obtain ⟨n, enough⟩ := Nat.exists_eq_add_of_le bound
  by_cases short : payload.length ≤ presetN - 8 - 8 - 8
  · obtain ⟨_, ⟨_, data, one, _⟩ | ⟨cut, _⟩⟩ := accepted.pages_spec
    · have whole := sendWhole_succeeds data (payload.length + 7) []
      rw [List.append_nil] at whole
      refine ⟨successes (payload.length + 7), ?_⟩
      simp [iox2SendStream, sends, short, one, whole]
    · exact absurd cut.long (Nat.not_lt.mpr short)
  · have all := sendFragments_succeeds (Message.mk payload headerSize identification).pages n []
    rw [List.append_nil, List.append_nil, ← enough] at all
    exact ⟨successes n, by simp [iox2SendStream, sends, short, all]⟩

theorem iox2SendStream_rejected {identification : UInt64}
    (rejected : ¬ (Message.mk payload headerSize identification).Accepted) (events : List Event) :
    ∃ error, Iox2.sendStream payload headerSize identification = some (.error error) ∧
      iox2SendStream payload headerSize identification events =
        some ⟨.error (.rejected error), [], events⟩ := by
  rw [Message.accepted_iff] at rejected
  have sends : ∃ error, Iox2.sendStream payload headerSize identification =
      some (.error error) := by
    unfold Iox2.sendStream
    by_cases outside : headerSize > payload.length
    · exact ⟨_, if_pos outside⟩
    · rw [if_neg outside]
      by_cases short : payload.length ≤ presetN - 8 - 8 - 8
      · exact absurd ⟨Nat.le_of_not_lt outside, fun long => absurd short (Nat.not_le.mpr long)⟩
          rejected
      · rw [if_neg short]
        by_cases room : 8 + 8 + 8 + 8 + headerSize < presetN
        · exact absurd ⟨Nat.le_of_not_lt outside, fun _ => room⟩ rejected
        · exact ⟨_, if_pos (Nat.le_of_not_lt room)⟩
  obtain ⟨error, sends⟩ := sends
  exact ⟨error, sends, by simp [iox2SendStream, sends]⟩

theorem forwardable_iff {frame : List UInt8} (identification : UInt64) :
    Forwardable frame ↔ ∃ payload headerSize, unframe frame = some (payload, headerSize) ∧
      frame.length = payload.length + 8 ∧
      (Message.mk payload headerSize identification).Accepted := by
  unfold unframe
  by_cases trailer : frame.length < 8
  · simp [Forwardable, trailer, Nat.not_le.mpr trailer]
  · have length : (frame.take (frame.length - 8)).length = frame.length - 8 := by simp
    have whole : frame.length = frame.length - 8 + 8 := by omega
    simp only [Forwardable, trailer, if_false, Option.some.injEq, Prod.mk.injEq]
    constructor
    · intro ⟨_, inside, room⟩
      refine ⟨_, _, ⟨rfl, rfl⟩, by rw [length]; exact whole, Message.accepted_iff.mpr ⟨?_, ?_⟩⟩
      · simp only [length]
        exact inside
      · intro long
        have long' : presetN - 8 - 8 - 8 < frame.length - 8 := length ▸ long
        exact room.resolve_left (Nat.not_le.mpr long')
    · rintro ⟨payload, headerSize, ⟨rfl, rfl⟩, _, accepted⟩
      obtain ⟨inside, room⟩ := Message.accepted_iff.mp accepted
      simp only [length] at inside
      refine ⟨Nat.le_of_not_lt trailer, inside, ?_⟩
      by_cases short : frame.length - 8 ≤ presetN - 8 - 8 - 8
      · exact Or.inl short
      · refine Or.inr (room ?_)
        change _ < (frame.take (frame.length - 8)).length
        rw [length]
        exact Nat.lt_of_not_le short

theorem branch_forwards {frame : List UInt8} (forwardable : Forwardable frame)
    (identification : UInt64) (identifications : List UInt64) :
    ∃ payload headerSize, unframe frame = some (payload, headerSize) ∧
      wsGatewayBranch frame (identification :: identifications) (successes frame.length) =
        some (.returns (some (payload, headerSize))
          (Message.mk payload headerSize identification).pages) := by
  obtain ⟨payload, headerSize, framed, length, accepted⟩ :=
    (forwardable_iff identification).mp forwardable
  obtain ⟨rest, attempt⟩ := iox2SendStream_succeeds accepted
  refine ⟨payload, headerSize, framed, ?_⟩
  simp [wsGatewayBranch, framed, sendsOn, accepted_pages accepted, length, attempt]

theorem branch_panics {frame : List UInt8} (other : ¬ Forwardable frame)
    (identification : UInt64) (identifications : List UInt64) (events : List Event) :
    wsGatewayBranch frame (identification :: identifications) events = some .panics := by
  cases framed : unframe frame with
  | none => simp [wsGatewayBranch, framed]
  | some parts =>
    obtain ⟨payload, headerSize⟩ := parts
    have length : frame.length = payload.length + 8 := by
      unfold unframe at framed
      split at framed
      · cases framed
      · cases framed
        simp only [List.length_take]
        omega
    have rejected : ¬ (Message.mk payload headerSize identification).Accepted := fun accepted =>
      other ((forwardable_iff identification).mpr ⟨payload, headerSize, framed, length, accepted⟩)
    obtain ⟨error, sends, attempt⟩ := iox2SendStream_rejected rejected events
    simp [wsGatewayBranch, framed, sendsOn, sends, attempt, IpcError.senderRetries]

/-- Where sending succeeds, exactly the frames that can be forwarded are survived. -/
theorem frame_survived_iff (frame : List UInt8) (identification : UInt64)
    (identifications : List UInt64) :
    (∃ outcome, wsGatewayBranch frame (identification :: identifications)
        (successes frame.length) = some outcome ∧ Survives frame outcome) ↔
      Forwardable frame := by
  constructor
  · rintro ⟨outcome, ends, survives⟩
    by_contra other
    rw [branch_panics other] at ends
    cases ends
    exact survives
  · intro forwardable
    obtain ⟨payload, headerSize, framed, ends⟩ :=
      branch_forwards forwardable identification identifications
    exact ⟨_, ends, framed⟩

/-- An empty frame has no trailer; a frame of nothing but a trailer has no header to announce. -/
theorem frames_panic :
    ¬ (∃ outcome, wsGatewayBranch [] [1] (successes 0) = some outcome ∧ Survives [] outcome) ∧
    ¬ (∃ outcome, wsGatewayBranch [5, 0, 0, 0, 0, 0, 0, 0] [1] (successes 8) = some outcome ∧
      Survives [5, 0, 0, 0, 0, 0, 0, 0] outcome) := by
  have short : ¬ Forwardable [] := by decide
  have outside : ¬ Forwardable [5, 0, 0, 0, 0, 0, 0, 0] := by decide
  constructor
  · rintro ⟨outcome, ends, survives⟩
    rw [branch_panics short] at ends
    cases ends
    exact survives
  · rintro ⟨outcome, ends, survives⟩
    rw [branch_panics outside] at ends
    cases ends
    exact survives

end Branch

section System

open Combined (State)

variable {s t : State} {left : Nat} {frame : List UInt8} {rest : List (List UInt8)}

theorem takes_frame (pc : s.pc = .tries (left + 1)) (turn : s.currentBacking = some .wsGateway)
    (free : s.waitStreamLocks .wsGateway = false) (waiting : s.receivingChannelRx = frame :: rest) :
    ∃ s', s.proceeds = some s' ∧ (unframe frame = none → s'.pc = .panicked) ∧
      ∀ payload headerSize, unframe frame = some (payload, headerSize) →
        s'.pc = .sendStream payload headerSize := by
  refine ⟨{ s with receivingChannelRx := rest }.unframes frame, ?_, ?_, ?_⟩
  · simp [State.proceeds, pc, State.tries, turn, free, waiting]
  · intro none_
    rw [unframes_eq, none_]
  · intro payload headerSize framed
    rw [unframes_eq, framed]

/-- What the send actor rejects ends the receiver task. -/
theorem rejected_panics {payload : List UInt8} {headerSize : Nat} {identification : UInt64}
    {error : Iox2.IpcError}
    (rejected : Iox2.sendStream payload headerSize identification = some (.error error))
    (drawn : identification ≠ 0) {calls : List Combined.SendCall}
    (next : s.sendCalls = ⟨payload, headerSize, true⟩ :: calls) :
    ∃ s', s.takesCall identification = some s' ∧
      s'.sendStreamReply = some (.error (.rejected error)) ∧
      ∀ t : State, t.pc = .sendStreamReply payload headerSize →
        t.sendStreamReply = some (.error (.rejected error)) →
        ∃ t', t.proceeds = some t' ∧ t'.pc = .panicked := by
  refine ⟨{ s with sendCalls := calls }.sent true (.error (.rejected error)), ?_, rfl, ?_⟩
  · simp [State.takesCall, next, drawn, rejected]
  · intro t pc reply
    simp [State.proceeds, pc, reply, State.resends, IpcError.senderRetries]

end System

end Gateway
