import SkyCurrent.Combined.Model
import SkyCurrent.Iox2.InOrder

/- A message on its way from a web page into the mesh and back: the frames of
   skycurrent-ws-client/src/index.ts, the two branches of backing/combined.rs that take them
   apart and put them together, and the pages of backing/iox2.rs between. -/
namespace Gateway

open ByteBuffer
open Iox2 (Message completed receiveAll)

section Client

/-- The frame sendStream hands to the socket. TypedArray.set throws where it does not fit. -/
def sendStream (payload : List UInt8) (headerSize : Nat) : Option (List UInt8) := do
  let headerSizeBuffer := encode 8 headerSize
  let resultBuffer := List.replicate (payload.length + 8) 0
  let resultBuffer ← copyFromSlice resultBuffer 0 payload.length payload
  copyFromSlice resultBuffer payload.length (payload.length + 8) headerSizeBuffer

/-- buffer.slice(0, stop), where a negative stop counts from the end. -/
def sliceTo (buffer : List UInt8) (stop : Int) : List UInt8 :=
  buffer.take (if stop < 0 then buffer.length + stop else stop).toNat

def messageHandler (buffer : List UInt8) : List UInt8 :=
  sliceTo buffer (buffer.length - 8)

end Client

section Branches

/-- What the gateway branch of try_recv_stream makes of a frame; one that is shorter than its
    trailer ends the thread. -/
def unframe (frame : List UInt8) : Option (List UInt8 × Nat) :=
  if frame.length < 8 then none
  else some (frame.take (frame.length - 8), decode (frame.drop (frame.length - 8)))

def payloadCopy (payload : List UInt8) (headerSize : Nat) : List UInt8 :=
  payload ++ encode 8 headerSize

theorem unframes_eq (s : Combined.State) (frame : List UInt8) :
    s.unframes frame = { s with
      pc := match unframe frame with
        | none => .panicked
        | some (payload, headerSize) => .sendStream payload headerSize } := by
  unfold Combined.State.unframes unframe
  split <;> rfl

theorem sendsCopy_eq (s : Combined.State) (payload : List UInt8) (headerSize : Nat) :
    s.sendsCopy payload headerSize =
      if s.clients.all fun client => client.backlog.length < Combined.channelCapacity then
        some { s with
          clients := s.clients.map fun client =>
            { client with backlog := client.backlog ++ [payloadCopy payload headerSize] }
          received := s.received ++ [payload]
          pc := .betweenCalls }
      else none :=
  rfl

end Branches

variable {payload : List UInt8} {headerSize : Nat}

theorem sendStream_frame (payload : List UInt8) (headerSize : Nat) :
    sendStream payload headerSize = some (payloadCopy payload headerSize) := by
  have first := copy_behind (a := 0) (b := payload.length) [] payload
    (List.replicate (payload.length + 8) (0 : UInt8)) rfl (by simp) (by simp)
  have second := copy_behind (a := payload.length) (b := payload.length + 8) payload
    (encode 8 headerSize) (List.replicate 8 (0 : UInt8)) rfl (by simp) (by simp)
  simp only [List.nil_append, List.drop_replicate, Nat.add_sub_cancel_left] at first
  simp only [encode_length, List.drop_replicate, Nat.sub_self, List.replicate_zero,
    List.append_nil] at second
  simp only [sendStream, first, Option.bind_eq_bind, Option.bind_some, second, payloadCopy]

/-- The bytes in front of the trailer may be any, also ones that look like a trailer. -/
theorem unframe_payloadCopy (small : headerSize < 2 ^ 64) :
    unframe (payloadCopy payload headerSize) = some (payload, headerSize) := by
  have length : (payloadCopy payload headerSize).length = payload.length + 8 := by
    simp [payloadCopy]
  have read : decode (encode 8 headerSize) = headerSize := decode_encode_of_lt small
  rw [unframe, length, if_neg (by omega), Nat.add_sub_cancel, payloadCopy, List.take_left,
    List.drop_left, read]

theorem messageHandler_payloadCopy : messageHandler (payloadCopy payload headerSize) = payload := by
  have length : (payloadCopy payload headerSize).length = payload.length + 8 := by
    simp [payloadCopy]
  have stop : ¬ ((payload.length + 8 : Nat) : Int) - 8 < 0 := by omega
  have front : (((payload.length + 8 : Nat) : Int) - 8).toNat = payload.length := by omega
  rw [messageHandler, sliceTo, length, if_neg stop, front, payloadCopy, List.take_left]

/-- A message from a web page comes out at the receivers of the mesh as it was sent, and at
    the web pages as well, in the frame it was sent in. -/
theorem web_trip (inside : headerSize ≤ payload.length)
    (fits : payload.length ≤ 1000 ∨ headerSize ≤ 991) (identification : UInt64)
    (few : (Message.mk payload headerSize identification).pages.length < 2 ^ 32)
    {shouldCollect : List UInt8 → Bool} (wanted : shouldCollect (payload.take headerSize) = true)
    {order : List Nat}
    (each : order.Perm (List.range (Message.mk payload headerSize identification).pages.length)) :
    ∃ frame pages blobs results, sendStream payload headerSize = some frame ∧
      unframe frame = some (payload, headerSize) ∧
      Iox2.sendStream payload headerSize identification = some (.ok pages) ∧
      order.mapM (fun i => pages[i]?) = some blobs ∧
      receiveAll shouldCollect .empty blobs = some (results, .empty) ∧
      completed results = [(payload, headerSize)] ∧
      payloadCopy payload headerSize = frame ∧
      messageHandler frame = payload := by
  have accepted : (Message.mk payload headerSize identification).Accepted := by
    refine Message.accepted_iff.mpr ⟨inside, ?_⟩
    intro long
    have longer : 1000 < payload.length := long
    change 8 + 8 + 8 + 8 + headerSize < 1024
    omega
  obtain ⟨pages, sent⟩ := accepted
  have same : (Message.mk payload headerSize identification).pages = pages := by
    simp [Message.pages, sent]
  obtain ⟨blobs, results, arrived, received, once⟩ :=
    Iox2.receive_shuffled ⟨pages, sent⟩ few wanted each
  rw [same] at arrived
  exact ⟨_, pages, blobs, results, sendStream_frame payload headerSize,
    unframe_payloadCopy (by omega), sent, arrived, received, once, rfl,
    messageHandler_payloadCopy⟩

/-- A payload of two chunks, the second of which arrives first. -/
theorem web_trip_two_pages : ∃ frame pages blobs results,
    sendStream (List.replicate 1001 8) 0 = some frame ∧
      unframe frame = some (List.replicate 1001 8, 0) ∧
      Iox2.sendStream (List.replicate 1001 8) 0 6 = some (.ok pages) ∧
      [1, 0].mapM (fun i => pages[i]?) = some blobs ∧
      receiveAll (fun _ => true) .empty blobs = some (results, .empty) ∧
      completed results = [(List.replicate 1001 8, 0)] ∧
      payloadCopy (List.replicate 1001 8) 0 = frame ∧
      messageHandler frame = List.replicate 1001 8 := by
  have length : (List.replicate 1001 (8 : UInt8)).length = 1001 := List.length_replicate
  have inside : 0 ≤ (List.replicate 1001 (8 : UInt8)).length := Nat.zero_le _
  have accepted : (Message.mk (List.replicate 1001 8) 0 6).Accepted := by
    refine Message.accepted_iff.mpr ⟨inside, fun _ => ?_⟩
    change 8 + 8 + 8 + 8 + 0 < 1024
    omega
  have long : (Message.mk (List.replicate 1001 8) 0 6).Fragmented := by
    change 1000 < (List.replicate 1001 (8 : UInt8)).length
    omega
  have count : (Message.mk (List.replicate 1001 8) 0 6).pages.length = 2 := by
    rw [accepted.page_count, if_pos long, Message.numChunks_eq, length]
    decide
  exact web_trip inside (Or.inr (by omega)) 6 (by omega) rfl (by rw [count]; decide)

end Gateway
