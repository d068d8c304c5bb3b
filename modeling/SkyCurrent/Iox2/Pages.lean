import SkyCurrent.Base.ByteBuffer

/- The stream functions of skycurrent/src/backing/iox2.rs: a payload is sent as pages of one
   fixed size, and put together again from pages that arrive one at a time. A slice out of
   range and a subtraction below zero end the thread in the code, and are `none` here. -/
namespace Iox2

open ByteBuffer

def presetN : Nat := 1024

structure Blob where
  bytes : List UInt8
  size : bytes.length = presetN

def Blob.zeroed : Blob := ⟨List.replicate presetN 0, List.length_replicate⟩

def Blob.read (blob : Blob) (a b : Nat) : Option (List UInt8) := slice blob.bytes a b

def Blob.write (blob : Blob) (a b : Nat) (src : List UInt8) : Option Blob :=
  match done : copyFromSlice blob.bytes a b src with
  | none => none
  | some bytes => some ⟨bytes, (copy_length done).trans blob.size⟩

inductive IpcError where
  | payloadHeaderSizeExceedsPayloadLength (headerSize payloadLen : Nat)
  | iox2PayloadHeaderTooLarge (headerSize maximum : Nat)
  deriving DecidableEq, Repr

def fragmentPage (payloadBodyLenRemainder i numChunks : Nat) (identification : UInt64)
    (headerSize : Nat) (payloadHeader chunk : List UInt8) : Option Blob := do
  let page ← Blob.zeroed.write 0 8 (encode 8 payloadBodyLenRemainder)
  let page ← page.write 8 12 (encode 4 i)
  let page ← page.write 12 16 (encode 4 numChunks)
  let page ← page.write 16 24 (encode 8 identification.toNat)
  let page ← page.write 24 32 (encode 8 headerSize)
  let page ← page.write 32 (headerSize + 32) payloadHeader
  page.write (headerSize + 32) (chunk.length + headerSize + 32) chunk

def wholePage (payload : List UInt8) (headerSize : Nat) : Option Blob := do
  let data ← Blob.zeroed.write 0 8 (encode 8 payload.length)
  let data ← data.write 16 24 (encode 8 headerSize)
  data.write 24 (payload.length + 24) payload

/-- The pages send_stream publishes, in order. The identification is drawn at random by the
    code until it is not zero, so it is an input here; so is that publishing succeeds. -/
def sendStream (payload : List UInt8) (headerSize : Nat) (identification : UInt64) :
    Option (Except IpcError (List Blob)) :=
  if headerSize > payload.length then
    some (.error (.payloadHeaderSizeExceedsPayloadLength headerSize payload.length))
  else if payload.length ≤ presetN - 8 - 8 - 8 then do
    let data ← wholePage payload headerSize
    some (.ok [data])
  else if 8 + 8 + 8 + 8 + headerSize ≥ presetN then
    some (.error (.iox2PayloadHeaderTooLarge headerSize (presetN - 8 - 8 - 8 - 8 - 1)))
  else do
    let chunkSize := presetN - 8 - 8 - 8 - 8 - headerSize
    let payloadHeader ← slice payload 0 headerSize
    let payloadBodyChunks := chunks chunkSize (payload.drop headerSize)
    let payloadBodyLenRemainder := (payload.length - headerSize) % chunkSize
    let pages ← payloadBodyChunks.zipIdx.mapM fun chunk =>
      fragmentPage payloadBodyLenRemainder chunk.2 payloadBodyChunks.length identification
        headerSize payloadHeader chunk.1
    some (.ok pages)

/-- An entry of MERGE_ALLOCS: which chunks are merged in, how many, and the bytes so far. -/
structure Merge where
  merged : List Bool
  count : Nat
  allocation : List UInt8
  deriving DecidableEq, Repr

abbrev MergeAllocs := UInt64 → Option Merge

def MergeAllocs.empty : MergeAllocs := fun _ => none

inductive TryRecvStreamResult where
  | newCompleted (message : List UInt8 × Nat)
  | potentiallyAvailable
  | outOfAccessible
  deriving DecidableEq, Repr

def checkedSub (a b : Nat) : Option Nat := if b ≤ a then some (a - b) else none

def entryOrInsert (allocations : MergeAllocs) (blob : Blob) (numChunks totalLen : Nat)
    (identification : UInt64) (headerSize : Nat) : Option Merge :=
  match allocations identification with
  | some entry => some entry
  | none => do
    let header ← blob.read 32 (headerSize + 32)
    let allocation ← copyFromSlice (List.replicate totalLen 0) 0 headerSize header
    some ⟨List.replicate numChunks false, 0, allocation⟩

def mergeFragment (allocations : MergeAllocs) (blob : Blob) (payloadBodyLenRemainder chunkI
    numChunks : Nat) (identification : UInt64) (headerSize : Nat) :
    Option (Option (List UInt8 × Nat) × MergeAllocs) := do
  let chunkSize ← checkedSub (presetN - 8 - 8 - 8 - 8) headerSize
  let lastChunkLen := if payloadBodyLenRemainder = 0 then chunkSize else payloadBodyLenRemainder
  let totalLen := headerSize + (numChunks - 1) * chunkSize + lastChunkLen
  let entry ← entryOrInsert allocations blob numChunks totalLen identification headerSize
  let isMerged ← entry.merged[chunkI]?
  if isMerged then
    some (none, Function.update allocations identification (some entry))
  else do
    let chunkStartOffset := headerSize + chunkI * chunkSize
    let actualChunkLen := if numChunks = chunkI + 1 then lastChunkLen else chunkSize
    let chunk ← blob.read (headerSize + 32) (actualChunkLen + headerSize + 32)
    let allocation ← copyFromSlice entry.allocation chunkStartOffset
      (chunkStartOffset + actualChunkLen) chunk
    let entry := ⟨entry.merged.set chunkI true, entry.count + 1, allocation⟩
    if numChunks = entry.count then
      some (some (allocation, headerSize), Function.update allocations identification none)
    else
      some (none, Function.update allocations identification (some entry))

def receivePage (shouldCollect : List UInt8 → Bool) (allocations : MergeAllocs) (blob : Blob) :
    Option (Option (List UInt8 × Nat) × MergeAllocs) := do
  let payloadBodyLenRemainder := decode (← blob.read 0 8)
  let chunkI := decode (← blob.read 8 12)
  let numChunks := decode (← blob.read 12 16)
  let identification := decode (← blob.read 16 24)
  if numChunks = 0 then do
    let payloadLen := payloadBodyLenRemainder
    let headerSize := identification
    if shouldCollect (← blob.read 24 (headerSize + 24)) then do
      let payload ← blob.read 24 (payloadLen + 24)
      some (some (payload, headerSize), allocations)
    else
      some (none, allocations)
  else do
    let headerSize := decode (← blob.read 24 32)
    if shouldCollect (← blob.read 32 (headerSize + 32)) then
      mergeFragment allocations blob payloadBodyLenRemainder chunkI numChunks
        (UInt64.ofNat identification) headerSize
    else
      some (none, allocations)

def tryRecvStream (shouldCollect : List UInt8 → Bool) (allocations : MergeAllocs)
    (received : Option Blob) : Option (TryRecvStreamResult × MergeAllocs) :=
  match received with
  | none => some (.outOfAccessible, allocations)
  | some blob => do
    let (message, allocations) ← receivePage shouldCollect allocations blob
    match message with
    | some message => some (.newCompleted message, allocations)
    | none => some (.potentiallyAvailable, allocations)

end Iox2
