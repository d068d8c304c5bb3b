import SkyCurrent.Iox2.Reassembly

/- Where the receiver puts the chunks of a message, computed from nothing but the fields of
   their pages. Index and count are written with 32 bits and lengths with 64. -/
namespace Iox2

open ByteBuffer

structure Destination where
  totalLen : Nat
  start : Nat
  stop : Nat
  deriving DecidableEq, Repr

/-- What try_recv_stream makes of the fields of a fragment. -/
def destinationOf (payloadBodyLenRemainder chunkI numChunks headerSize : Nat) :
    Option Destination := do
  let chunkSize ← checkedSub (presetN - 8 - 8 - 8 - 8) headerSize
  let lastChunkLen := if payloadBodyLenRemainder = 0 then chunkSize else payloadBodyLenRemainder
  let totalLen := headerSize + (numChunks - 1) * chunkSize + lastChunkLen
  let chunkStartOffset := headerSize + chunkI * chunkSize
  let actualChunkLen := if numChunks = chunkI + 1 then lastChunkLen else chunkSize
  some ⟨totalLen, chunkStartOffset, chunkStartOffset + actualChunkLen⟩

/-- A page whose count is zero is not taken for a fragment. -/
def Blob.destination (blob : Blob) : Option Destination := do
  let payloadBodyLenRemainder := decode (← blob.read 0 8)
  let chunkI := decode (← blob.read 8 12)
  let numChunks := decode (← blob.read 12 16)
  let headerSize := decode (← blob.read 24 32)
  if numChunks = 0 then none
  else destinationOf payloadBodyLenRemainder chunkI numChunks headerSize

def mergeAt (allocations : MergeAllocs) (blob : Blob) (chunkI numChunks : Nat)
    (identification : UInt64) (headerSize : Nat) (d : Destination) :
    Option (Option (List UInt8 × Nat) × MergeAllocs) := do
  let entry ← entryOrInsert allocations blob numChunks d.totalLen identification headerSize
  let isMerged ← entry.merged[chunkI]?
  if isMerged then
    some (none, Function.update allocations identification (some entry))
  else do
    let chunk ← blob.read (headerSize + 32) (d.stop - d.start + headerSize + 32)
    let allocation ← copyFromSlice entry.allocation d.start d.stop chunk
    let entry := ⟨entry.merged.set chunkI true, entry.count + 1, allocation⟩
    if numChunks = entry.count then
      some (some (allocation, headerSize), Function.update allocations identification none)
    else
      some (none, Function.update allocations identification (some entry))

theorem mergeFragment_destination (allocations : MergeAllocs) (blob : Blob)
    (payloadBodyLenRemainder chunkI numChunks : Nat) (identification : UInt64) (headerSize : Nat) :
    mergeFragment allocations blob payloadBodyLenRemainder chunkI numChunks identification
        headerSize =
      (destinationOf payloadBodyLenRemainder chunkI numChunks headerSize).bind
        (mergeAt allocations blob chunkI numChunks identification headerSize) := by
  unfold mergeFragment destinationOf mergeAt
  cases checkedSub (presetN - 8 - 8 - 8 - 8) headerSize with
  | none => rfl
  | some chunkSize => simp only [Option.bind_eq_bind, Option.bind_some, Nat.add_sub_cancel_left]

/-- The pages of a message tell the receiver its length, and ranges for the chunks that lie
    behind the header, do not overlap and leave nothing out. -/
structure ExactGeometry (m : Message) : Prop where
  placed : ∀ (i : Nat) blob, m.pages[i]? = some blob → ∃ d, blob.destination = some d ∧
    d.totalLen = m.payload.length ∧ m.headerSize ≤ d.start ∧ d.start ≤ d.stop ∧
    d.stop ≤ d.totalLen
  disjoint : ∀ (i j : Nat) b c d e, i ≠ j → m.pages[i]? = some b → m.pages[j]? = some c →
    b.destination = some d → c.destination = some e → d.stop ≤ e.start ∨ e.stop ≤ d.start
  covers : ∀ k, m.headerSize ≤ k → k < m.payload.length →
    ∃ (i : Nat) (blob : Blob) (d : Destination), m.pages[i]? = some blob ∧
      blob.destination = some d ∧ d.start ≤ k ∧ k < d.stop

variable {m : Message} (cut : m.Cut)
include cut

theorem Message.Cut.pages_spec : m.pages.length = m.numChunks ∧ ∀ i, i < m.numChunks →
    ∃ blob, m.pages[i]? = some blob ∧ IsFragment blob m.remainder i m.numChunks
      m.identification m.headerSize m.header (m.chunk i) := by
  obtain ⟨pages, sent, spec⟩ := cut.send_spec
  have same : m.pages = pages := by
    simp [Message.pages, sent]
  rw [same]
  exact spec

theorem Message.Cut.destination {i : Nat} {blob : Blob} (fragment : IsFragment blob m.remainder i
    m.numChunks m.identification m.headerSize m.header (m.chunk i)) :
    blob.destination = if m.numChunks % 2 ^ 32 = 0 then none else
      some ⟨m.headerSize + (m.numChunks % 2 ^ 32 - 1) * m.chunkSize + m.lastChunkLen,
        m.headerSize + i % 2 ^ 32 * m.chunkSize,
        m.headerSize + i % 2 ^ 32 * m.chunkSize +
          if m.numChunks % 2 ^ 32 = i % 2 ^ 32 + 1 then m.lastChunkLen else m.chunkSize⟩ := by
  have room := cut.room
  have small := Nat.mod_lt (m.payload.length - m.headerSize) cut.size_positive
  have remainder : decode (encode 8 m.remainder) = m.remainder := by
    apply decode_encode_of_lt
    have bound : m.chunkSize ≤ 1024 := by
      unfold Message.chunkSize presetN
      omega
    unfold Message.remainder
    omega
  have sized : decode (encode 8 m.headerSize) = m.headerSize := by
    apply decode_encode_of_lt
    unfold presetN at room
    omega
  have width : 256 ^ 4 = 2 ^ 32 := rfl
  have size : checkedSub (presetN - 8 - 8 - 8 - 8) m.headerSize = some m.chunkSize := by
    rw [checkedSub, if_pos (by omega)]
    rfl
  have last : (if m.remainder = 0 then m.chunkSize else m.remainder) = m.lastChunkLen := rfl
  simp only [Blob.destination, fragment.remainder, fragment.index, fragment.count, fragment.sized,
    remainder, sized, decode_encode, width, destinationOf, size, last, Option.bind_eq_bind,
    Option.bind_some]

theorem ExactGeometry.few (exact_ : ExactGeometry m) : m.numChunks < 2 ^ 32 := by
  by_contra many
  have positive := cut.size_positive
  obtain ⟨some_, whole⟩ := cut.count
  obtain ⟨_, each⟩ := cut.pages_spec
  obtain ⟨blob, page, fragment⟩ := each 0 some_
  obtain ⟨d, placed, length, _⟩ := exact_.placed 0 blob page
  rw [cut.destination fragment] at placed
  split at placed
  · cases placed
  · rename_i nonzero
    obtain rfl := Option.some.inj placed
    have wrapped : m.numChunks % 2 ^ 32 < 2 ^ 32 := Nat.mod_lt _ (by decide)
    have fewer : (m.numChunks % 2 ^ 32 - 1) * m.chunkSize < (m.numChunks - 1) * m.chunkSize :=
      Nat.mul_lt_mul_of_pos_right (by omega) positive
    simp only at length
    omega

theorem exactGeometry_of_few (few : m.numChunks < 2 ^ 32) : ExactGeometry m := by
  obtain ⟨some_, whole⟩ := cut.count
  have last := cut.last_bounds
  obtain ⟨count, each⟩ := cut.pages_spec
  have destination : ∀ (i : Nat) blob, m.pages[i]? = some blob → i < m.numChunks ∧
      blob.destination = some ⟨m.payload.length, m.headerSize + i * m.chunkSize,
        m.headerSize + i * m.chunkSize + (m.chunk i).length⟩ := by
    intro i blob page
    have range : i < m.numChunks := count ▸ (List.getElem?_eq_some_iff.mp page).1
    obtain ⟨blob', there, fragment⟩ := each i range
    obtain rfl := Option.some.inj (page.symm.trans there)
    rw [cut.destination fragment, Nat.mod_eq_of_lt few, Nat.mod_eq_of_lt (range.trans few),
      if_neg (by omega), whole, cut.chunk_length range]
    exact ⟨range, rfl⟩
  constructor
  · intro i blob page
    obtain ⟨range, here⟩ := destination i blob page
    exact ⟨_, here, rfl, Nat.le_add_right .., Nat.le_add_right .., (cut.chunk_get range).1⟩
  · have apart : ∀ i j, i < j → j < m.numChunks →
        m.headerSize + i * m.chunkSize + (m.chunk i).length ≤ m.headerSize + j * m.chunkSize := by
      intro i j before range
      have size : (m.chunk i).length ≤ m.chunkSize := by
        rw [cut.chunk_length (before.trans range)]
        split <;> omega
      have later : (i + 1) * m.chunkSize ≤ j * m.chunkSize := Nat.mul_le_mul_right _ before
      rw [Nat.succ_mul] at later
      omega
    intro i j b c d e distinct pageI pageJ hereI hereJ
    obtain ⟨rangeI, placedI⟩ := destination i b pageI
    obtain ⟨rangeJ, placedJ⟩ := destination j c pageJ
    rw [hereI, Option.some.injEq] at placedI
    rw [hereJ, Option.some.injEq] at placedJ
    subst placedI placedJ
    rcases Nat.lt_or_gt_of_ne distinct with before | after
    · exact Or.inl (apart i j before rangeJ)
    · exact Or.inr (apart j i after rangeI)
  · intro k body inside
    have range := cut.covered inside body
    obtain ⟨blob, page, _⟩ := each _ range
    obtain ⟨_, here⟩ := destination _ blob page
    exact ⟨_, blob, _, page, here, (cut.chunk_covers range inside body).mp rfl⟩

/-- The fields of the pages say where every chunk goes, as long as its index and the count of
    chunks fit into theirs. -/
theorem geometry_exact_iff : ExactGeometry m ↔ m.numChunks < 2 ^ 32 :=
  ⟨ExactGeometry.few cut, exactGeometry_of_few cut⟩

omit cut

theorem Message.numChunks_eq (m : Message) : m.numChunks =
    (m.payload.length - m.headerSize + m.chunkSize - 1) / m.chunkSize := by
  rw [Message.numChunks, m.body_length]

def twoChunks : Message := ⟨List.replicate 1983 7, 1, 5⟩

theorem geometry_exact_two_chunks : twoChunks.remainder = 0 ∧ ExactGeometry twoChunks := by
  have length : twoChunks.payload.length = 1983 := List.length_replicate
  have size : twoChunks.chunkSize = 991 := rfl
  have header : twoChunks.headerSize = 1 := rfl
  have cut : twoChunks.Cut := by
    constructor
    · omega
    · rw [length]
      decide
    · rw [header]
      decide
  refine ⟨by rw [Message.remainder, length, size, header], (geometry_exact_iff cut).mpr ?_⟩
  rw [Message.numChunks_eq, length, size, header]
  decide

def manyChunks : Message := ⟨List.replicate (2 ^ 32 + 991) 0, 991, 1⟩

/-- Its count of chunks is 2^32, which is written as zero. -/
theorem geometry_wraps : manyChunks.Cut ∧ ¬ ExactGeometry manyChunks := by
  have length : manyChunks.payload.length = 2 ^ 32 + 991 := List.length_replicate
  have size : manyChunks.chunkSize = 1 := rfl
  have header : manyChunks.headerSize = 991 := rfl
  have cut : manyChunks.Cut := by
    constructor
    · omega
    · rw [length]
      decide
    · rw [header]
      decide
  refine ⟨cut, fun exact_ => ?_⟩
  have few := exact_.few cut
  rw [Message.numChunks_eq, length, size, header] at few
  omega

end Iox2
