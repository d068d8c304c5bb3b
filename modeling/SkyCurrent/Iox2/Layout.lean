import SkyCurrent.Iox2.Pages

/- What a page says, field by field, for the pages send_stream makes. Whole payloads and
   fragments share the first three fields, and the third tells them apart. -/
namespace Iox2

open ByteBuffer

def Laid (blob : Blob) (front : List UInt8) : Prop :=
  blob.bytes = front ++ List.replicate (presetN - front.length) 0

theorem laid_zeroed : Laid .zeroed [] := rfl

theorem Laid.write {blob : Blob} {front : List UInt8} (laid : Laid blob front) (a b : Nat)
    (src : List UInt8) (start : a = front.length) (stop : b = front.length + src.length)
    (room : front.length + src.length ≤ presetN) :
    ∃ blob', blob.write a b src = some blob' ∧ Laid blob' (front ++ src) := by
  have done := copy_behind front src (List.replicate (presetN - front.length) (0 : UInt8)) start
    stop (by rw [List.length_replicate]; omega)
  rw [← laid] at done
  unfold Blob.write
  split
  · rename_i failed
    rw [done] at failed
    cases failed
  · rename_i bytes written
    refine ⟨_, rfl, ?_⟩
    rw [done] at written
    obtain rfl := Option.some.inj written
    simp only [Laid, List.drop_replicate, List.length_append]
    congr 2
    omega

theorem Laid.skip {blob : Blob} {front : List UInt8} (laid : Laid blob front) (n : Nat)
    (room : front.length + n ≤ presetN) : Laid blob (front ++ List.replicate n 0) := by
  unfold Laid at laid ⊢
  rw [laid, List.length_append, List.length_replicate, List.append_assoc,
    List.replicate_append_replicate]
  congr 2
  omega

theorem Laid.starts {blob : Blob} {front : List UInt8} (laid : Laid blob front) :
    front <+: blob.bytes :=
  ⟨_, laid.symm⟩

theorem read_of_starts {blob : Blob} {front mid : List UInt8}
    (starts : front ++ mid <+: blob.bytes) (a b : Nat) (start : a = front.length)
    (stop : b = front.length + mid.length) : blob.read a b = some mid := by
  obtain ⟨back, whole⟩ := starts
  rw [Blob.read, ← whole]
  exact slice_between front mid back start stop

structure IsFragment (blob : Blob) (payloadBodyLenRemainder i numChunks : Nat)
    (identification : UInt64) (headerSize : Nat) (payloadHeader chunk : List UInt8) : Prop where
  remainder : blob.read 0 8 = some (encode 8 payloadBodyLenRemainder)
  index : blob.read 8 12 = some (encode 4 i)
  count : blob.read 12 16 = some (encode 4 numChunks)
  identified : blob.read 16 24 = some (encode 8 identification.toNat)
  sized : blob.read 24 32 = some (encode 8 headerSize)
  header : blob.read 32 (headerSize + 32) = some payloadHeader
  body : blob.read (headerSize + 32) (chunk.length + headerSize + 32) = some chunk

theorem fragmentPage_spec (payloadBodyLenRemainder i numChunks : Nat) (identification : UInt64)
    {headerSize : Nat} {payloadHeader chunk : List UInt8}
    (header : payloadHeader.length = headerSize)
    (room : chunk.length + headerSize + 32 ≤ presetN) :
    ∃ blob, fragmentPage payloadBodyLenRemainder i numChunks identification headerSize
        payloadHeader chunk = some blob ∧
      IsFragment blob payloadBodyLenRemainder i numChunks identification headerSize
        payloadHeader chunk := by
  subst header
  have big : presetN = 1024 := rfl
  obtain ⟨p₁, done₁, laid₁⟩ := laid_zeroed.write 0 8 (encode 8 payloadBodyLenRemainder)
    (by simp) (by simp) (by simp [big])
  obtain ⟨p₂, done₂, laid₂⟩ := laid₁.write 8 12 (encode 4 i) (by simp) (by simp) (by simp [big])
  obtain ⟨p₃, done₃, laid₃⟩ := laid₂.write 12 16 (encode 4 numChunks) (by simp) (by simp)
    (by simp [big])
  obtain ⟨p₄, done₄, laid₄⟩ := laid₃.write 16 24 (encode 8 identification.toNat) (by simp)
    (by simp) (by simp [big])
  obtain ⟨p₅, done₅, laid₅⟩ := laid₄.write 24 32 (encode 8 payloadHeader.length) (by simp)
    (by simp) (by simp [big])
  obtain ⟨p₆, done₆, laid₆⟩ := laid₅.write 32 (payloadHeader.length + 32) payloadHeader (by simp)
    (by simp; omega) (by simp; omega)
  obtain ⟨p₇, done₇, laid₇⟩ := laid₆.write (payloadHeader.length + 32)
    (chunk.length + payloadHeader.length + 32) chunk (by simp; omega) (by simp; omega)
    (by simp; omega)
  refine ⟨p₇, ?_, ?_⟩
  · simp [fragmentPage, done₁, done₂, done₃, done₄, done₅, done₆, done₇]
  · have starts₇ := laid₇.starts
    have starts₆ := (List.prefix_append _ _).trans starts₇
    have starts₅ := (List.prefix_append _ _).trans starts₆
    have starts₄ := (List.prefix_append _ _).trans starts₅
    have starts₃ := (List.prefix_append _ _).trans starts₄
    have starts₂ := (List.prefix_append _ _).trans starts₃
    have starts₁ := (List.prefix_append _ _).trans starts₂
    exact ⟨read_of_starts starts₁ 0 8 (by simp) (by simp),
      read_of_starts starts₂ 8 12 (by simp) (by simp),
      read_of_starts starts₃ 12 16 (by simp) (by simp),
      read_of_starts starts₄ 16 24 (by simp) (by simp),
      read_of_starts starts₅ 24 32 (by simp) (by simp),
      read_of_starts starts₆ 32 _ (by simp) (by simp; omega),
      read_of_starts starts₇ _ _ (by simp; omega) (by simp; omega)⟩

structure IsWhole (blob : Blob) (payload : List UInt8) (headerSize : Nat) : Prop where
  size : blob.read 0 8 = some (encode 8 payload.length)
  index : blob.read 8 12 = some (List.replicate 4 0)
  count : blob.read 12 16 = some (List.replicate 4 0)
  identified : blob.read 16 24 = some (encode 8 headerSize)
  header : blob.read 24 (headerSize + 24) = some (payload.take headerSize)
  payload : blob.read 24 (payload.length + 24) = some payload

theorem wholePage_spec (payload : List UInt8) {headerSize : Nat}
    (inside : headerSize ≤ payload.length) (room : payload.length + 24 ≤ presetN) :
    ∃ blob, wholePage payload headerSize = some blob ∧ IsWhole blob payload headerSize := by
  have big : presetN = 1024 := rfl
  obtain ⟨p₁, done₁, laid₁⟩ := laid_zeroed.write 0 8 (encode 8 payload.length)
    (by simp) (by simp) (by simp [big])
  have skipped := (laid₁.skip 4 (by simp [big])).skip 4 (by simp [big])
  obtain ⟨p₂, done₂, laid₂⟩ := skipped.write 16 24 (encode 8 headerSize) (by simp) (by simp)
    (by simp [big])
  obtain ⟨p₃, done₃, laid₃⟩ := laid₂.write 24 (payload.length + 24) payload (by simp)
    (by simp; omega) (by simp; omega)
  refine ⟨p₃, ?_, ?_⟩
  · simp [wholePage, done₁, done₂, done₃]
  · have starts₅ := laid₃.starts
    have starts₄ := (List.prefix_append _ _).trans starts₅
    have starts₃ := (List.prefix_append _ _).trans starts₄
    have starts₂ := (List.prefix_append _ _).trans starts₃
    have starts₁ := (List.prefix_append _ _).trans starts₂
    have split_ := starts₅
    rw [← List.take_append_drop headerSize payload, ← List.append_assoc] at split_
    have starts₆ := (List.prefix_append _ _).trans split_
    exact ⟨read_of_starts starts₁ 0 8 (by simp) (by simp),
      read_of_starts starts₂ 8 12 (by simp) (by simp),
      read_of_starts starts₃ 12 16 (by simp) (by simp),
      read_of_starts starts₄ 16 24 (by simp) (by simp),
      read_of_starts starts₆ 24 _ (by simp) (by simp; omega),
      read_of_starts starts₅ 24 _ (by simp) (by simp; omega)⟩

/-- What a caller hands to send_stream, with the identification that was drawn for it. -/
structure Message where
  payload : List UInt8
  headerSize : Nat
  identification : UInt64
  deriving DecidableEq, Repr

namespace Message

def Accepted (m : Message) : Prop :=
  ∃ pages, sendStream m.payload m.headerSize m.identification = some (.ok pages)

def pages (m : Message) : List Blob :=
  match sendStream m.payload m.headerSize m.identification with
  | some (.ok pages) => pages
  | _ => []

def Fragmented (m : Message) : Prop := presetN - 8 - 8 - 8 < m.payload.length

instance (m : Message) : Decidable m.Fragmented := inferInstanceAs (Decidable (_ < _))

def header (m : Message) : List UInt8 := m.payload.take m.headerSize

def body (m : Message) : List UInt8 := m.payload.drop m.headerSize

def chunkSize (m : Message) : Nat := presetN - 8 - 8 - 8 - 8 - m.headerSize

def numChunks (m : Message) : Nat := (m.body.length + m.chunkSize - 1) / m.chunkSize

def chunk (m : Message) (i : Nat) : List UInt8 :=
  (m.body.drop (i * m.chunkSize)).take m.chunkSize

def remainder (m : Message) : Nat := (m.payload.length - m.headerSize) % m.chunkSize

def lastChunkLen (m : Message) : Nat := if m.remainder = 0 then m.chunkSize else m.remainder

structure Cut (m : Message) : Prop where
  inside : m.headerSize ≤ m.payload.length
  long : presetN - 8 - 8 - 8 < m.payload.length
  room : 8 + 8 + 8 + 8 + m.headerSize < presetN

end Message

theorem mapM_spec {α β : Type} (f : α → Option β) (l : List α)
    (each : ∀ x ∈ l, ∃ y, f x = some y) :
    ∃ ys, l.mapM f = some ys ∧ ys.length = l.length ∧
      ∀ (i : Nat) x, l[i]? = some x → ∃ y, ys[i]? = some y ∧ f x = some y := by
  induction l with
  | nil => exact ⟨[], rfl, rfl, by simp⟩
  | cons a l ih =>
    obtain ⟨y, first⟩ := each a (by simp)
    obtain ⟨ys, rest, size, at_⟩ := ih fun x member => each x (by simp [member])
    refine ⟨y :: ys, by simp [List.mapM_cons, first, rest], by simp [size], ?_⟩
    intro i x here
    cases i with
    | zero =>
      simp only [List.getElem?_cons_zero, Option.some.injEq] at here
      exact ⟨y, rfl, here ▸ first⟩
    | succ i => exact at_ i x here

theorem Message.body_length (m : Message) :
    m.body.length = m.payload.length - m.headerSize := by
  simp [Message.body]

section Geometry

variable {m : Message} (cut : m.Cut)
include cut

theorem Message.Cut.size_positive : 0 < m.chunkSize := by
  have room := cut.room
  unfold Message.chunkSize
  omega

theorem Message.Cut.count : 0 < m.numChunks ∧
    m.headerSize + (m.numChunks - 1) * m.chunkSize + m.lastChunkLen = m.payload.length := by
  have inside := cut.inside
  have long := cut.long
  have room := cut.room
  have body := m.body_length
  obtain ⟨positive, whole⟩ := chunk_count cut.size_positive
    (show 0 < m.body.length by rw [body]; unfold presetN at long room; omega)
  refine ⟨positive, ?_⟩
  unfold Message.lastChunkLen Message.remainder Message.numChunks
  rw [← body]
  omega

theorem Message.Cut.chunk_length {i : Nat} (range : i < m.numChunks) :
    (m.chunk i).length = if m.numChunks = i + 1 then m.lastChunkLen else m.chunkSize := by
  have size := chunk_size cut.size_positive range
  unfold Message.lastChunkLen Message.remainder
  rw [← m.body_length]
  exact size

theorem Message.Cut.last_bounds : 0 < m.lastChunkLen ∧ m.lastChunkLen ≤ m.chunkSize := by
  have positive := cut.size_positive
  have small := Nat.mod_lt (m.payload.length - m.headerSize) positive
  unfold Message.lastChunkLen Message.remainder
  split <;> omega

theorem Message.Cut.chunk_get {i : Nat} (range : i < m.numChunks) :
    m.headerSize + i * m.chunkSize + (m.chunk i).length ≤ m.payload.length ∧
    ∀ k, m.headerSize + i * m.chunkSize ≤ k →
      k < m.headerSize + i * m.chunkSize + (m.chunk i).length →
      (m.chunk i)[k - (m.headerSize + i * m.chunkSize)]? = m.payload[k]? := by
  have length := cut.chunk_length range
  obtain ⟨positive, whole⟩ := cut.count
  have last := cut.last_bounds
  constructor
  · rw [length]
    split
    · rename_i final
      rw [final, Nat.add_sub_cancel] at whole
      omega
    · have before : (i + 1) * m.chunkSize ≤ (m.numChunks - 1) * m.chunkSize :=
        Nat.mul_le_mul_right _ (by omega)
      rw [Nat.succ_mul] at before
      omega
  · intro k start stop
    have small : k - (m.headerSize + i * m.chunkSize) < m.chunkSize := by
      have bound : (m.chunk i).length ≤ m.chunkSize := by
        rw [length]
        split <;> omega
      omega
    rw [Message.chunk, List.getElem?_take_of_lt small, List.getElem?_drop, Message.body,
      List.getElem?_drop]
    congr 1
    omega

theorem Message.Cut.chunk_covers {i k : Nat} (range : i < m.numChunks)
    (inside : k < m.payload.length) (body : m.headerSize ≤ k) :
    (k - m.headerSize) / m.chunkSize = i ↔
      m.headerSize + i * m.chunkSize ≤ k ∧
        k < m.headerSize + i * m.chunkSize + (m.chunk i).length := by
  have positive := cut.size_positive
  have length := cut.chunk_length range
  obtain ⟨_, whole⟩ := cut.count
  have last := cut.last_bounds
  rw [Nat.div_eq_iff positive, length]
  split
  · rename_i final
    rw [final, Nat.add_sub_cancel] at whole
    omega
  · omega

theorem Message.Cut.covered {k : Nat} (inside : k < m.payload.length)
    (body : m.headerSize ≤ k) : (k - m.headerSize) / m.chunkSize < m.numChunks := by
  have positive := cut.size_positive
  obtain ⟨some_, whole⟩ := cut.count
  have last := cut.last_bounds
  rw [Nat.div_lt_iff_lt_mul positive]
  obtain ⟨n, count⟩ : ∃ n, m.numChunks = n + 1 := ⟨m.numChunks - 1, by omega⟩
  rw [count, Nat.add_sub_cancel] at whole
  rw [count, Nat.succ_mul]
  omega

end Geometry

theorem chunks_get {α : Type} {n i : Nat} {l : List α} (range : i < (l.length + n - 1) / n) :
    (chunks n l)[i]? = some ((l.drop (i * n)).take n) := by
  simp [chunks, range]

/-- The loop of send_stream publishes one page for each chunk. -/
theorem Message.Cut.send_spec {m : Message} (cut : m.Cut) :
    ∃ pages, sendStream m.payload m.headerSize m.identification = some (.ok pages) ∧
      pages.length = m.numChunks ∧ ∀ i, i < m.numChunks →
        ∃ blob, pages[i]? = some blob ∧ IsFragment blob m.remainder i m.numChunks
          m.identification m.headerSize m.header (m.chunk i) := by
  have inside := cut.inside
  have long := cut.long
  have room := cut.room
  have count : (chunks m.chunkSize m.body).length = m.numChunks := chunks_length ..
  have page : ∀ i, i < m.numChunks → ∃ blob, fragmentPage m.remainder i m.numChunks
      m.identification m.headerSize m.header (m.chunk i) = some blob ∧
      IsFragment blob m.remainder i m.numChunks m.identification m.headerSize m.header
        (m.chunk i) := by
    intro i range
    apply fragmentPage_spec
    · simpa [Message.header] using inside
    · have size := cut.chunk_length range
      have last := cut.last_bounds
      have bound : (m.chunk i).length ≤ m.chunkSize := by
        rw [size]
        split <;> omega
      unfold Message.chunkSize at bound
      omega
  have at_ : ∀ i, i < m.numChunks →
      (chunks m.chunkSize m.body).zipIdx[i]? = some (m.chunk i, i) := by
    intro i range
    rw [List.getElem?_zipIdx, chunks_get range]
    simp [Message.chunk]
  obtain ⟨pages, done, size, each⟩ := mapM_spec
    (fun chunk : List UInt8 × Nat => fragmentPage m.remainder chunk.2 m.numChunks
      m.identification m.headerSize m.header chunk.1) (chunks m.chunkSize m.body).zipIdx
    (by
      intro x member
      obtain ⟨i, here⟩ := List.mem_iff_getElem?.mp member
      have range : i < m.numChunks := by
        rw [← count, ← List.length_zipIdx (i := 0)]
        exact (List.getElem?_eq_some_iff.mp here).1
      rw [at_ i range] at here
      obtain rfl := Option.some.inj here
      obtain ⟨blob, built, _⟩ := page i range
      exact ⟨blob, built⟩)
  refine ⟨pages, ?_, by rw [size, List.length_zipIdx, count], ?_⟩
  · have header : slice m.payload 0 m.headerSize = some m.header := by
      rw [slice, if_pos ⟨Nat.zero_le _, inside⟩]
      rfl
    rw [← count] at done
    unfold sendStream
    rw [if_neg (by omega), if_neg (by omega), if_neg (by omega), header]
    exact congrArg (Option.bind · _) done
  · intro i range
    obtain ⟨blob, here, built⟩ := each i _ (at_ i range)
    obtain ⟨blob', built', fragment⟩ := page i range
    obtain rfl := Option.some.inj (built.symm.trans built')
    exact ⟨blob, here, fragment⟩

/-- What the pages of an accepted message are: one with the payload, or one for each chunk. -/
theorem Message.Accepted.pages_spec {m : Message} (accepted : m.Accepted) :
    m.headerSize ≤ m.payload.length ∧
      (¬ m.Fragmented ∧ (∃ blob, m.pages = [blob] ∧ IsWhole blob m.payload m.headerSize) ∨
      m.Cut ∧ m.pages.length = m.numChunks ∧ ∀ i, i < m.numChunks →
        ∃ blob, m.pages[i]? = some blob ∧ IsFragment blob m.remainder i m.numChunks
          m.identification m.headerSize m.header (m.chunk i)) := by
  obtain ⟨pages, sent⟩ := accepted
  have pages_eq : m.pages = pages := by simp [Message.pages, sent]
  rw [pages_eq]
  have before := sent
  unfold sendStream at sent
  split at sent
  · cases sent
  · rename_i inside
    refine ⟨by omega, ?_⟩
    split at sent
    · rename_i short
      obtain ⟨blob, done, whole⟩ := wholePage_spec m.payload
        (Nat.not_lt.mp inside) (by unfold presetN at short ⊢; omega)
      simp only [done, Option.bind_eq_bind, Option.bind_some, Option.some.injEq,
        Except.ok.injEq] at sent
      exact Or.inl ⟨Nat.not_lt.mpr short, blob, sent.symm, whole⟩
    · rename_i long
      split at sent
      · cases sent
      · rename_i room
        have cut : m.Cut := ⟨by omega, by omega, by omega⟩
        obtain ⟨pages', sent', spec⟩ := cut.send_spec
        rw [before] at sent'
        cases sent'
        exact Or.inr ⟨cut, spec⟩

theorem Message.accepted_iff {m : Message} :
    m.Accepted ↔ m.headerSize ≤ m.payload.length ∧
      (m.Fragmented → 8 + 8 + 8 + 8 + m.headerSize < presetN) := by
  constructor
  · intro accepted
    obtain ⟨inside, ⟨short, _⟩ | ⟨cut, _⟩⟩ := accepted.pages_spec
    · exact ⟨inside, fun long => absurd long short⟩
    · exact ⟨inside, fun _ => cut.room⟩
  · rintro ⟨inside, room⟩
    by_cases long : m.Fragmented
    · obtain ⟨pages, sent, _⟩ := (Message.Cut.mk inside long (room long)).send_spec
      exact ⟨pages, sent⟩
    · have short := Nat.not_lt.mp long
      obtain ⟨blob, done, _⟩ :=
        wholePage_spec m.payload inside (by unfold presetN at short ⊢; omega)
      refine ⟨[blob], ?_⟩
      unfold sendStream
      rw [if_neg (by omega), if_pos short, done]
      rfl

theorem Message.Accepted.page_count {m : Message} (accepted : m.Accepted) :
    m.pages.length = if m.Fragmented then m.numChunks else 1 := by
  obtain ⟨_, ⟨short, _, pages, _⟩ | ⟨cut, size, _⟩⟩ := accepted.pages_spec
  · rw [if_neg short, pages, List.length_singleton]
  · have long : m.Fragmented := cut.long
    rw [if_pos long, size]

end Iox2
