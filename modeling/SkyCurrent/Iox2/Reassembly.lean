import Mathlib.Data.Finset.Card
import SkyCurrent.Iox2.Layout

/- Putting messages together again. An entry of the merge table is the message with zeros
   where chunks are missing, whatever order the others came in, and messages with different
   identifications do not touch each other's entries. -/
namespace Iox2

open ByteBuffer

/-- The entry of a message of which these chunks have arrived. -/
structure EntryOf (m : Message) (arrived : Finset Nat) (e : Merge) : Prop where
  merged : e.merged = (List.range m.numChunks).map fun i => decide (i ∈ arrived)
  count : e.count = arrived.card
  length : e.allocation.length = m.payload.length
  bytes : ∀ k, k < m.payload.length → e.allocation[k]? =
    if k < m.headerSize ∨ (k - m.headerSize) / m.chunkSize ∈ arrived then m.payload[k]?
    else some 0

def Merging (allocations : MergeAllocs) (m : Message) (arrived : Finset Nat) : Prop :=
  if arrived = ∅ ∨ arrived.card = m.numChunks then allocations m.identification = none
  else ∃ e, allocations m.identification = some e ∧ EntryOf m arrived e

section Merge

variable {m : Message}

theorem EntryOf.complete (cut : m.Cut) {e : Merge} {arrived : Finset Nat}
    (entry : EntryOf m arrived e) (all : ∀ i, i < m.numChunks → i ∈ arrived) :
    e.allocation = m.payload := by
  apply List.ext_getElem?
  intro k
  by_cases inside : k < m.payload.length
  · rw [entry.bytes k inside]
    by_cases header : k < m.headerSize
    · rw [if_pos (Or.inl header)]
    · rw [if_pos (Or.inr (all _ (cut.covered inside (Nat.le_of_not_lt header))))]
  · rw [List.getElem?_eq_none (by rw [entry.length]; omega), List.getElem?_eq_none (by omega)]

theorem first_entry (cut : m.Cut) :
    ∃ allocation, copyFromSlice (List.replicate (m.headerSize + (m.numChunks - 1) * m.chunkSize +
        m.lastChunkLen) 0) 0 m.headerSize m.header = some allocation ∧
      EntryOf m ∅ ⟨List.replicate m.numChunks false, 0, allocation⟩ := by
  have inside := cut.inside
  obtain ⟨_, whole⟩ := cut.count
  obtain ⟨allocation, done, length, get⟩ := copy_get
    (List.replicate m.payload.length (0 : UInt8)) m.header (Nat.zero_le m.headerSize)
    (by simpa using inside) (by simpa [Message.header] using inside)
  rw [whole]
  refine ⟨allocation, done, ?_, rfl, by simpa using length, ?_⟩
  · simp [List.map_const']
  · intro k range
    rw [get k]
    by_cases header : k < m.headerSize
    · simp [header, Message.header, List.getElem?_take_of_lt header]
    · simp [header, range]

/-- Merging one more chunk into an entry. -/
theorem EntryOf.insert (cut : m.Cut) {e : Merge} {arrived : Finset Nat}
    (entry : EntryOf m arrived e) {i : Nat} (range : i < m.numChunks) (fresh : i ∉ arrived) :
    ∃ allocation, copyFromSlice e.allocation (m.headerSize + i * m.chunkSize)
        (m.headerSize + i * m.chunkSize + (m.chunk i).length) (m.chunk i) = some allocation ∧
      EntryOf m (insert i arrived) ⟨e.merged.set i true, e.count + 1, allocation⟩ := by
  obtain ⟨room, content⟩ := cut.chunk_get range
  obtain ⟨allocation, done, length, get⟩ := copy_get e.allocation (m.chunk i)
    (Nat.le_add_right (m.headerSize + i * m.chunkSize) (m.chunk i).length)
    (by rw [entry.length]; exact room) (by omega)
  refine ⟨allocation, done, ?_, ?_, length.trans entry.length, ?_⟩
  · apply List.ext_getElem?
    intro j
    simp only [entry.merged, List.getElem?_set]
    by_cases same : i = j
    · subst same
      simp [range]
    · by_cases inside : j < m.numChunks
      · simp [inside, same, Ne.symm same]
      · simp [inside, same]
  · rw [Finset.card_insert_of_notMem fresh, ← entry.count]
  · intro k inside
    rw [get k]
    by_cases header : k < m.headerSize
    · rw [if_neg (by omega), entry.bytes k inside, if_pos (Or.inl header), if_pos (Or.inl header)]
    · have covers := cut.chunk_covers range inside (Nat.le_of_not_lt header)
      by_cases here : (k - m.headerSize) / m.chunkSize = i
      · obtain ⟨start, stop⟩ := covers.mp here
        rw [if_pos ⟨start, stop⟩, content k start stop,
          if_pos (Or.inr (here ▸ Finset.mem_insert_self _ _))]
      · rw [if_neg fun both => here (covers.mpr both), entry.bytes k inside]
        simp [header, here]

theorem EntryOf.isMerged {e : Merge} {arrived : Finset Nat} (entry : EntryOf m arrived e)
    {i : Nat} (range : i < m.numChunks) : e.merged[i]? = some (decide (i ∈ arrived)) := by
  simp [entry.merged, range]

structure Merged (allocations : MergeAllocs) (m : Message) (arrived : Finset Nat)
    (result : Option (List UInt8 × Nat) × MergeAllocs) : Prop where
  message : result.1 =
    if arrived.card = m.numChunks then some (m.payload, m.headerSize) else none
  merging : Merging result.2 m arrived
  others : ∀ id, id ≠ m.identification → result.2 id = allocations id

theorem mergeFragment_spec (cut : m.Cut) {allocations : MergeAllocs} {arrived : Finset Nat}
    (inside : arrived ⊆ Finset.range m.numChunks) (merging : Merging allocations m arrived)
    {blob : Blob} {i : Nat} (range : i < m.numChunks) (fresh : i ∉ arrived)
    (fragment : IsFragment blob m.remainder i m.numChunks m.identification m.headerSize m.header
      (m.chunk i)) :
    ∃ result, mergeFragment allocations blob m.remainder i m.numChunks m.identification
        m.headerSize = some result ∧ Merged allocations m (insert i arrived) result := by
  have card : (insert i arrived).card = arrived.card + 1 := Finset.card_insert_of_notMem fresh
  have notFull : arrived.card ≠ m.numChunks := by
    intro full
    have whole : arrived = Finset.range m.numChunks :=
      Finset.eq_of_subset_of_card_le inside (by rw [Finset.card_range, full])
    exact fresh (whole ▸ Finset.mem_range.mpr range)
  have room := cut.room
  have size : checkedSub (presetN - 8 - 8 - 8 - 8) m.headerSize = some m.chunkSize := by
    rw [checkedSub, if_pos (by omega)]
    rfl
  -- The entry is there already, or made from the header.
  obtain ⟨e, found, entry⟩ : ∃ e, entryOrInsert allocations blob m.numChunks
      (m.headerSize + (m.numChunks - 1) * m.chunkSize + m.lastChunkLen) m.identification
      m.headerSize = some e ∧ EntryOf m arrived e := by
    unfold entryOrInsert
    by_cases empty : arrived = ∅
    · subst empty
      rw [Merging, if_pos (Or.inl rfl)] at merging
      obtain ⟨allocation, made, entry⟩ := first_entry cut
      exact ⟨_, by simp [merging, fragment.header, made], entry⟩
    · rw [Merging, if_neg (by simp [empty, notFull])] at merging
      obtain ⟨e, there, entry⟩ := merging
      exact ⟨e, by rw [there], entry⟩
  have notYet : e.merged[i]? = some false := by
    rw [entry.isMerged range]
    simp [fresh]
  obtain ⟨allocation, copied, entry'⟩ := entry.insert cut range fresh
  have last : (if m.remainder = 0 then m.chunkSize else m.remainder) = m.lastChunkLen := rfl
  have body := fragment.body
  rw [cut.chunk_length range] at body copied
  have result : mergeFragment allocations blob m.remainder i m.numChunks m.identification
      m.headerSize = if m.numChunks = e.count + 1 then
        some (some (allocation, m.headerSize), Function.update allocations m.identification none)
      else some (none, Function.update allocations m.identification
        (some ⟨e.merged.set i true, e.count + 1, allocation⟩)) := by
    simp [mergeFragment, size, last, found, notYet, body, copied]
  rw [entry.count, ← card] at result
  by_cases full : (insert i arrived).card = m.numChunks
  · rw [if_pos full.symm] at result
    refine ⟨_, result, ?_, ?_, ?_⟩
    · have all : ∀ j, j < m.numChunks → j ∈ insert i arrived := by
        have whole : insert i arrived = Finset.range m.numChunks :=
          Finset.eq_of_subset_of_card_le
            (Finset.insert_subset (Finset.mem_range.mpr range) inside)
            (by rw [Finset.card_range, full])
        intro j below
        exact whole ▸ Finset.mem_range.mpr below
      rw [if_pos full, ← entry'.complete cut all]
    · rw [Merging, if_pos (Or.inr full)]
      exact Function.update_self ..
    · intro id other
      exact Function.update_of_ne other ..
  · rw [if_neg (Ne.symm full)] at result
    refine ⟨_, result, (if_neg full).symm, ?_, ?_⟩
    · rw [Merging, if_neg (by simp [full])]
      refine ⟨_, Function.update_self .., ?_⟩
      rw [card, ← entry.count]
      exact entry'
    · intro id other
      exact Function.update_of_ne other ..

theorem receivePage_fragment (cut : m.Cut) (few : m.numChunks < 2 ^ 32)
    (shouldCollect : List UInt8 → Bool) (allocations : MergeAllocs) {blob : Blob} {i : Nat}
    (range : i < m.numChunks)
    (fragment : IsFragment blob m.remainder i m.numChunks m.identification m.headerSize m.header
      (m.chunk i)) :
    receivePage shouldCollect allocations blob =
      if shouldCollect m.header then mergeFragment allocations blob m.remainder i m.numChunks
        m.identification m.headerSize
      else some (none, allocations) := by
  obtain ⟨positive, _⟩ := cut.count
  have room := cut.room
  have small := Nat.mod_lt (m.payload.length - m.headerSize) cut.size_positive
  have remainder : decode (encode 8 m.remainder) = m.remainder := by
    apply decode_encode_of_lt
    have bound : m.chunkSize ≤ 1024 := by unfold Message.chunkSize presetN; omega
    unfold Message.remainder
    omega
  have index : decode (encode 4 i) = i := decode_encode_of_lt (by omega)
  have count : decode (encode 4 m.numChunks) = m.numChunks := decode_encode_of_lt (by omega)
  have identified : decode (encode 8 m.identification.toNat) = m.identification.toNat :=
    decode_encode_of_lt m.identification.toNat_lt
  have sized : decode (encode 8 m.headerSize) = m.headerSize := by
    apply decode_encode_of_lt
    unfold presetN at room
    omega
  simp [receivePage, fragment.remainder, fragment.index, fragment.count, fragment.identified,
    fragment.sized, fragment.header, remainder, index, count, identified, sized,
    Nat.ne_of_gt positive]

theorem receivePage_whole {payload : List UInt8} {headerSize : Nat}
    (inside : headerSize ≤ payload.length) (short : payload.length ≤ presetN)
    (shouldCollect : List UInt8 → Bool) (allocations : MergeAllocs) {blob : Blob}
    (whole : IsWhole blob payload headerSize) :
    receivePage shouldCollect allocations blob =
      some (if shouldCollect (payload.take headerSize) then some (payload, headerSize) else none,
        allocations) := by
  have count : decode (List.replicate 4 0) = 0 := rfl
  have size : decode (encode 8 payload.length) = payload.length := by
    apply decode_encode_of_lt
    unfold presetN at short
    omega
  have header : decode (encode 8 headerSize) = headerSize := by
    apply decode_encode_of_lt
    unfold presetN at short
    omega
  simp only [receivePage, whole.size, whole.index, whole.count, whole.identified, count, size,
    header, whole.header, whole.payload, Option.bind_eq_bind, Option.bind_some, if_true]
  split <;> rfl

end Merge

end Iox2
