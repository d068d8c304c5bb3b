import SkyCurrent.Iox2.Interleaved
import SkyCurrent.Iox2.Geometry

/- The pages of a single message: in the order they were published in, perhaps not to its end,
   or all of them in any order. -/
namespace Iox2

def TryRecvStreamResult.message : TryRecvStreamResult → Option (List UInt8 × Nat)
  | .newCompleted message => some message
  | _ => none

def completed (results : List TryRecvStreamResult) : List (List UInt8 × Nat) :=
  results.filterMap TryRecvStreamResult.message

@[simp] theorem completed_nil : completed [] = [] := rfl

@[simp] theorem completed_append (xs ys : List TryRecvStreamResult) :
    completed (xs ++ ys) = completed xs ++ completed ys :=
  List.filterMap_append ..

variable {shouldCollect : List UInt8 → Bool} {allocations : MergeAllocs} {m : Message}

theorem receiveAll_append {xs ys : List Blob} {allocations₁ allocations₂ : MergeAllocs}
    {first second : List TryRecvStreamResult}
    (before : receiveAll shouldCollect allocations xs = some (first, allocations₁))
    (after : receiveAll shouldCollect allocations₁ ys = some (second, allocations₂)) :
    receiveAll shouldCollect allocations (xs ++ ys) = some (first ++ second, allocations₂) := by
  induction xs generalizing allocations first with
  | nil =>
    simp only [receiveAll, Option.some.injEq, Prod.mk.injEq] at before
    obtain ⟨rfl, rfl⟩ := before
    exact after
  | cons blob xs ih =>
    simp only [receiveAll, Option.bind_eq_bind, Option.bind_eq_some_iff, Option.some.injEq,
      Prod.mk.injEq, Prod.exists] at before
    obtain ⟨result, table, received, results, _, rest, rfl, rfl⟩ := before
    simp [receiveAll, received, ih rest]

theorem tryRecvStream_message {blob : Blob} {message : Option (List UInt8 × Nat)}
    {allocations' : MergeAllocs}
    (received : receivePage shouldCollect allocations blob = some (message, allocations')) :
    ∃ result, tryRecvStream shouldCollect allocations (some blob) = some (result, allocations') ∧
      result.message = message := by
  cases message with
  | none => exact ⟨.potentiallyAvailable, by simp [tryRecvStream, received], rfl⟩
  | some message => exact ⟨.newCompleted message, by simp [tryRecvStream, received], rfl⟩

theorem receiveAll_one {blob : Blob} {message : Option (List UInt8 × Nat)}
    {allocations' : MergeAllocs}
    (received : receivePage shouldCollect allocations blob = some (message, allocations')) :
    ∃ results, receiveAll shouldCollect allocations [blob] = some (results, allocations') ∧
      completed results = message.toList := by
  obtain ⟨result, answered, same⟩ := tryRecvStream_message received
  refine ⟨[result], by simp [receiveAll, answered], ?_⟩
  cases message <;> simp [completed, same]

theorem receive_copies (inside : m.headerSize ≤ m.payload.length)
    (short : m.payload.length ≤ presetN) {blob : Blob} (whole : IsWhole blob m.payload m.headerSize)
    (wanted : shouldCollect m.header = true) (n : Nat) :
    ∃ results, receiveAll shouldCollect allocations (List.replicate n blob) =
        some (results, allocations) ∧
      completed results = List.replicate n (m.payload, m.headerSize) := by
  have collected : shouldCollect (m.payload.take m.headerSize) = true := wanted
  have page := receivePage_whole inside short shouldCollect allocations whole
  rw [if_pos collected] at page
  obtain ⟨once, one, single⟩ := receiveAll_one page
  induction n with
  | zero => exact ⟨[], rfl, rfl⟩
  | succ n ih =>
    obtain ⟨results, all, messages⟩ := ih
    refine ⟨results ++ once, ?_, ?_⟩
    · rw [List.replicate_succ']
      exact receiveAll_append all one
    · rw [completed_append, messages, single, List.replicate_succ']
      rfl

theorem receive_prefix (cut : m.Cut) (few : m.numChunks < 2 ^ 32)
    (wanted : shouldCollect m.header = true) (fresh : allocations m.identification = none)
    {n : Nat} (range : n ≤ m.numChunks) :
    ∃ results allocations', receiveAll shouldCollect allocations (m.pages.take n) =
        some (results, allocations') ∧
      Merging allocations' m (Finset.range n) ∧
      (∀ id, id ≠ m.identification → allocations' id = allocations id) ∧
      completed results = if n = m.numChunks then [(m.payload, m.headerSize)] else [] := by
  obtain ⟨count, each⟩ := cut.pages_spec
  obtain ⟨some_, _⟩ := cut.count
  induction n with
  | zero =>
    refine ⟨[], allocations, by simp [receiveAll], ?_, fun _ _ => rfl, ?_⟩
    · rw [Merging, if_pos (Or.inl Finset.range_zero)]
      exact fresh
    · rw [if_neg (by omega)]
      rfl
  | succ n ih =>
    obtain ⟨results, allocations₁, before, merging, others, messages⟩ := ih (by omega)
    obtain ⟨blob, page, fragment⟩ := each n range
    have received := receivePage_fragment cut few shouldCollect allocations₁ range fragment
    rw [if_pos wanted] at received
    obtain ⟨⟨message, allocations₂⟩, merge, merged⟩ := mergeFragment_spec cut
      (Finset.range_subset_range.mpr (by omega)) merging range (by simp) fragment
    rw [merge] at received
    obtain ⟨once, one, single⟩ := receiveAll_one received
    have sofar : insert n (Finset.range n) = Finset.range (n + 1) := Finset.range_add_one.symm
    have outcome := merged.message
    rw [sofar, Finset.card_range] at outcome
    refine ⟨results ++ once, allocations₂, ?_, sofar ▸ merged.merging, ?_, ?_⟩
    · rw [List.take_add_one, page]
      exact receiveAll_append before one
    · intro id other
      exact (merged.others id other).trans (others id other)
    · rw [completed_append, messages, single, if_neg (by omega)]
      simp only at outcome
      rw [outcome]
      split <;> rfl

theorem completed_at_end {results : List TryRecvStreamResult} {message : List UInt8 × Nat}
    {k : Nat} (length : results.length = k + 1) (each : ∀ n, n < k + 1 → results[n]? =
      some (if n = k then .newCompleted message else .potentiallyAvailable)) :
    completed results = [message] := by
  have shape : results = List.replicate k .potentiallyAvailable ++ [.newCompleted message] := by
    apply List.ext_getElem?
    intro n
    by_cases range : n < k + 1
    · rw [each n range]
      by_cases last : n = k
      · simp [last]
      · rw [if_neg last, List.getElem?_append_left (by rw [List.length_replicate]; omega),
          List.getElem?_replicate_of_lt (by omega)]
    · rw [List.getElem?_eq_none (by omega), List.getElem?_eq_none (by simp; omega)]
  have silent : completed (List.replicate k .potentiallyAvailable) = [] :=
    List.filterMap_replicate_of_none rfl
  rw [shape, completed_append, silent]
  rfl

theorem receive_shuffled (accepted : m.Accepted) (few : m.pages.length < 2 ^ 32)
    (wanted : shouldCollect m.header = true) {order : List Nat}
    (each : order.Perm (List.range m.pages.length)) :
    ∃ blobs results, order.mapM (fun i => m.pages[i]?) = some blobs ∧
      receiveAll shouldCollect .empty blobs = some (results, .empty) ∧
      completed results = [(m.payload, m.headerSize)] := by
  have sent : Sent [m] := by
    refine ⟨by simpa using accepted, by simpa using few, ?_⟩
    intro j k n n' here there _ _ _
    have first := (List.getElem?_eq_some_iff.mp here).1
    have second := (List.getElem?_eq_some_iff.mp there).1
    simp only [List.length_singleton] at first second
    omega
  have page (i : Nat) : pageAt [m] (0, i) = m.pages[i]? := rfl
  have once : EachOnce [m] (order.map fun i => (0, i)) := by
    constructor
    · have distinct := each.nodup_iff.mpr List.nodup_range
      exact distinct.map fun i j same => congrArg Prod.snd same
    · rintro ⟨j, i⟩
      simp only [List.mem_map, Prod.mk.injEq, each.mem_iff, List.mem_range]
      constructor
      · rintro ⟨i, range, rfl, rfl⟩
        rw [page, List.getElem?_eq_getElem range]
        rfl
      · intro some_
        obtain ⟨blob, here⟩ := Option.isSome_iff_exists.mp some_
        obtain ⟨n, there, inside⟩ := pageAt_some here
        have first := (List.getElem?_eq_some_iff.mp there).1
        simp only [List.length_singleton] at first
        obtain rfl : j = 0 := by omega
        rw [← here, page] at inside
        cases Option.some.inj there
        exact ⟨i, (List.getElem?_eq_some_iff.mp (inside.trans here)).1, rfl, rfl⟩
  obtain ⟨blobs, results, allocations, pages, all, holding, length, answers⟩ :=
    receiveAll_holding sent (order.map fun i => (0, i)) [] .empty once holding_empty
  obtain rfl := holding.finished sent once
  rw [List.mapM_map] at pages
  refine ⟨blobs, results, pages, all, ?_⟩
  obtain ⟨k, size⟩ : ∃ k, order.length = k + 1 := by
    have some_ : 0 < m.pages.length := by
      obtain ⟨p, member, _⟩ := some_page sent once (show [m][0]? = some m from rfl)
      obtain ⟨i, there, _⟩ := List.mem_map.mp member
      have range := List.mem_range.mp (each.mem_iff.mp there)
      omega
    have same := each.length_eq
    rw [List.length_range] at same
    exact ⟨order.length - 1, by omega⟩
  rw [List.length_map, size] at length
  refine completed_at_end length fun n range => ?_
  obtain ⟨i, here⟩ : ∃ i, order[n]? = some i := ⟨order[n], List.getElem?_eq_getElem (by omega)⟩
  rw [answers n 0 i m (by simp [here]) rfl, answer, ← List.map_drop]
  by_cases last : n = k
  · have nothing : order.drop (n + 1) = [] := List.drop_eq_nil_of_le (by omega)
    have behind : ∀ p ∈ ([] : List (Nat × Nat)), p.1 ≠ 0 := by simp
    rw [nothing, List.map_nil, if_pos ⟨wanted, behind⟩, if_pos last]
  · have more : order.drop (n + 1) ≠ [] := by
      rw [Ne, List.drop_eq_nil_iff]
      omega
    obtain ⟨x, member⟩ := List.exists_mem_of_ne_nil _ more
    rw [if_neg, if_neg last]
    rintro ⟨_, none_⟩
    exact none_ (0, x) (List.mem_map_of_mem member) rfl

section Wrapped

def Below (length : Nat) (allocations : MergeAllocs) : Prop :=
  ∀ id e, allocations id = some e → e.allocation.length < length

theorem entryOrInsert_below {length numChunks totalLen headerSize : Nat} {blob : Blob}
    {identification : UInt64} {e : Merge} (below : Below length allocations)
    (total : totalLen < length)
    (found : entryOrInsert allocations blob numChunks totalLen identification headerSize = some e) :
    e.allocation.length < length := by
  unfold entryOrInsert at found
  split at found
  · rename_i entry there
    cases found
    exact below _ _ there
  · simp only [Option.bind_eq_bind, Option.bind_eq_some_iff, Option.some.injEq] at found
    obtain ⟨header, _, allocation, copied, rfl⟩ := found
    rw [ByteBuffer.copy_length copied, List.length_replicate]
    exact total

theorem below_update {length : Nat} (below : Below length allocations) (identification : UInt64)
    {entry : Option Merge} (short : ∀ e, entry = some e → e.allocation.length < length) :
    Below length (Function.update allocations identification entry) := by
  intro id e there
  by_cases same : id = identification
  · rw [same, Function.update_self] at there
    exact short e there
  · rw [Function.update_of_ne same] at there
    exact below id e there

theorem mergeAt_below {length chunkI numChunks headerSize : Nat} {blob : Blob}
    {identification : UInt64} {d : Destination} {message : Option (List UInt8 × Nat)}
    {allocations' : MergeAllocs} (below : Below length allocations) (total : d.totalLen < length)
    (merged : mergeAt allocations blob chunkI numChunks identification headerSize d =
      some (message, allocations')) :
    Below length allocations' ∧ ∀ p h, message = some (p, h) → p.length < length := by
  simp only [mergeAt, Option.bind_eq_bind, Option.bind_eq_some_iff] at merged
  obtain ⟨entry, found, isMerged, _, merged⟩ := merged
  have short := entryOrInsert_below below total found
  split at merged
  · cases merged
    refine ⟨below_update below _ ?_, by simp⟩
    rintro e ⟨⟩
    exact short
  · simp only [Option.bind_eq_some_iff] at merged
    obtain ⟨chunk, _, allocation, copied, merged⟩ := merged
    have kept : allocation.length < length := by
      rw [ByteBuffer.copy_length copied]
      exact short
    split at merged
    · cases merged
      refine ⟨below_update below _ (by simp), ?_⟩
      rintro p h ⟨⟩
      exact kept
    · cases merged
      refine ⟨below_update below _ ?_, by simp⟩
      rintro e ⟨⟩
      exact kept

theorem read_length {blob : Blob} {a b : Nat} {bytes : List UInt8}
    (done : blob.read a b = some bytes) : bytes.length ≤ presetN := by
  unfold Blob.read ByteBuffer.slice at done
  split at done
  · cases done
    rw [List.length_drop, List.length_take, blob.size]
    omega
  · cases done

theorem wrapped_step (cut : m.Cut) (many : 2 ^ 32 ≤ m.numChunks)
    (below : Below m.payload.length allocations) {i : Nat} {blob : Blob}
    (fragment : IsFragment blob m.remainder i m.numChunks m.identification m.headerSize m.header
      (m.chunk i)) {message : Option (List UInt8 × Nat)} {allocations' : MergeAllocs}
    (received : receivePage shouldCollect allocations blob = some (message, allocations')) :
    Below m.payload.length allocations' ∧
      ∀ p h, message = some (p, h) → p.length < m.payload.length := by
  have positive := cut.size_positive
  have long := cut.long
  obtain ⟨_, whole⟩ := cut.count
  have large : presetN < m.payload.length := by
    have bound : 2 ^ 32 - 1 ≤ (m.numChunks - 1) * m.chunkSize := by
      calc 2 ^ 32 - 1 ≤ m.numChunks - 1 := by omega
        _ ≤ (m.numChunks - 1) * m.chunkSize := Nat.le_mul_of_pos_right _ positive
    unfold presetN
    omega
  have wrapped : m.numChunks % 2 ^ 32 < 2 ^ 32 := Nat.mod_lt _ (by decide)
  have destination := cut.destination fragment
  simp only [Blob.destination, fragment.remainder, fragment.index, fragment.count, fragment.sized,
    Option.bind_eq_bind, Option.bind_some] at destination
  simp only [receivePage, fragment.remainder, fragment.index, fragment.count, fragment.identified,
    fragment.sized, Option.bind_eq_bind, Option.bind_some] at received
  split at received
  · -- The count has become zero: the page is taken for a whole payload.
    simp only [Option.bind_eq_some_iff] at received
    obtain ⟨_, _, received⟩ := received
    split at received
    · simp only [Option.bind_eq_some_iff, Option.some.injEq, Prod.mk.injEq] at received
      obtain ⟨payload, read, rfl, rfl⟩ := received
      refine ⟨below, ?_⟩
      rintro p h ⟨⟩
      exact (read_length read).trans_lt large
    · cases received
      exact ⟨below, by simp⟩
  · rename_i nonzero
    rw [if_neg nonzero] at destination
    simp only [Option.bind_eq_some_iff] at received
    obtain ⟨_, _, received⟩ := received
    split at received
    · have fits : m.numChunks % 2 ^ 32 ≠ 0 := by
        rwa [ByteBuffer.decode_encode] at nonzero
      rw [if_neg fits] at destination
      rw [mergeFragment_destination, destination] at received
      refine mergeAt_below below ?_ received
      have fewer : (m.numChunks % 2 ^ 32 - 1) * m.chunkSize < (m.numChunks - 1) * m.chunkSize :=
        Nat.mul_lt_mul_of_pos_right (by omega) positive
      simp only
      omega
    · cases received
      exact ⟨below, by simp⟩

/-- However often the message is sent, and whichever of its pages arrive. -/
theorem receive_wrapped {payload : List UInt8} {headerSize : Nat}
    (cut : ∀ identification, Message.Cut ⟨payload, headerSize, identification⟩)
    (many : 2 ^ 32 ≤ (Message.mk payload headerSize 0).numChunks) {blobs : List Blob}
    (sent : ∀ blob ∈ blobs, ∃ identification,
      blob ∈ (Message.mk payload headerSize identification).pages)
    {results : List TryRecvStreamResult} {allocations' : MergeAllocs}
    (below : Below payload.length allocations)
    (received : receiveAll shouldCollect allocations blobs = some (results, allocations')) :
    ∀ p h, (p, h) ∈ completed results → p.length < payload.length := by
  induction blobs generalizing allocations results with
  | nil =>
    simp only [receiveAll, Option.some.injEq, Prod.mk.injEq] at received
    obtain ⟨rfl, rfl⟩ := received
    simp
  | cons blob blobs ih =>
    simp only [receiveAll, tryRecvStream, Option.bind_eq_bind, Option.bind_eq_some_iff,
      Option.some.injEq, Prod.mk.injEq, Prod.exists] at received
    obtain ⟨result, table, ⟨message, table', page, answered⟩, rest, _, all, rfl, rfl⟩ := received
    obtain ⟨identification, member⟩ := sent blob (List.mem_cons_self ..)
    obtain ⟨count, each⟩ := (cut identification).pages_spec
    obtain ⟨i, here⟩ := List.mem_iff_getElem?.mp member
    obtain ⟨blob', there, fragment⟩ := each i (count ▸ (List.getElem?_eq_some_iff.mp here).1)
    obtain rfl := Option.some.inj (here.symm.trans there)
    obtain ⟨below', short⟩ := wrapped_step (cut identification) many below fragment page
    have same : table' = table := by
      cases message <;> cases answered <;> rfl
    have later := ih (fun blob' after => sent blob' (List.mem_cons_of_mem _ after))
      (same ▸ below') all
    cases message with
    | none =>
      cases answered
      exact later
    | some message =>
      cases answered
      intro p h out
      rcases List.mem_cons.mp out with now | after
      · exact short p h (congrArg some now.symm)
      · exact later p h after

end Wrapped

end Iox2
