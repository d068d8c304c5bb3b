import SkyCurrent.Iox2.Interleaved

/- Pages that are lost, come twice or come too late. An entry of the merge table may then be
   abandoned, or made again for a message that has long been complete, but it is never wrong
   about the message it belongs to. -/
namespace Iox2

def receiveEach (allocations : MergeAllocs) : List (Blob × (List UInt8 → Bool)) →
    Option (List TryRecvStreamResult × MergeAllocs)
  | [] => some ([], allocations)
  | (blob, shouldCollect) :: arrivals => do
    let (result, allocations) ← tryRecvStream shouldCollect allocations (some blob)
    let (results, allocations) ← receiveEach allocations arrivals
    some (result :: results, allocations)

/-- Every entry is the one of a message that was sent, with some chunks there and some missing. -/
def Partial (messages : List Message) (allocations : MergeAllocs) : Prop :=
  ∀ id e, allocations id = some e → ∃ m ∈ messages, m.Fragmented ∧ m.identification = id ∧
    ∃ arrived : Finset Nat, arrived.Nonempty ∧ arrived ⊂ Finset.range m.numChunks ∧
      EntryOf m arrived e

section Page

variable {messages : List Message} {allocations : MergeAllocs} {m : Message}

theorem partial_empty : Partial messages .empty := by
  intro id e entry
  cases entry

theorem Sent.same (sent : Sent messages) {n : Message} (hm : m ∈ messages) (hn : n ∈ messages)
    (fragmentedM : m.Fragmented) (fragmentedN : n.Fragmented)
    (clash : m.identification = n.identification) : m = n := by
  obtain ⟨j, here⟩ := List.mem_iff_getElem?.mp hm
  obtain ⟨k, there⟩ := List.mem_iff_getElem?.mp hn
  obtain rfl := sent.distinct j k m n here there fragmentedM fragmentedN clash
  exact Option.some.inj (here.symm.trans there)

theorem Partial.merging (sent : Sent messages) (held : Partial messages allocations)
    (member : m ∈ messages) (fragmented : m.Fragmented) :
    ∃ arrived : Finset Nat, arrived ⊂ Finset.range m.numChunks ∧
      Merging allocations m arrived ∧
      (arrived.Nonempty → ∃ e, allocations m.identification = some e ∧ EntryOf m arrived e) := by
  cases entry : allocations m.identification with
  | none =>
    refine ⟨∅, ?_, ?_, fun some_ => absurd some_ Finset.not_nonempty_empty⟩
    · obtain ⟨_, ⟨short, _⟩ | ⟨cut, _⟩⟩ := (sent.accepted m member).pages_spec
      · exact absurd fragmented short
      · exact Finset.empty_ssubset.mpr ⟨0, Finset.mem_range.mpr cut.count.1⟩
    · rw [Merging, if_pos (Or.inl rfl)]
      exact entry
  | some e =>
    obtain ⟨n, memberN, fragmentedN, same, arrived, some_, inside, entryOf⟩ := held _ e entry
    obtain rfl := sent.same memberN member fragmentedN fragmented same
    refine ⟨arrived, inside, ?_, fun _ => ⟨e, rfl, entryOf⟩⟩
    have notFull : arrived.card ≠ n.numChunks := by
      have fewer := Finset.card_lt_card inside
      rw [Finset.card_range] at fewer
      omega
    rw [Merging, if_neg (by simp [some_.ne_empty, notFull])]
    exact ⟨e, entry, entryOf⟩

theorem Partial.merged (held : Partial messages allocations) (member : m ∈ messages)
    (fragmented : m.Fragmented) {arrived : Finset Nat} (some_ : arrived.Nonempty)
    (inside : arrived ⊆ Finset.range m.numChunks) {result : Option (List UInt8 × Nat) × MergeAllocs}
    (merged : Merged allocations m arrived result) : Partial messages result.2 := by
  intro id e entry
  by_cases same : id = m.identification
  · subst same
    have merging := merged.merging
    unfold Merging at merging
    split at merging
    · rw [merging] at entry
      cases entry
    · rename_i notFull
      obtain ⟨e', there, entryOf⟩ := merging
      obtain rfl := Option.some.inj (there.symm.trans entry)
      refine ⟨m, member, fragmented, rfl, arrived, some_, ?_, entryOf⟩
      refine Finset.ssubset_iff_subset_ne.mpr ⟨inside, ?_⟩
      rintro rfl
      exact notFull (Or.inr (Finset.card_range _))
  · rw [merged.others id same] at entry
    exact held id e entry

theorem mergeFragment_again (cut : m.Cut) {e : Merge} {arrived : Finset Nat}
    (entry : allocations m.identification = some e) (entryOf : EntryOf m arrived e) (blob : Blob)
    {i : Nat} (range : i < m.numChunks) (there : i ∈ arrived) :
    mergeFragment allocations blob m.remainder i m.numChunks m.identification m.headerSize =
      some (none, allocations) := by
  have room := cut.room
  have size : checkedSub (presetN - 8 - 8 - 8 - 8) m.headerSize = some m.chunkSize := by
    rw [checkedSub, if_pos (by omega)]
    rfl
  have already : e.merged[i]? = some true := by
    rw [entryOf.isMerged range]
    simp [there]
  have unchanged : Function.update allocations m.identification (some e) = allocations := by
    rw [← entry, Function.update_eq_self]
  simp [mergeFragment, size, entryOrInsert, entry, already, unchanged]

/-- What one page does, whenever it comes and however often it has come before. -/
theorem partial_step (sent : Sent messages) (held : Partial messages allocations)
    (member : m ∈ messages) {i : Nat} {blob : Blob} (page : m.pages[i]? = some blob)
    (shouldCollect : List UInt8 → Bool) :
    ∃ result allocations', tryRecvStream shouldCollect allocations (some blob) =
        some (result, allocations') ∧
      Partial messages allocations' ∧
      ∀ message, result = .newCompleted message → message = (m.payload, m.headerSize) := by
  have range := (List.getElem?_eq_some_iff.mp page).1
  obtain ⟨_, ⟨short, _⟩ | ⟨cut, size, each⟩⟩ := (sent.accepted m member).pages_spec
  · obtain ⟨_, _, received⟩ :=
      tryRecvStream_single (sent.accepted m member) short page shouldCollect allocations
    refine ⟨_, allocations, received, held, ?_⟩
    intro message completed
    split at completed <;> cases completed
    rfl
  · have few := sent.few m member
    rw [size] at few range
    have fragmented : m.Fragmented := cut.long
    obtain ⟨blob', there, fragment⟩ := each i range
    obtain rfl := Option.some.inj (page.symm.trans there)
    have received := receivePage_fragment cut few shouldCollect allocations range fragment
    by_cases wanted : shouldCollect m.header = true
    · rw [if_pos wanted] at received
      obtain ⟨arrived, inside, merging, entry⟩ := held.merging sent member fragmented
      by_cases again : i ∈ arrived
      · obtain ⟨e, there, entryOf⟩ := entry ⟨i, again⟩
        rw [mergeFragment_again cut there entryOf blob range again] at received
        refine ⟨.potentiallyAvailable, allocations, ?_, held, ?_⟩
        · simp [tryRecvStream, received]
        · intro message other
          cases other
      · obtain ⟨⟨completed, allocations'⟩, merge, merged⟩ :=
          mergeFragment_spec cut inside.subset merging range again fragment
        rw [merge] at received
        have held' := held.merged member fragmented (Finset.insert_nonempty i arrived)
          (Finset.insert_subset (Finset.mem_range.mpr range) inside.subset) merged
        have outcome := merged.message
        simp only at outcome
        split at outcome
        · refine ⟨.newCompleted (m.payload, m.headerSize), allocations', ?_, held', ?_⟩
          · simp [tryRecvStream, received, outcome]
          · rintro message ⟨⟩
            rfl
        · refine ⟨.potentiallyAvailable, allocations', ?_, held', ?_⟩
          · simp [tryRecvStream, received, outcome]
          · intro message other
            cases other
    · rw [if_neg wanted] at received
      refine ⟨.potentiallyAvailable, allocations, ?_, held, ?_⟩
      · simp [tryRecvStream, received]
      · intro message other
        cases other

end Page

abbrev Arrival := (Nat × Nat) × (List UInt8 → Bool)

def arrives (messages : List Message) (a : Arrival) : Option (Blob × (List UInt8 → Bool)) :=
  (pageAt messages a.1).map (·, a.2)

theorem receiveEach_partial {messages : List Message} (sent : Sent messages)
    (arrivals : List Arrival) (drawn : ∀ a ∈ arrivals, (pageAt messages a.1).isSome = true) :
    ∀ allocations, Partial messages allocations →
      ∃ blobs results allocations', arrivals.mapM (arrives messages) = some blobs ∧
        receiveEach allocations blobs = some (results, allocations') ∧
        results.length = arrivals.length ∧
        ∀ (n : Nat) message, results[n]? = some (.newCompleted message) →
          ∃ j i shouldCollect m, arrivals[n]? = some ((j, i), shouldCollect) ∧
            messages[j]? = some m ∧ message = (m.payload, m.headerSize) := by
  induction arrivals with
  | nil =>
    intro allocations held
    exact ⟨[], [], allocations, rfl, rfl, rfl, by simp⟩
  | cons a arrivals ih =>
    intro allocations held
    obtain ⟨⟨j, i⟩, shouldCollect⟩ := a
    obtain ⟨blob, here⟩ := Option.isSome_iff_exists.mp (drawn _ (List.mem_cons_self ..))
    obtain ⟨m, message, page⟩ := pageAt_some here
    obtain ⟨result, allocations₁, received, held₁, completed⟩ :=
      partial_step sent held (List.mem_of_getElem? message) page shouldCollect
    obtain ⟨blobs, results, allocations', pages, all, length, each⟩ :=
      ih (fun a later => drawn a (List.mem_cons_of_mem _ later)) allocations₁ held₁
    have arrived : arrives messages ((j, i), shouldCollect) = some (blob, shouldCollect) := by
      rw [arrives, here]
      rfl
    refine ⟨(blob, shouldCollect) :: blobs, result :: results, allocations', ?_, ?_, ?_, ?_⟩
    · simp [List.mapM_cons, arrived, pages]
    · simp [receiveEach, received, all]
    · simp [length]
    · intro n message' there
      cases n with
      | zero =>
        have outcome : result = .newCompleted message' := by simpa using there
        exact ⟨j, i, shouldCollect, m, rfl, message, completed message' outcome⟩
      | succ n => exact each n message' (by simpa using there)

/-- Whatever pages of the messages arrive, in whatever order and how often, and whatever
    should_collect answers: no call fails, and what comes out with a page is the message the
    page belongs to. -/
theorem never_corrupted (messages : List Message) (sent : Sent messages) (arrivals : List Arrival)
    (drawn : ∀ a ∈ arrivals, (pageAt messages a.1).isSome = true) :
    ∃ blobs results allocations, arrivals.mapM (arrives messages) = some blobs ∧
      receiveEach .empty blobs = some (results, allocations) ∧
      results.length = arrivals.length ∧
      ∀ (n : Nat) message, results[n]? = some (.newCompleted message) →
        ∃ j i shouldCollect m, arrivals[n]? = some ((j, i), shouldCollect) ∧
          messages[j]? = some m ∧ message = (m.payload, m.headerSize) :=
  receiveEach_partial sent arrivals drawn .empty partial_empty

/-- Page 0 of the second message three times around its completion, page 1 of the third once
    unwanted and once wanted, and the first message twice. -/
def someArrivals : List Arrival :=
  [((1, 0), fun _ => true), ((1, 0), fun _ => true), ((2, 1), fun _ => false),
    ((0, 0), fun _ => true), ((1, 1), fun _ => true), ((1, 0), fun _ => true),
    ((2, 1), fun _ => true), ((0, 0), fun _ => true)]

theorem never_corrupted_late_pages : ∃ blobs results allocations,
    someArrivals.mapM (arrives someMessages) = some blobs ∧
      receiveEach .empty blobs = some (results, allocations) ∧ results.length = 8 ∧
      ∀ (n : Nat) message, results[n]? = some (.newCompleted message) →
        ∃ j i shouldCollect m, someArrivals[n]? = some ((j, i), shouldCollect) ∧
          someMessages[j]? = some m ∧ message = (m.payload, m.headerSize) := by
  have drawn : ∀ a ∈ someArrivals, (pageAt someMessages a.1).isSome = true := by
    intro a member
    rw [← someOrder_each.all]
    have there : a.1 ∈ someArrivals.map (·.1) := List.mem_map_of_mem member
    generalize a.1 = p at there
    revert p
    decide
  exact never_corrupted someMessages someMessages_sent someArrivals drawn

end Iox2
