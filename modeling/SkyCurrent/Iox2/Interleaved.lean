import SkyCurrent.Iox2.Reassembly

/- The pages of many messages, in any order and mixed with each other, one at a time. -/
namespace Iox2

/-- Messages that were sent, whose fragments can be told apart. -/
structure Sent (messages : List Message) : Prop where
  accepted : ∀ m ∈ messages, m.Accepted
  few : ∀ m ∈ messages, m.pages.length < 2 ^ 32
  distinct : ∀ (j k : Nat) (m n : Message), messages[j]? = some m → messages[k]? = some n →
    m.Fragmented → n.Fragmented → m.identification = n.identification → j = k

def pageAt (messages : List Message) (p : Nat × Nat) : Option Blob := do
  let m ← messages[p.1]?
  m.pages[p.2]?

structure EachOnce (messages : List Message) (order : List (Nat × Nat)) : Prop where
  nodup : order.Nodup
  all : ∀ p, p ∈ order ↔ (pageAt messages p).isSome = true

def receiveAll (shouldCollect : List UInt8 → Bool) (allocations : MergeAllocs) :
    List Blob → Option (List TryRecvStreamResult × MergeAllocs)
  | [] => some ([], allocations)
  | blob :: blobs => do
    let (result, allocations) ← tryRecvStream shouldCollect allocations (some blob)
    let (results, allocations) ← receiveAll shouldCollect allocations blobs
    some (result :: results, allocations)

variable {messages : List Message} {shouldCollect : List UInt8 → Bool}

def arrivedOf (done : List (Nat × Nat)) (j : Nat) : Finset Nat :=
  ((done.filter (·.1 = j)).map (·.2)).toFinset

@[simp] theorem mem_arrivedOf (done : List (Nat × Nat)) (j i : Nat) :
    i ∈ arrivedOf done j ↔ (j, i) ∈ done := by
  simp [arrivedOf]

theorem arrivedOf_snoc (done : List (Nat × Nat)) (j i : Nat) :
    arrivedOf (done ++ [(j, i)]) j = insert i (arrivedOf done j) := by
  ext x
  simp [or_comm]

theorem arrivedOf_other (done : List (Nat × Nat)) {j k : Nat} (i : Nat) (other : k ≠ j) :
    arrivedOf (done ++ [(j, i)]) k = arrivedOf done k := by
  ext x
  simp [other]

/-- The table holds what has arrived of the messages that are wanted, and nothing else. -/
structure Holding (shouldCollect : List UInt8 → Bool) (messages : List Message)
    (done : List (Nat × Nat)) (allocations : MergeAllocs) : Prop where
  merging : ∀ (j : Nat) m, messages[j]? = some m → m.Fragmented → shouldCollect m.header = true →
    Merging allocations m (arrivedOf done j)
  others : ∀ id, (∀ (j : Nat) m, messages[j]? = some m → m.Fragmented →
    shouldCollect m.header = true → m.identification ≠ id) → allocations id = none

theorem holding_empty : Holding shouldCollect messages [] .empty := by
  refine ⟨?_, fun _ _ => rfl⟩
  intro j m _ _ _
  have nothing : arrivedOf [] j = ∅ := rfl
  rw [Merging, if_pos (Or.inl nothing)]
  rfl

theorem pageAt_some {p : Nat × Nat} {blob : Blob} (here : pageAt messages p = some blob) :
    ∃ m, messages[p.1]? = some m ∧ m.pages[p.2]? = some blob := by
  simpa [pageAt, Option.bind_eq_some_iff] using here

theorem arrivedOf_range {done : List (Nat × Nat)} {j : Nat} {m : Message}
    (known : ∀ p ∈ done, (pageAt messages p).isSome = true) (message : messages[j]? = some m) :
    arrivedOf done j ⊆ Finset.range m.pages.length := by
  intro i member
  rw [mem_arrivedOf] at member
  obtain ⟨blob, here⟩ := Option.isSome_iff_exists.mp (known _ member)
  obtain ⟨n, there, page⟩ := pageAt_some here
  obtain rfl := Option.some.inj (message.symm.trans there)
  exact Finset.mem_range.mpr (List.getElem?_eq_some_iff.mp page).1

theorem Holding.ignore {done : List (Nat × Nat)} {allocations : MergeAllocs}
    (holding : Holding shouldCollect messages done allocations) {j : Nat} (i : Nat) {m : Message}
    (message : messages[j]? = some m)
    (ignored : ¬ (m.Fragmented ∧ shouldCollect m.header = true)) :
    Holding shouldCollect messages (done ++ [(j, i)]) allocations := by
  refine ⟨?_, holding.others⟩
  intro k n there fragmented wanted
  have other : k ≠ j := by
    rintro rfl
    obtain rfl := Option.some.inj (message.symm.trans there)
    exact ignored ⟨fragmented, wanted⟩
  rw [arrivedOf_other done i other]
  exact holding.merging k n there fragmented wanted

theorem Holding.merge (sent : Sent messages) {done : List (Nat × Nat)}
    {allocations : MergeAllocs} (holding : Holding shouldCollect messages done allocations)
    {j i : Nat} {m : Message} (message : messages[j]? = some m) (fragmented : m.Fragmented)
    (wanted : shouldCollect m.header = true)
    {result : Option (List UInt8 × Nat) × MergeAllocs}
    (merged : Merged allocations m (insert i (arrivedOf done j)) result) :
    Holding shouldCollect messages (done ++ [(j, i)]) result.2 := by
  constructor
  · intro k n there fragmentedN wantedN
    by_cases same : k = j
    · subst same
      obtain rfl := Option.some.inj (message.symm.trans there)
      rw [arrivedOf_snoc]
      exact merged.merging
    · have apart : n.identification ≠ m.identification := fun clash =>
        same (sent.distinct k j n m there message fragmentedN fragmented clash)
      rw [arrivedOf_other done i same]
      have before := holding.merging k n there fragmentedN wantedN
      unfold Merging at before ⊢
      rw [merged.others _ apart]
      exact before
  · intro id nobody
    rw [merged.others id (Ne.symm (nobody j m message fragmented wanted))]
    exact holding.others id nobody

theorem tryRecvStream_single {m : Message} (accepted : m.Accepted) (short : ¬ m.Fragmented)
    {i : Nat} {blob : Blob} (page : m.pages[i]? = some blob) (shouldCollect : List UInt8 → Bool)
    (allocations : MergeAllocs) :
    m.pages.length = 1 ∧ i = 0 ∧ tryRecvStream shouldCollect allocations (some blob) =
      some (if shouldCollect m.header = true then .newCompleted (m.payload, m.headerSize)
        else .potentiallyAvailable, allocations) := by
  obtain ⟨within, ⟨_, blob', pages, whole⟩ | ⟨cut, _⟩⟩ := accepted.pages_spec
  · have range := (List.getElem?_eq_some_iff.mp page).1
    have one : m.pages.length = 1 := by rw [pages, List.length_singleton]
    have first : i = 0 := by omega
    rw [pages, first] at page
    obtain rfl := Option.some.inj page
    have received := receivePage_whole within
      (by unfold Message.Fragmented at short; unfold presetN at short ⊢; omega)
      shouldCollect allocations whole
    have header : m.payload.take m.headerSize = m.header := rfl
    refine ⟨one, first, ?_⟩
    cases wanted : shouldCollect m.header <;> simp [tryRecvStream, received, header, wanted]
  · exact absurd cut.long short

theorem holding_step (sent : Sent messages) {done : List (Nat × Nat)} {allocations : MergeAllocs}
    (holding : Holding shouldCollect messages done allocations)
    (known : ∀ p ∈ done, (pageAt messages p).isSome = true) {j i : Nat} {m : Message} {blob : Blob}
    (message : messages[j]? = some m) (page : m.pages[i]? = some blob) (fresh : (j, i) ∉ done) :
    ∃ result allocations', tryRecvStream shouldCollect allocations (some blob) =
        some (result, allocations') ∧
      Holding shouldCollect messages (done ++ [(j, i)]) allocations' ∧
      result = if shouldCollect m.header = true ∧
          (insert i (arrivedOf done j)).card = m.pages.length then
        .newCompleted (m.payload, m.headerSize) else .potentiallyAvailable := by
  have member : m ∈ messages := List.mem_of_getElem? message
  have range := (List.getElem?_eq_some_iff.mp page).1
  have inside := arrivedOf_range known message
  have notYet : i ∉ arrivedOf done j := by simpa using fresh
  have card := Finset.card_insert_of_notMem notYet
  obtain ⟨_, ⟨short, _⟩ | ⟨cut, size, each⟩⟩ := (sent.accepted m member).pages_spec
  · obtain ⟨one, first, received⟩ :=
      tryRecvStream_single (sent.accepted m member) short page shouldCollect allocations
    have nothing : arrivedOf done j = ∅ := by
      apply Finset.eq_empty_of_forall_notMem
      intro x earlier
      have below := Finset.mem_range.mp (inside earlier)
      have same : x = i := by omega
      exact notYet (same ▸ earlier)
    have done_ := holding.ignore i message fun both => short both.1
    refine ⟨_, allocations, received, done_, ?_⟩
    rw [nothing, one]
    simp
  · have few := sent.few m member
    rw [size] at few range inside
    have fragmented : m.Fragmented := cut.long
    obtain ⟨blob', there, fragment⟩ := each i range
    obtain rfl := Option.some.inj (page.symm.trans there)
    have received := receivePage_fragment cut few shouldCollect allocations range fragment
    by_cases wanted : shouldCollect m.header = true
    · rw [if_pos wanted] at received
      have before := holding.merging j m message fragmented wanted
      obtain ⟨⟨completed, allocations'⟩, merge, merged⟩ :=
        mergeFragment_spec cut inside before range notYet fragment
      rw [merge] at received
      have after := holding.merge sent message fragmented wanted merged
      have outcome := merged.message
      simp only at outcome
      rw [size]
      by_cases full : (insert i (arrivedOf done j)).card = m.numChunks
      · rw [if_pos full] at outcome
        refine ⟨.newCompleted (m.payload, m.headerSize), allocations', ?_, after, ?_⟩
        · simp [tryRecvStream, received, outcome]
        · rw [if_pos ⟨wanted, full⟩]
      · rw [if_neg full] at outcome
        refine ⟨.potentiallyAvailable, allocations', ?_, after, ?_⟩
        · simp [tryRecvStream, received, outcome]
        · rw [if_neg fun both => full both.2]
    · rw [if_neg wanted] at received
      refine ⟨.potentiallyAvailable, allocations, ?_,
        holding.ignore i message fun both => wanted both.2, ?_⟩
      · simp [tryRecvStream, received]
      · rw [if_neg fun both => wanted both.1]

theorem Holding.finished (sent : Sent messages) {order : List (Nat × Nat)}
    {allocations : MergeAllocs} (holding : Holding shouldCollect messages order allocations)
    (each : EachOnce messages order) : allocations = .empty := by
  funext id
  by_cases nobody : ∀ (j : Nat) m, messages[j]? = some m → m.Fragmented →
      shouldCollect m.header = true → m.identification ≠ id
  · exact holding.others id nobody
  · simp only [not_forall, not_not] at nobody
    obtain ⟨j, m, message, fragmented, wanted, rfl⟩ := nobody
    have merging := holding.merging j m message fragmented wanted
    obtain ⟨_, ⟨short, _⟩ | ⟨cut, size, _⟩⟩ :=
      (sent.accepted m (List.mem_of_getElem? message)).pages_spec
    · exact absurd fragmented short
    · have whole : arrivedOf order j = Finset.range m.numChunks := by
        ext i
        rw [mem_arrivedOf, each.all, Finset.mem_range, ← size]
        simp [pageAt, message]
      rw [Merging, if_pos (Or.inr (by rw [whole, Finset.card_range]))] at merging
      exact merging

theorem last_page {done rest : List (Nat × Nat)} {j i : Nat} {m : Message}
    (each : EachOnce messages (done ++ (j, i) :: rest)) (message : messages[j]? = some m) :
    (insert i (arrivedOf done j)).card = m.pages.length ↔ ∀ p ∈ rest, p.1 ≠ j := by
  have page (x : Nat) : (j, x) ∈ done ++ (j, i) :: rest ↔ x < m.pages.length := by
    rw [each.all]
    simp [pageAt, message]
  have inside : insert i (arrivedOf done j) ⊆ Finset.range m.pages.length := by
    intro x member
    rw [Finset.mem_range, ← page]
    simp only [Finset.mem_insert, mem_arrivedOf] at member
    rcases member with rfl | before
    · simp
    · simp [before]
  have apart := List.nodup_append.mp each.nodup
  constructor
  · intro full p later same
    have whole := Finset.eq_of_subset_of_card_le inside (by rw [Finset.card_range, full])
    obtain ⟨k, x⟩ := p
    obtain rfl : k = j := same
    have arrived : x ∈ insert i (arrivedOf done k) := by
      rw [whole, Finset.mem_range, ← page]
      simp [later]
    simp only [Finset.mem_insert, mem_arrivedOf] at arrived
    rcases arrived with rfl | before
    · exact (List.nodup_cons.mp apart.2.1).1 later
    · exact apart.2.2 _ before _ (List.mem_cons_of_mem _ later) rfl
  · intro none
    have whole : insert i (arrivedOf done j) = Finset.range m.pages.length := by
      apply Finset.Subset.antisymm inside
      intro x range
      rw [Finset.mem_range, ← page] at range
      simp only [Finset.mem_insert, mem_arrivedOf]
      rcases List.mem_append.mp range with before | after
      · exact Or.inr before
      · rcases List.mem_cons.mp after with here | later
        · exact Or.inl (congrArg Prod.snd here)
        · exact absurd rfl (none _ later)
    rw [whole, Finset.card_range]

def answer (shouldCollect : List UInt8 → Bool) (m : Message) (j : Nat)
    (rest : List (Nat × Nat)) : TryRecvStreamResult :=
  if shouldCollect m.header = true ∧ ∀ p ∈ rest, p.1 ≠ j then
    .newCompleted (m.payload, m.headerSize)
  else .potentiallyAvailable

theorem receiveAll_holding (sent : Sent messages) (rest : List (Nat × Nat)) :
    ∀ (done : List (Nat × Nat)) (allocations : MergeAllocs),
      EachOnce messages (done ++ rest) → Holding shouldCollect messages done allocations →
      ∃ blobs results allocations', rest.mapM (pageAt messages) = some blobs ∧
        receiveAll shouldCollect allocations blobs = some (results, allocations') ∧
        Holding shouldCollect messages (done ++ rest) allocations' ∧
        results.length = rest.length ∧
        ∀ (n j i : Nat) m, rest[n]? = some (j, i) → messages[j]? = some m →
          results[n]? = some (answer shouldCollect m j (rest.drop (n + 1))) := by
  induction rest with
  | nil =>
    intro done allocations each holding
    exact ⟨[], [], allocations, rfl, rfl, by simpa using holding, rfl, by simp⟩
  | cons p rest ih =>
    intro done allocations each holding
    obtain ⟨j, i⟩ := p
    have known : ∀ q ∈ done, (pageAt messages q).isSome = true := fun q before =>
      (each.all q).mp (List.mem_append_left _ before)
    have fresh : (j, i) ∉ done := fun before =>
      (List.nodup_append.mp each.nodup).2.2 _ before _ (List.mem_cons_self ..) rfl
    obtain ⟨blob, here⟩ := Option.isSome_iff_exists.mp ((each.all (j, i)).mp (by simp))
    obtain ⟨m, message, page⟩ := pageAt_some here
    obtain ⟨result, allocations₁, received, holding₁, outcome⟩ :=
      holding_step sent holding known message page fresh
    have split : done ++ (j, i) :: rest = (done ++ [(j, i)]) ++ rest := by simp
    obtain ⟨blobs, results, allocations', pages, all, holding', length, each'⟩ :=
      ih (done ++ [(j, i)]) allocations₁ (split ▸ each) holding₁
    refine ⟨blob :: blobs, result :: results, allocations', ?_, ?_, split ▸ holding', ?_, ?_⟩
    · simp [List.mapM_cons, here, pages]
    · simp [receiveAll, received, all]
    · simp [length]
    · intro n k x m' there message'
      cases n with
      | zero =>
        obtain ⟨rfl, rfl⟩ : j = k ∧ i = x := by simpa using there
        obtain rfl := Option.some.inj (message.symm.trans message')
        have last := last_page each message
        simp only [outcome, answer, last, List.getElem?_cons_zero, List.drop_succ_cons,
          List.drop_zero]
      | succ n => exact each' n k x m' (by simpa using there) message'

theorem last_of {order : List (Nat × Nat)} {j : Nat} (some_page : ∃ p ∈ order, p.1 = j) :
    ∃ n i, order[n]? = some (j, i) ∧ ∀ p ∈ order.drop (n + 1), p.1 ≠ j := by
  induction order with
  | nil => simp at some_page
  | cons q order ih =>
    by_cases later : ∃ p ∈ order, p.1 = j
    · obtain ⟨n, i, here, last⟩ := ih later
      exact ⟨n + 1, i, by simpa using here, by simpa using last⟩
    · obtain ⟨p, member, same⟩ := some_page
      rcases List.mem_cons.mp member with rfl | after
      · subst same
        exact ⟨0, p.2, rfl, fun q after same => later ⟨q, by simpa using after, same⟩⟩
      · exact absurd ⟨p, after, same⟩ later

theorem some_page {order : List (Nat × Nat)} (sent : Sent messages)
    (each : EachOnce messages order) {j : Nat} {m : Message} (message : messages[j]? = some m) :
    ∃ p ∈ order, p.1 = j := by
  have positive : 0 < m.pages.length := by
    obtain ⟨_, ⟨_, blob, pages, _⟩ | ⟨cut, size, _⟩⟩ :=
      (sent.accepted m (List.mem_of_getElem? message)).pages_spec
    · simp [pages]
    · rw [size]
      exact cut.count.1
  refine ⟨(j, 0), (each.all (j, 0)).mpr ?_, rfl⟩
  simp [pageAt, message, positive]

theorem completed_once {order : List (Nat × Nat)} (sent : Sent messages)
    (each : EachOnce messages order) {results : List TryRecvStreamResult}
    (answers : ∀ (n j i : Nat) m, order[n]? = some (j, i) → messages[j]? = some m →
      results[n]? = some (answer shouldCollect m j (order.drop (n + 1))))
    {j : Nat} {m : Message} (message : messages[j]? = some m)
    (wanted : shouldCollect m.header = true) :
    ∃! n : Nat, (∃ i, order[n]? = some (j, i)) ∧
      results[n]? = some (.newCompleted (m.payload, m.headerSize)) := by
  obtain ⟨n, i, here, last⟩ := last_of (some_page sent each message)
  refine ⟨n, ⟨⟨i, here⟩, ?_⟩, ?_⟩
  · rw [answers n j i m here message, answer, if_pos ⟨wanted, last⟩]
  · intro k ⟨⟨x, there⟩, completed⟩
    have none_after : ∀ p ∈ order.drop (k + 1), p.1 ≠ j := by
      rw [answers k j x m there message, answer] at completed
      by_contra some_after
      rw [if_neg fun both => some_after both.2] at completed
      simp at completed
    have apart (a b : Nat) (y : Nat) (before : a < b) (page : order[b]? = some (j, y)) :
        ∃ p ∈ order.drop (a + 1), p.1 = j := by
      refine ⟨(j, y), List.mem_of_getElem? (i := b - (a + 1)) ?_, rfl⟩
      rw [List.getElem?_drop, show a + 1 + (b - (a + 1)) = b by omega, page]
    rcases Nat.lt_trichotomy k n with before | same | after
    · obtain ⟨p, later, same⟩ := apart k n i before here
      exact absurd same (none_after p later)
    · exact same
    · obtain ⟨p, later, same⟩ := apart n k x after there
      exact absurd same (last p later)

/-- Pages that arrive in any order are put together again: a message that is wanted comes out
    with its last page, every other page leaves nothing, and the table ends up empty. -/
theorem reassembled (messages : List Message) (sent : Sent messages)
    (shouldCollect : List UInt8 → Bool) (order : List (Nat × Nat))
    (each : EachOnce messages order) :
    ∃ blobs results, order.mapM (pageAt messages) = some blobs ∧
      receiveAll shouldCollect .empty blobs = some (results, .empty) ∧
      results.length = order.length ∧
      (∀ (n j i : Nat) m, order[n]? = some (j, i) → messages[j]? = some m →
        results[n]? = some (answer shouldCollect m j (order.drop (n + 1)))) ∧
      ∀ (j : Nat) m, messages[j]? = some m → shouldCollect m.header = true →
        ∃! n : Nat, (∃ i, order[n]? = some (j, i)) ∧
          results[n]? = some (.newCompleted (m.payload, m.headerSize)) := by
  obtain ⟨blobs, results, allocations, pages, all, holding, length, answers⟩ :=
    receiveAll_holding sent order [] .empty each holding_empty
  obtain rfl := holding.finished sent each
  exact ⟨blobs, results, pages, all, length, answers, fun j m message wanted =>
    completed_once sent each answers message wanted⟩

/-- Two messages of two pages and one of one page, the pages mixed. -/
def someMessages : List Message :=
  [⟨[1, 2], 1, 0⟩, ⟨List.replicate 1001 7, 1, 5⟩, ⟨List.replicate 1002 8, 0, 6⟩]

def someOrder : List (Nat × Nat) := [(1, 1), (2, 0), (0, 0), (2, 1), (1, 0)]

theorem someMessages_sent : Sent someMessages := by
  have accepted : ∀ m ∈ someMessages, m.Accepted := by
    intro m member
    rw [Message.accepted_iff]
    revert m
    decide +kernel
  refine ⟨accepted, ?_, ?_⟩
  · intro m member
    rw [(accepted m member).page_count]
    revert m
    decide +kernel
  · intro j k m n here there _ _ same
    have distinct : (someMessages.map (·.identification)).Nodup := by decide
    have range : j < (someMessages.map (·.identification)).length := by
      rw [List.length_map]
      exact (List.getElem?_eq_some_iff.mp here).1
    exact (List.getElem?_inj range distinct).mp (by simp [here, there, same])

theorem someOrder_each : EachOnce someMessages someOrder := by
  refine ⟨by decide, ?_⟩
  intro ⟨j, i⟩
  have count (k : Nat) (m : Message) (here : someMessages[k]? = some m) :=
    (someMessages_sent.accepted m (List.mem_of_getElem? here)).page_count
  have there : (pageAt someMessages (j, i)).isSome = true ↔
      ∃ m, someMessages[j]? = some m ∧ i < if m.Fragmented then m.numChunks else 1 := by
    constructor
    · intro page
      obtain ⟨blob, here⟩ := Option.isSome_iff_exists.mp page
      obtain ⟨m, message, page⟩ := pageAt_some here
      refine ⟨m, message, ?_⟩
      rw [← count j m message]
      exact (List.getElem?_eq_some_iff.mp page).1
    · rintro ⟨m, message, range⟩
      rw [← count j m message] at range
      simp [pageAt, message, range]
  have counts : someMessages.map (fun m => if m.Fragmented then m.numChunks else 1) =
      [1, 2, 2] := by
    decide +kernel
  have range : (pageAt someMessages (j, i)).isSome = true ↔
      ∃ c, ([1, 2, 2] : List Nat)[j]? = some c ∧ i < c := by
    rw [there, ← counts]
    simp
  rw [range]
  clear range there count counts
  rcases j with _ | _ | _ | j
  · simp [someOrder]
  · simp [someOrder]
    omega
  · simp [someOrder]
    omega
  · simp [someOrder]

/-- The short message comes out at the third page, a long one at the fifth. -/
theorem reassembled_mixed : ∃ blobs results,
    someOrder.mapM (pageAt someMessages) = some blobs ∧
      receiveAll (fun _ => true) .empty blobs = some (results, .empty) ∧ results.length = 5 ∧
      results[2]? = some (.newCompleted ([1, 2], 1)) ∧
      results[4]? = some (.newCompleted (List.replicate 1001 7, 1)) := by
  obtain ⟨blobs, results, pages, all, length, answers, _⟩ :=
    reassembled someMessages someMessages_sent (fun _ => true) someOrder someOrder_each
  have last : ∀ p ∈ someOrder.drop 3, p.1 ≠ 0 := by decide
  have third := answers 2 0 0 ⟨[1, 2], 1, 0⟩ rfl rfl
  have fifth := answers 4 1 0 ⟨List.replicate 1001 7, 1, 5⟩ rfl rfl
  rw [answer, if_pos ⟨rfl, last⟩] at third
  rw [answer, if_pos ⟨rfl, by simp [someOrder]⟩] at fifth
  exact ⟨blobs, results, pages, all, length, third, fifth⟩

end Iox2
