import SkyCurrent.Iox2.InOrder
import SkyCurrent.Iox2.Lossy

/- Pages that are sent again. send_stream repeats a page for as long as send_page reports an
   error, and a page whose sending failed may have arrived all the same, so the receiver sees
   every page of a message once or several times in a row, between pages of other messages. -/
namespace Iox2

open ByteBuffer

/-- What the subscriber takes out next: a page of the message, or something else. -/
inductive Traffic where
  | page (i : Nat)
  | other (blob : Blob)

def Traffic.own : Traffic → Option Nat
  | .page i => some i
  | .other _ => none

def Traffic.blob (m : Message) : Traffic → Option Blob
  | .page i => m.pages[i]?
  | .other blob => some blob

abbrev Delivery := List (Traffic × (List UInt8 → Bool))

def ownPages (delivery : Delivery) : List Nat := delivery.filterMap (·.1.own)

def pagesFrom (copies : Nat → Nat) (k n : Nat) : List Nat :=
  (List.range' k (n - k)).flatMap fun i => List.replicate (copies i) i

theorem pagesFrom_end (copies : Nat → Nat) (n : Nat) : pagesFrom copies n n = [] := by
  simp [pagesFrom]

theorem pagesFrom_step {copies : Nat → Nat} {k n : Nat} (range : k < n) (copied : 1 ≤ copies k) :
    pagesFrom copies k n =
      k :: (List.replicate (copies k - 1) k ++ pagesFrom copies (k + 1) n) := by
  have next : n - k = (n - (k + 1)) + 1 := by omega
  obtain ⟨c, count⟩ : ∃ c, copies k = c + 1 := ⟨copies k - 1, by omega⟩
  simp [pagesFrom, next, List.range'_succ, count, List.replicate_succ]

def receiveDelivery (m : Message) (allocations : MergeAllocs) (delivery : Delivery) :
    Option (List TryRecvStreamResult × MergeAllocs) := do
  let arrivals ← delivery.mapM fun a => (a.1.blob m).map (·, a.2)
  receiveEach allocations arrivals

def Carries (blob : Blob) (identification : UInt64) : Prop :=
  ∃ count id, blob.read 12 16 = some count ∧ blob.read 16 24 = some id ∧ decode count ≠ 0 ∧
    UInt64.ofNat (decode id) = identification

structure Delivered (m : Message) (copies : Nat → Nat) (delivery : Delivery) : Prop where
  copied : ∀ i, i < m.pages.length → 1 ≤ copies i
  inOrder : ownPages delivery = pagesFrom copies 0 m.pages.length
  wanted : ∀ i shouldCollect, (.page i, shouldCollect) ∈ delivery → shouldCollect m.header = true
  foreign : ∀ blob shouldCollect, (.other blob, shouldCollect) ∈ delivery →
    ¬ Carries blob m.identification

def comingOut (delivery : Delivery) (results : List TryRecvStreamResult) :
    List (List UInt8 × Nat) :=
  (delivery.zip results).filterMap fun a => if a.1.1.own.isSome then a.2.message else none

/-- The message came out once, and the table has forgotten it. -/
def Absorbed (m : Message) (delivery : Delivery)
    (outcome : List TryRecvStreamResult × MergeAllocs) : Prop :=
  comingOut delivery outcome.1 = [(m.payload, m.headerSize)] ∧
    outcome.2 m.identification = none

section Step

variable {m : Message} {allocations allocations' : MergeAllocs} {delivery : Delivery}

theorem receiveDelivery_cons {a : Traffic × (List UInt8 → Bool)}
    {outcome : List TryRecvStreamResult × MergeAllocs} :
    receiveDelivery m allocations (a :: delivery) = some outcome →
      ∃ blob result allocations₁ results, a.1.blob m = some blob ∧
        tryRecvStream a.2 allocations (some blob) = some (result, allocations₁) ∧
        receiveDelivery m allocations₁ delivery = some (results, outcome.2) ∧
        outcome.1 = result :: results := by
  intro received
  simp only [receiveDelivery, List.mapM_cons, Option.pure_def, Option.bind_eq_bind,
    Option.bind_eq_some_iff, Option.map_eq_some_iff, Option.some.injEq] at received
  obtain ⟨_, ⟨_, ⟨blob, page, rfl⟩, arrivals, drawn, rfl⟩, all⟩ := received
  simp only [receiveEach, Option.bind_eq_bind, Option.bind_eq_some_iff, Option.some.injEq,
    Prod.exists] at all
  obtain ⟨result, allocations₁, first, results, last, rest, rfl⟩ := all
  exact ⟨blob, result, allocations₁, results, page, first,
    by simp [receiveDelivery, drawn, rest], rfl⟩

theorem comingOut_cons (a : Traffic × (List UInt8 → Bool)) (result : TryRecvStreamResult)
    (results : List TryRecvStreamResult) :
    comingOut (a :: delivery) (result :: results) =
      (if a.1.own.isSome then result.message.toList else []) ++ comingOut delivery results := by
  cases own : a.1.own with
  | none => simp [comingOut, own]
  | some i => cases message : result.message <;> simp [comingOut, own, message]

theorem tryRecvStream_receivePage {shouldCollect : List UInt8 → Bool} {blob : Blob}
    {result : TryRecvStreamResult}
    (received : tryRecvStream shouldCollect allocations (some blob) = some (result, allocations')) :
    receivePage shouldCollect allocations blob = some (result.message, allocations') := by
  simp only [tryRecvStream, Option.bind_eq_bind, Option.bind_eq_some_iff, Prod.exists] at received
  obtain ⟨message, table, page, answered⟩ := received
  rw [page]
  cases message <;> cases answered <;> rfl

theorem mergeFragment_others {blob : Blob} {remainder i n headerSize : Nat}
    {identification : UInt64} {message : Option (List UInt8 × Nat)}
    (merged : mergeFragment allocations blob remainder i n identification headerSize =
      some (message, allocations')) {id : UInt64} (other : id ≠ identification) :
    allocations' id = allocations id := by
  simp only [mergeFragment, Option.bind_eq_bind, Option.bind_eq_some_iff] at merged
  obtain ⟨_, _, entry, _, isMerged, _, merged⟩ := merged
  split at merged
  · cases merged
    exact Function.update_of_ne other ..
  · simp only [Option.bind_eq_some_iff] at merged
    obtain ⟨_, _, _, _, merged⟩ := merged
    split at merged <;> cases merged <;> exact Function.update_of_ne other ..

theorem foreign_step {shouldCollect : List UInt8 → Bool} {blob : Blob}
    {result : TryRecvStreamResult} (foreign : ¬ Carries blob m.identification)
    (received : tryRecvStream shouldCollect allocations (some blob) = some (result, allocations')) :
    allocations' m.identification = allocations m.identification := by
  have page := tryRecvStream_receivePage received
  simp only [receivePage, Option.bind_eq_bind, Option.bind_eq_some_iff] at page
  obtain ⟨_, _, _, _, count, counted, id, identified, page⟩ := page
  split at page
  · simp only [Option.bind_eq_some_iff] at page
    obtain ⟨_, _, page⟩ := page
    split at page
    · simp only [Option.bind_eq_some_iff] at page
      obtain ⟨_, _, page⟩ := page
      simp only [Option.some.injEq, Prod.mk.injEq] at page
      rw [page.2]
    · simp only [Option.some.injEq, Prod.mk.injEq] at page
      rw [page.2]
  · rename_i some_
    simp only [Option.bind_eq_some_iff] at page
    obtain ⟨_, _, _, _, page⟩ := page
    split at page
    · exact mergeFragment_others page fun same =>
        foreign ⟨count, id, counted, identified, some_, same.symm⟩
    · simp only [Option.some.injEq, Prod.mk.injEq] at page
      rw [page.2]

theorem Merging.congr {arrived : Finset Nat}
    (same : allocations' m.identification = allocations m.identification)
    (merging : Merging allocations m arrived) : Merging allocations' m arrived := by
  unfold Merging at merging ⊢
  rw [same]
  exact merging

theorem own_step (cut : m.Cut) (few : m.numChunks < 2 ^ 32) {shouldCollect : List UInt8 → Bool}
    (wanted : shouldCollect m.header = true) {arrived : Finset Nat}
    (inside : arrived ⊂ Finset.range m.numChunks) (merging : Merging allocations m arrived)
    {i : Nat} {blob : Blob} (page : m.pages[i]? = some blob) {result : TryRecvStreamResult}
    (received : tryRecvStream shouldCollect allocations (some blob) = some (result, allocations')) :
    Merging allocations' m (insert i arrived) ∧ result.message =
      if (insert i arrived).card = m.numChunks then some (m.payload, m.headerSize) else none := by
  obtain ⟨count, each⟩ := cut.pages_spec
  have range : i < m.numChunks := count ▸ (List.getElem?_eq_some_iff.mp page).1
  obtain ⟨blob', there, fragment⟩ := each i range
  obtain rfl := Option.some.inj (page.symm.trans there)
  have got := tryRecvStream_receivePage received
  rw [receivePage_fragment cut few shouldCollect allocations range fragment, if_pos wanted] at got
  have fewer : arrived.card ≠ m.numChunks := by
    have less := Finset.card_lt_card inside
    rw [Finset.card_range] at less
    omega
  by_cases again : i ∈ arrived
  · have some_ : arrived ≠ ∅ := Finset.ne_empty_of_mem again
    have held := merging
    rw [Merging, if_neg (by simp [some_, fewer])] at held
    obtain ⟨e, entry, entryOf⟩ := held
    rw [mergeFragment_again cut entry entryOf blob range again] at got
    simp only [Option.some.injEq, Prod.mk.injEq] at got
    rw [Finset.insert_eq_of_mem again, if_neg fewer, ← got.1, ← got.2]
    exact ⟨merging, rfl⟩
  · obtain ⟨outcome, merge, merged⟩ :=
      mergeFragment_spec cut inside.subset merging range again fragment
    rw [merge] at got
    cases got
    exact ⟨merged.merging, merged.message⟩

end Step

section Run

variable {m : Message} {delivery : Delivery}

theorem incomplete {arrived : Finset Nat} {n : Nat} (below : arrived ⊆ Finset.range n)
    (fewer : arrived.card < n) : arrived ⊂ Finset.range n := by
  refine Finset.ssubset_iff_subset_ne.mpr ⟨below, ?_⟩
  intro whole
  rw [whole, Finset.card_range] at fewer
  exact fewer.false

theorem Message.Cut.two_chunks (cut : m.Cut) : 2 ≤ m.numChunks := by
  have long := cut.long
  have room := cut.room
  have body := m.body_length
  obtain ⟨some_, whole⟩ := cut.count
  have last := cut.last_bounds
  have size : m.chunkSize + m.headerSize = 992 := by
    unfold Message.chunkSize
    unfold presetN at room ⊢
    omega
  unfold presetN at long
  by_contra one
  have single : m.numChunks - 1 = 0 := by omega
  rw [single, Nat.zero_mul] at whole
  omega

theorem merging_nothing {allocations : MergeAllocs} :
    Merging allocations m ∅ ↔ allocations m.identification = none := by
  rw [Merging, if_pos (Or.inl rfl)]

theorem late_pages (cut : m.Cut) (few : m.numChunks < 2 ^ 32)
    (wanted : ∀ i shouldCollect, (.page i, shouldCollect) ∈ delivery →
      shouldCollect m.header = true)
    (foreign : ∀ blob shouldCollect, (.other blob, shouldCollect) ∈ delivery →
      ¬ Carries blob m.identification)
    {arrived : Finset Nat} (late : arrived ⊆ {m.numChunks - 1}) {r : Nat}
    (pages : ownPages delivery = List.replicate r (m.numChunks - 1)) {allocations : MergeAllocs}
    (merging : Merging allocations m arrived)
    {outcome : List TryRecvStreamResult × MergeAllocs}
    (received : receiveDelivery m allocations delivery = some outcome) :
    comingOut delivery outcome.1 = [] ∧
      Merging outcome.2 m (if r = 0 then arrived else {m.numChunks - 1}) := by
  have two := cut.two_chunks
  induction delivery generalizing r arrived allocations outcome with
  | nil =>
    have none_ : r = 0 := by simpa [ownPages, eq_comm] using congrArg List.length pages
    cases received
    rw [if_pos none_]
    exact ⟨rfl, merging⟩
  | cons a delivery ih =>
    obtain ⟨traffic, shouldCollect⟩ := a
    obtain ⟨blob, result, table, results, page, first, rest, all⟩ := receiveDelivery_cons received
    rw [all, comingOut_cons]
    have wantedLater := fun i c later => wanted i c (List.mem_cons_of_mem _ later)
    have foreignLater := fun b c later => foreign b c (List.mem_cons_of_mem _ later)
    cases traffic with
    | other blob' =>
      cases page
      have kept := foreign_step (foreign _ shouldCollect (List.mem_cons_self ..)) first
      exact ih wantedLater foreignLater late pages (merging.congr kept) rest
    | page i =>
      obtain ⟨n, rfl⟩ : ∃ n, r = n + 1 := by
        cases r with
        | zero => simp [ownPages, Traffic.own] at pages
        | succ n => exact ⟨n, rfl⟩
      have pages' : i :: ownPages delivery =
          (m.numChunks - 1) :: List.replicate n (m.numChunks - 1) := pages
      obtain ⟨rfl, later⟩ := List.cons.inj pages'
      have range : {m.numChunks - 1} ⊆ Finset.range m.numChunks := by
        rw [Finset.singleton_subset_iff, Finset.mem_range]
        omega
      have fewer := Finset.card_le_card late
      rw [Finset.card_singleton] at fewer
      have inside := incomplete (late.trans range) (by omega)
      have same : insert (m.numChunks - 1) arrived = {m.numChunks - 1} := by
        ext x
        simp only [Finset.mem_insert, Finset.mem_singleton]
        exact ⟨fun h => h.elim id fun before => Finset.mem_singleton.mp (late before), Or.inl⟩
      obtain ⟨merging', message⟩ := own_step cut few
        (wanted _ shouldCollect (List.mem_cons_self ..)) inside merging page first
      rw [same] at merging'
      rw [same, Finset.card_singleton, if_neg (by omega)] at message
      obtain ⟨silent, held⟩ :=
        ih wantedLater foreignLater (Finset.Subset.refl _) later merging' rest
      refine ⟨by simp [message, silent], ?_⟩
      rw [if_neg (Nat.succ_ne_zero n)]
      split at held <;> exact held

theorem early_pages (cut : m.Cut) (few : m.numChunks < 2 ^ 32) {copies : Nat → Nat}
    (copied : ∀ i, i < m.numChunks → 1 ≤ copies i)
    (wanted : ∀ i shouldCollect, (.page i, shouldCollect) ∈ delivery →
      shouldCollect m.header = true)
    (foreign : ∀ blob shouldCollect, (.other blob, shouldCollect) ∈ delivery →
      ¬ Carries blob m.identification)
    {k r : Nat} (range : k < m.numChunks) (first_ : k = 0 → r = 0)
    (pages : ownPages delivery = List.replicate r (k - 1) ++ pagesFrom copies k m.numChunks)
    {allocations : MergeAllocs} (merging : Merging allocations m (Finset.range k))
    {outcome : List TryRecvStreamResult × MergeAllocs}
    (received : receiveDelivery m allocations delivery = some outcome) :
    comingOut delivery outcome.1 = [(m.payload, m.headerSize)] ∧
      Merging outcome.2 m (if copies (m.numChunks - 1) = 1 then ∅ else {m.numChunks - 1}) := by
  induction delivery generalizing k r allocations outcome with
  | nil =>
    rw [pagesFrom_step range (copied k range)] at pages
    have none_ := congrArg List.length pages
    simp [ownPages] at none_
  | cons a delivery ih =>
    obtain ⟨traffic, shouldCollect⟩ := a
    obtain ⟨blob, result, table, results, page, first, rest, all⟩ := receiveDelivery_cons received
    rw [all, comingOut_cons]
    have wantedLater := fun i c later => wanted i c (List.mem_cons_of_mem _ later)
    have foreignLater := fun b c later => foreign b c (List.mem_cons_of_mem _ later)
    cases traffic with
    | other blob' =>
      cases page
      have kept := foreign_step (foreign _ shouldCollect (List.mem_cons_self ..)) first
      exact ih wantedLater foreignLater range first_ pages (merging.congr kept) rest
    | page i =>
      have inside := incomplete (Finset.range_subset_range.mpr range.le)
        (by rw [Finset.card_range]; exact range)
      obtain ⟨merging', message⟩ := own_step cut few
        (wanted _ shouldCollect (List.mem_cons_self ..)) inside merging page first
      cases r with
      | succ r =>
        -- The page before comes once more.
        have pages' : i :: ownPages delivery =
          (k - 1) :: (List.replicate r (k - 1) ++ pagesFrom copies k m.numChunks) := pages
        obtain ⟨rfl, later⟩ := List.cons.inj pages'
        have positive : k ≠ 0 := fun zero => absurd (first_ zero) (Nat.succ_ne_zero r)
        have there : k - 1 ∈ Finset.range k := Finset.mem_range.mpr (by omega)
        rw [Finset.insert_eq_of_mem there] at merging' message
        rw [Finset.card_range, if_neg range.ne] at message
        obtain ⟨out, held⟩ := ih wantedLater foreignLater range (fun zero => absurd zero positive)
          later merging' rest
        exact ⟨by simp [message, out], held⟩
      | zero =>
        rw [List.replicate_zero, List.nil_append, pagesFrom_step range (copied k range)] at pages
        have pages' : i :: ownPages delivery = _ := pages
        obtain ⟨rfl, later⟩ := List.cons.inj pages'
        rw [← Finset.range_add_one] at merging' message
        rw [Finset.card_range] at message
        by_cases last : i + 1 = m.numChunks
        · have here : m.numChunks - 1 = i := by omega
          have empty : Merging table m ∅ := by
            rw [last, Merging, if_pos (Or.inr (Finset.card_range _))] at merging'
            exact merging_nothing.mpr merging'
          rw [last, pagesFrom_end, List.append_nil, ← here] at later
          obtain ⟨silent, held⟩ := late_pages cut few wantedLater foreignLater
            (Finset.empty_subset _) later empty rest
          rw [if_pos last] at message
          refine ⟨by simp [Traffic.own, message, silent], ?_⟩
          have some_ := copied i range
          have once : (copies (m.numChunks - 1) - 1 = 0) = (copies (m.numChunks - 1) = 1) := by
            rw [here]
            exact propext (by omega)
          simp only [once] at held
          exact held
        · rw [if_neg last] at message
          obtain ⟨out, held⟩ := ih wantedLater foreignLater (by omega)
            (fun zero => absurd zero (Nat.succ_ne_zero i)) later merging' rest
          exact ⟨by simp [message, out], held⟩

theorem mem_ownPages {i : Nat} {shouldCollect : List UInt8 → Bool}
    (here : (.page i, shouldCollect) ∈ delivery) : i ∈ ownPages delivery :=
  List.mem_filterMap.mpr ⟨_, here, rfl⟩

theorem mem_pagesFrom {copies : Nat → Nat} {i n : Nat} (here : i ∈ pagesFrom copies 0 n) :
    i < n := by
  simp only [pagesFrom, List.mem_flatMap, List.mem_range', List.mem_replicate] at here
  obtain ⟨k, ⟨j, below, rfl⟩, _, rfl⟩ := here
  omega

theorem receiveDelivery_total {messages : List Message} (sent : Sent messages)
    (member : m ∈ messages)
    (inside : ∀ i shouldCollect, (.page i, shouldCollect) ∈ delivery → i < m.pages.length)
    (published : ∀ blob shouldCollect, (.other blob, shouldCollect) ∈ delivery →
      ∃ n ∈ messages, blob ∈ n.pages) {allocations : MergeAllocs}
    (held : Partial messages allocations) :
    ∃ outcome, receiveDelivery m allocations delivery = some outcome := by
  induction delivery generalizing allocations with
  | nil => exact ⟨([], allocations), rfl⟩
  | cons a delivery ih =>
    obtain ⟨traffic, shouldCollect⟩ := a
    obtain ⟨n, i, blob, there, page, arrived⟩ : ∃ n i blob, n ∈ messages ∧
        n.pages[i]? = some blob ∧ traffic.blob m = some blob := by
      cases traffic with
      | page i =>
        have range := inside i shouldCollect (List.mem_cons_self ..)
        have page := List.getElem?_eq_getElem range
        exact ⟨m, i, _, member, page, page⟩
      | other blob =>
        obtain ⟨n, there, page⟩ := published blob shouldCollect (List.mem_cons_self ..)
        obtain ⟨i, page⟩ := List.mem_iff_getElem?.mp page
        exact ⟨n, i, blob, there, page, rfl⟩
    obtain ⟨result, table, received, held', _⟩ := partial_step sent held there page shouldCollect
    obtain ⟨⟨results, last⟩, rest⟩ := ih
      (fun i c later => inside i c (List.mem_cons_of_mem _ later))
      (fun b c later => published b c (List.mem_cons_of_mem _ later)) held'
    simp only [receiveDelivery, Option.bind_eq_bind, Option.bind_eq_some_iff] at rest
    obtain ⟨arrivals, drawn, all⟩ := rest
    refine ⟨(result :: results, last), ?_⟩
    simp [receiveDelivery, List.mapM_cons, arrived, drawn, receiveEach, received, all]

theorem foreign_of_sent {messages : List Message} (sent : Sent messages) (member : m ∈ messages)
    (fragmented : m.Fragmented) {n : Message} (there : n ∈ messages) (apart : n ≠ m) {blob : Blob}
    (page : blob ∈ n.pages) : ¬ Carries blob m.identification := by
  rintro ⟨count, id, counted, identified, some_, same⟩
  obtain ⟨_, ⟨_, blob', pages, whole⟩ | ⟨cut, size, each⟩⟩ := (sent.accepted n there).pages_spec
  · rw [pages, List.mem_singleton] at page
    obtain rfl := page
    obtain rfl := Option.some.inj (whole.count.symm.trans counted)
    exact some_ rfl
  · obtain ⟨i, page⟩ := List.mem_iff_getElem?.mp page
    obtain ⟨blob', here, fragment⟩ := each i (size ▸ (List.getElem?_eq_some_iff.mp page).1)
    obtain rfl := Option.some.inj (page.symm.trans here)
    obtain rfl := Option.some.inj (fragment.identified.symm.trans identified)
    rw [decode_encode_of_lt n.identification.toNat_lt, UInt64.ofNat_toNat] at same
    exact apart (sent.same there member cut.long fragmented same)

/-- However often its pages come: the message comes out once, and if its last page came more
    than once an entry for that page alone is left in the table. -/
theorem receive_repeats (accepted : m.Accepted) (fragmented : m.Fragmented)
    (few : m.pages.length < 2 ^ 32) {copies : Nat → Nat} (delivered : Delivered m copies delivery)
    {allocations : MergeAllocs} (fresh : allocations m.identification = none)
    {outcome : List TryRecvStreamResult × MergeAllocs}
    (received : receiveDelivery m allocations delivery = some outcome) :
    comingOut delivery outcome.1 = [(m.payload, m.headerSize)] ∧
      (outcome.2 m.identification = none ↔ copies (m.pages.length - 1) = 1) := by
  obtain ⟨_, ⟨short, _⟩ | ⟨cut, size, _⟩⟩ := accepted.pages_spec
  · exact absurd fragmented short
  have two := cut.two_chunks
  have copied := delivered.copied
  have pages := delivered.inOrder
  rw [size] at few copied pages ⊢
  obtain ⟨out, held⟩ := early_pages cut few copied delivered.wanted delivered.foreign
    (by omega) (fun _ => rfl) (r := 0) pages (merging_nothing.mpr fresh) received
  refine ⟨out, ?_⟩
  by_cases once : copies (m.numChunks - 1) = 1
  · rw [if_pos once] at held
    exact iff_of_true (merging_nothing.mp held) once
  · rw [if_neg once, Merging, if_neg (by simp; omega)] at held
    obtain ⟨e, entry, _⟩ := held
    exact iff_of_false (by rw [entry]; exact Option.some_ne_none e) once

/-- Repeated pages are absorbed exactly if the last page is not one of them. Between messages
    that send_stream has published no call fails. -/
theorem repeats_absorbed_iff (accepted : m.Accepted) (fragmented : m.Fragmented)
    (few : m.pages.length < 2 ^ 32) {copies : Nat → Nat} (delivered : Delivered m copies delivery)
    {allocations : MergeAllocs} (fresh : allocations m.identification = none) :
    (∀ messages, Sent messages → m ∈ messages → Partial messages allocations →
      (∀ blob shouldCollect, (.other blob, shouldCollect) ∈ delivery →
        ∃ n ∈ messages, blob ∈ n.pages) →
      ∃ outcome, receiveDelivery m allocations delivery = some outcome) ∧
    ∀ outcome, receiveDelivery m allocations delivery = some outcome →
      (Absorbed m delivery outcome ↔ copies (m.pages.length - 1) = 1) := by
  constructor
  · intro messages sent member held published
    have inside : ∀ i shouldCollect, (.page i, shouldCollect) ∈ delivery → i < m.pages.length := by
      intro i shouldCollect here
      have page := mem_ownPages here
      rw [delivered.inOrder] at page
      exact mem_pagesFrom page
    exact receiveDelivery_total sent member inside published held
  · intro outcome received
    obtain ⟨out, held⟩ := receive_repeats accepted fragmented few delivered fresh received
    exact (and_iff_right out).trans held

end Run

def twice : Message := ⟨List.replicate 1001 7, 1, 5⟩

def between : Message := ⟨List.replicate 1002 8, 0, 6⟩

theorem twice_mem : twice ∈ someMessages := List.mem_cons_of_mem _ (List.mem_cons_self ..)

theorem between_mem : between ∈ someMessages :=
  List.mem_cons_of_mem _ (List.mem_cons_of_mem _ (List.mem_cons_self ..))

theorem twice_accepted : twice.Accepted := someMessages_sent.accepted twice twice_mem

theorem twice_fragmented : twice.Fragmented := by decide +kernel

theorem twice_pages : twice.pages.length = 2 := by
  have chunks : twice.numChunks = 2 := by decide +kernel
  rw [twice_accepted.page_count, if_pos twice_fragmented, chunks]

def collectAll (traffic : List Traffic) : Delivery := traffic.map (·, fun _ => true)

theorem mem_collectAll {traffic : List Traffic} {t : Traffic} {shouldCollect : List UInt8 → Bool}
    (here : (t, shouldCollect) ∈ collectAll traffic) :
    t ∈ traffic ∧ ∀ header, shouldCollect header = true := by
  obtain ⟨t', member, same⟩ := List.mem_map.mp here
  cases same
  exact ⟨member, fun _ => rfl⟩

def firstAgain (blob : Blob) : Delivery := collectAll [.page 0, .page 0, .other blob, .page 1]

def lastAgain : Delivery := collectAll [.page 0, .page 1, .page 1]

/-- The first page comes twice, and a page of another message before the last. -/
theorem repeats_absorbed_first : ∃ blob ∈ between.pages, ∃ outcome,
    receiveDelivery twice .empty (firstAgain blob) = some outcome ∧
      Absorbed twice (firstAgain blob) outcome := by
  have distinct : between ≠ twice := by
    intro same
    have headers := congrArg Message.headerSize same
    cases headers
  have some_ : between.pages ≠ [] := by
    have count := (someMessages_sent.accepted between between_mem).page_count
    have two : (if between.Fragmented then between.numChunks else 1) = 2 := by decide +kernel
    intro none_
    rw [two, none_] at count
    cases count
  obtain ⟨blob, page⟩ := List.exists_mem_of_ne_nil _ some_
  have foreign := foreign_of_sent someMessages_sent twice_mem twice_fragmented between_mem distinct
    page
  have only {blob' : Blob} {shouldCollect : List UInt8 → Bool}
      (here : (.other blob', shouldCollect) ∈ firstAgain blob) : blob' = blob := by
    simpa using (mem_collectAll here).1
  have delivered : Delivered twice (fun i => if i = 0 then 2 else 1) (firstAgain blob) := by
    refine ⟨?_, ?_, fun i _ here => (mem_collectAll here).2 _, ?_⟩
    · intro i _
      split <;> decide
    · rw [twice_pages]
      rfl
    · intro blob' _ here
      rw [only here]
      exact foreign
  have fresh : MergeAllocs.empty twice.identification = none := rfl
  obtain ⟨runs, absorbed⟩ := repeats_absorbed_iff twice_accepted twice_fragmented
    (by rw [twice_pages]; decide) delivered fresh
  obtain ⟨outcome, received⟩ := runs someMessages someMessages_sent twice_mem partial_empty
    fun blob' _ here => ⟨between, between_mem, (only here).symm ▸ page⟩
  refine ⟨blob, page, outcome, received, (absorbed outcome received).mpr ?_⟩
  rw [twice_pages]
  rfl

/-- The last page comes twice. -/
theorem last_page_kept : ∃ outcome, Delivered twice (fun i => if i = 1 then 2 else 1) lastAgain ∧
    receiveDelivery twice .empty lastAgain = some outcome ∧
      ¬ Absorbed twice lastAgain outcome ∧ outcome.2 twice.identification ≠ none := by
  have delivered : Delivered twice (fun i => if i = 1 then 2 else 1) lastAgain := by
    refine ⟨?_, ?_, fun i _ here => (mem_collectAll here).2 _, ?_⟩
    · intro i _
      split <;> decide
    · rw [twice_pages]
      rfl
    · intro blob _ here
      simpa using (mem_collectAll here).1
  have inside : ∀ i shouldCollect, (.page i, shouldCollect) ∈ lastAgain →
      i < twice.pages.length := by
    rw [twice_pages]
    intro i _ here
    have some_ : i = 0 ∨ i = 1 := by simpa using (mem_collectAll here).1
    omega
  have alone : ∀ blob shouldCollect, (.other blob, shouldCollect) ∈ lastAgain →
      ∃ n ∈ someMessages, blob ∈ n.pages := by
    intro blob _ here
    simpa using (mem_collectAll here).1
  obtain ⟨outcome, received⟩ :=
    receiveDelivery_total someMessages_sent twice_mem inside alone partial_empty
  have fresh : MergeAllocs.empty twice.identification = none := rfl
  obtain ⟨_, held⟩ := receive_repeats twice_accepted twice_fragmented (by rw [twice_pages]; decide)
    delivered fresh received
  have kept : outcome.2 twice.identification ≠ none := by
    rw [Ne, held, twice_pages]
    decide
  exact ⟨outcome, delivered, received, fun absorbed => kept absorbed.2, kept⟩

end Iox2
