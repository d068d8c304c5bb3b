import Mathlib.Data.List.Nodup
import SkyCurrent.Iox2.InOrder
import SkyCurrent.Iox2.Lossy

/- Which messages have come out after some of the pages have arrived, each of them once: those of
   which every page is among them. -/
namespace Iox2

variable {shouldCollect : List UInt8 → Bool} {messages : List Message}

structure AtMostOnce (messages : List Message) (order : List (Nat × Nat)) : Prop where
  nodup : order.Nodup
  known : ∀ p ∈ order, (pageAt messages p).isSome = true

def wholly (shouldCollect : List UInt8 → Bool) (messages : List Message)
    (pages : List (Nat × Nat)) : List (List UInt8 × Nat) :=
  (List.range messages.length).filterMap fun j => do
    let m ← messages[j]?
    if shouldCollect m.header = true ∧ ∀ i < m.pages.length, (j, i) ∈ pages then
      some (m.payload, m.headerSize)
    else none

section Missing

def allPages (messages : List Message) : List (Nat × Nat) :=
  messages.zipIdx.flatMap fun m => (List.range m.1.pages.length).map fun i => (m.2, i)

theorem mem_allPages {p : Nat × Nat} :
    p ∈ allPages messages ↔ (pageAt messages p).isSome = true := by
  obtain ⟨j, i⟩ := p
  constructor
  · intro member
    obtain ⟨⟨m, k⟩, place, page⟩ := List.mem_flatMap.mp member
    obtain ⟨x, range, same⟩ := List.mem_map.mp page
    simp only [Prod.mk.injEq] at same
    obtain ⟨rfl, rfl⟩ := same
    have here := List.mk_mem_zipIdx_iff_getElem?.mp place
    simp [pageAt, here, List.mem_range.mp range]
  · intro some_
    obtain ⟨blob, here⟩ := Option.isSome_iff_exists.mp some_
    obtain ⟨m, message, page⟩ := pageAt_some here
    refine List.mem_flatMap.mpr ⟨(m, j), List.mk_mem_zipIdx_iff_getElem?.mpr message, ?_⟩
    exact List.mem_map.mpr ⟨i, List.mem_range.mpr (List.getElem?_eq_some_iff.mp page).1, rfl⟩

def missing (messages : List Message) (order : List (Nat × Nat)) : List (Nat × Nat) :=
  (allPages messages).dedup.filter fun p => !order.contains p

theorem AtMostOnce.completes {order : List (Nat × Nat)} (once : AtMostOnce messages order) :
    EachOnce messages (order ++ missing messages order) := by
  have member : ∀ p, p ∈ missing messages order ↔
      (pageAt messages p).isSome = true ∧ p ∉ order := by
    intro p
    simp [missing, mem_allPages]
  refine ⟨?_, ?_⟩
  · rw [List.nodup_append]
    refine ⟨once.nodup, (List.nodup_dedup _).filter _, ?_⟩
    rintro p here q there rfl
    exact ((member p).mp there).2 here
  · intro p
    rw [List.mem_append, member]
    constructor
    · rintro (here | ⟨known, _⟩)
      · exact once.known p here
      · exact known
    · intro known
      by_cases here : p ∈ order
      · exact Or.inl here
      · exact Or.inr ⟨known, here⟩

end Missing

section Finished

theorem completed_cons (result : TryRecvStreamResult) (results : List TryRecvStreamResult) :
    completed (result :: results) = completed [result] ++ completed results :=
  completed_append [result] results

def finished : List (Nat × Nat) → List (Nat × Nat) → List Nat
  | [], _ => []
  | p :: pages, rest =>
    if ∀ q ∈ pages ++ rest, q.1 ≠ p.1 then p.1 :: finished pages rest else finished pages rest

theorem mem_finished {pages rest : List (Nat × Nat)} {j : Nat} :
    j ∈ finished pages rest ↔ (∃ p ∈ pages, p.1 = j) ∧ ∀ q ∈ rest, q.1 ≠ j := by
  induction pages with
  | nil => simp [finished]
  | cons p pages ih =>
    rw [finished]
    split
    · rename_i last
      rw [List.mem_cons, ih]
      constructor
      · rintro (rfl | ⟨⟨q, member, same⟩, none_⟩)
        · refine ⟨⟨p, List.mem_cons_self .., rfl⟩, ?_⟩
          intro q later
          exact last q (List.mem_append_right _ later)
        · exact ⟨⟨q, List.mem_cons_of_mem _ member, same⟩, none_⟩
      · rintro ⟨⟨q, member, same⟩, none_⟩
        rcases List.mem_cons.mp member with rfl | later
        · exact Or.inl same.symm
        · exact Or.inr ⟨⟨q, later, same⟩, none_⟩
    · rename_i more
      rw [ih]
      constructor
      · rintro ⟨⟨q, member, same⟩, none_⟩
        exact ⟨⟨q, List.mem_cons_of_mem _ member, same⟩, none_⟩
      · rintro ⟨⟨q, member, same⟩, none_⟩
        refine ⟨?_, none_⟩
        rcases List.mem_cons.mp member with rfl | later
        · by_contra nothing
          apply more
          intro q' member'
          rcases List.mem_append.mp member' with early | late
          · intro same'
            exact nothing ⟨q', early, same'.trans same⟩
          · rw [same]
            exact none_ q' late
        · exact ⟨q, later, same⟩

theorem nodup_finished (pages rest : List (Nat × Nat)) : (finished pages rest).Nodup := by
  induction pages with
  | nil => exact List.nodup_nil
  | cons p pages ih =>
    rw [finished]
    split
    · rename_i last
      refine List.nodup_cons.mpr ⟨?_, ih⟩
      intro member
      obtain ⟨⟨q, here, same⟩, _⟩ := mem_finished.mp member
      exact last q (List.mem_append_left _ here) same
    · exact ih

theorem finished_sublist (pages rest : List (Nat × Nat)) :
    (finished pages rest).Sublist (pages.map Prod.fst) := by
  induction pages with
  | nil => exact List.Sublist.slnil
  | cons p pages ih =>
    rw [finished, List.map_cons]
    split
    · exact ih.cons_cons p.1
    · exact ih.cons p.1

def handsOut (shouldCollect : List UInt8 → Bool) (messages : List Message) (j : Nat) :
    Option (List UInt8 × Nat) := do
  let m ← messages[j]?
  if shouldCollect m.header = true then some (m.payload, m.headerSize) else none

theorem completed_finished (rest : List (Nat × Nat)) :
    ∀ (pages : List (Nat × Nat)) (results : List TryRecvStreamResult),
      results.length = pages.length →
      (∀ p ∈ pages, (messages[p.1]?).isSome = true) →
      (∀ (n j i : Nat) m, pages[n]? = some (j, i) → messages[j]? = some m →
        results[n]? = some (answer shouldCollect m j (pages.drop (n + 1) ++ rest))) →
      completed results = (finished pages rest).filterMap (handsOut shouldCollect messages) := by
  intro pages
  induction pages with
  | nil =>
    intro results length _ _
    obtain rfl := List.eq_nil_of_length_eq_zero length
    rfl
  | cons p pages ih =>
    intro results length known answers
    obtain ⟨j, i⟩ := p
    cases results with
    | nil => cases length
    | cons result results =>
      obtain ⟨m, message⟩ := Option.isSome_iff_exists.mp (known (j, i) (List.mem_cons_self ..))
      have first : result = answer shouldCollect m j (pages ++ rest) := by
        have here := answers 0 j i m rfl message
        simpa using here
      have others := ih results (Nat.succ.inj length)
        (fun q later => known q (List.mem_cons_of_mem _ later))
        (fun n j' i' m' here there => by
          have next := answers (n + 1) j' i' m' (by simpa using here) there
          simpa using next)
      rw [completed_cons, others, first, answer, finished]
      by_cases last : ∀ q ∈ pages ++ rest, q.1 ≠ j
      · rw [if_pos last, List.filterMap_cons]
        by_cases wanted : shouldCollect m.header = true
        · rw [if_pos ⟨wanted, last⟩]
          simp [handsOut, message, wanted, completed, TryRecvStreamResult.message]
        · rw [if_neg (fun both => wanted both.1)]
          simp [handsOut, message, wanted, completed, TryRecvStreamResult.message]
      · rw [if_neg last, if_neg (fun both => last both.2)]
        rfl

end Finished

section Prefix

theorem receiveAll_length {blobs : List Blob} {allocations allocations' : MergeAllocs}
    {results : List TryRecvStreamResult}
    (all : receiveAll shouldCollect allocations blobs = some (results, allocations')) :
    results.length = blobs.length := by
  induction blobs generalizing allocations allocations' results with
  | nil =>
    simp only [receiveAll, Option.some.injEq, Prod.mk.injEq] at all
    rw [← all.1]
    rfl
  | cons blob blobs ih =>
    simp only [receiveAll, Option.bind_eq_bind, Option.bind_eq_some_iff, Option.some.injEq,
      Prod.mk.injEq, Prod.exists] at all
    obtain ⟨_, _, _, rest, _, tail, rfl, _⟩ := all
    simp [ih tail]

theorem receiveAll_prefix {xs ys : List Blob} {allocations allocations' : MergeAllocs}
    {results : List TryRecvStreamResult}
    (all : receiveAll shouldCollect allocations (xs ++ ys) = some (results, allocations')) :
    ∃ first second middle, results = first ++ second ∧
      receiveAll shouldCollect allocations xs = some (first, middle) := by
  induction xs generalizing allocations results with
  | nil => exact ⟨[], results, allocations, rfl, rfl⟩
  | cons blob xs ih =>
    simp only [List.cons_append, receiveAll, Option.bind_eq_bind, Option.bind_eq_some_iff,
      Option.some.injEq, Prod.mk.injEq, Prod.exists] at all
    obtain ⟨result, table, received, rest, _, tail, rfl, rfl⟩ := all
    obtain ⟨first, second, middle, rfl, done⟩ := ih tail
    exact ⟨result :: first, second, middle, rfl, by simp [receiveAll, received, done]⟩

theorem mapM_length {α β : Type} {f : α → Option β} {xs : List α} {ys : List β}
    (all : xs.mapM f = some ys) : ys.length = xs.length := by
  induction xs generalizing ys with
  | nil =>
    obtain rfl := Option.some.inj all
    rfl
  | cons x xs ih =>
    simp only [List.mapM_cons, Option.bind_eq_bind, Option.bind_eq_some_iff] at all
    obtain ⟨y, _, zs, rest, same⟩ := all
    obtain rfl := Option.some.inj same
    simp [ih rest]

theorem mapM_isSome {α β : Type} {f : α → Option β} {xs : List α} {ys : List β}
    (all : xs.mapM f = some ys) {x : α} (member : x ∈ xs) : (f x).isSome = true := by
  induction xs generalizing ys with
  | nil => cases member
  | cons x' xs ih =>
    simp only [List.mapM_cons, Option.bind_eq_bind, Option.bind_eq_some_iff] at all
    obtain ⟨y, here, zs, rest, _⟩ := all
    rcases List.mem_cons.mp member with rfl | later
    · rw [here]
      rfl
    · exact ih rest later

theorem mapM_append_some {α β : Type} {f : α → Option β} {xs ys : List α} {zs : List β}
    (all : (xs ++ ys).mapM f = some zs) :
    ∃ first second, zs = first ++ second ∧ xs.mapM f = some first ∧ ys.mapM f = some second := by
  rw [List.mapM_append] at all
  simp only [Option.bind_eq_bind, Option.bind_eq_some_iff] at all
  obtain ⟨first, here, second, there, same⟩ := all
  exact ⟨first, second, (Option.some.inj same).symm, here, there⟩

theorem mapM_some_append {α β : Type} {f : α → Option β} {xs : List α} {ys zs : List β}
    (all : xs.mapM f = some (ys ++ zs)) :
    ∃ first second, xs = first ++ second ∧ first.mapM f = some ys ∧ second.mapM f = some zs := by
  induction ys generalizing xs with
  | nil => exact ⟨[], xs, rfl, rfl, all⟩
  | cons y ys ih =>
    cases xs with
    | nil => cases all
    | cons x xs =>
      simp only [List.mapM_cons, List.cons_append, Option.bind_eq_bind, Option.bind_eq_some_iff]
        at all
      obtain ⟨y', here, rest, there, same⟩ := all
      obtain ⟨rfl, rfl⟩ := List.cons.inj (Option.some.inj same)
      obtain ⟨first, second, rfl, before, after⟩ := ih there
      exact ⟨x :: first, second, rfl, by simp [here, before], after⟩

end Prefix

section Perm

def Complete (messages : List Message) (pages : List (Nat × Nat)) (j : Nat) : Prop :=
  ∀ i, (pageAt messages (j, i)).isSome = true → (j, i) ∈ pages

theorem finished_iff (sent : Sent messages) {order : List (Nat × Nat)}
    (once : AtMostOnce messages order) {j : Nat} :
    j ∈ finished order (missing messages order) ↔
      j < messages.length ∧ Complete messages order j := by
  have each := once.completes
  have absent : ∀ i, (j, i) ∈ missing messages order ↔
      (pageAt messages (j, i)).isSome = true ∧ (j, i) ∉ order := by
    intro i
    simp [missing, mem_allPages]
  rw [mem_finished]
  constructor
  · rintro ⟨⟨⟨k, i⟩, member, rfl⟩, none_⟩
    obtain ⟨blob, here⟩ := Option.isSome_iff_exists.mp (once.known _ member)
    obtain ⟨m, message, _⟩ := pageAt_some here
    refine ⟨(List.getElem?_eq_some_iff.mp message).1, ?_⟩
    intro x known
    by_contra gone
    exact none_ (k, x) ((absent x).mpr ⟨known, gone⟩) rfl
  · rintro ⟨inside, complete⟩
    obtain ⟨⟨k, i⟩, member, rfl⟩ :=
      some_page sent each (List.getElem?_eq_getElem inside)
    refine ⟨⟨(k, i), complete i ((each.all _).mp member), rfl⟩, ?_⟩
    rintro ⟨k', x⟩ later rfl
    obtain ⟨known, gone⟩ := (absent x).mp later
    exact gone (complete x known)

theorem wholly_eq (messages : List Message) (order : List (Nat × Nat))
    [DecidablePred (Complete messages order)] :
    wholly shouldCollect messages order =
      ((List.range messages.length).filter fun j => decide (Complete messages order j)).filterMap
        (handsOut shouldCollect messages) := by
  rw [List.filterMap_filter]
  apply List.filterMap_congr
  intro j member
  have inside := List.mem_range.mp member
  have message : messages[j]? = some messages[j] := List.getElem?_eq_getElem inside
  have complete : (∀ i < messages[j].pages.length, (j, i) ∈ order) ↔
      Complete messages order j := by
    have known : ∀ i, (pageAt messages (j, i)).isSome = true ↔ i < messages[j].pages.length := by
      intro i
      simp [pageAt, message]
    simp only [Complete, known]
  simp only [message, handsOut, Option.bind_eq_bind, Option.bind_some, complete]
  by_cases whole : Complete messages order j
  · simp [whole]
  · simp [whole]

end Perm

theorem completed_order (sent : Sent messages) {order : List (Nat × Nat)}
    (once : AtMostOnce messages order) :
    ∃ blobs results allocations, order.mapM (pageAt messages) = some blobs ∧
      receiveAll shouldCollect .empty blobs = some (results, allocations) ∧
      completed results = (finished order (missing messages order)).filterMap
        (handsOut shouldCollect messages) := by
  have each := once.completes
  obtain ⟨blobs, results, _, pages, all, _, length, answers⟩ :=
    @receiveAll_holding messages shouldCollect sent (order ++ missing messages order) [] .empty
      (by simpa using each) holding_empty
  obtain ⟨arrived, later, rfl, pages', _⟩ := mapM_append_some pages
  obtain ⟨first, second, middle, rfl, done⟩ := receiveAll_prefix all
  refine ⟨arrived, first, middle, pages', done, ?_⟩
  have count : first.length = order.length := by
    rw [receiveAll_length done]
    exact mapM_length pages'
  apply completed_finished (missing messages order) order first count
  · intro p member
    obtain ⟨blob, here⟩ := Option.isSome_iff_exists.mp (once.known p member)
    obtain ⟨m, message, _⟩ := pageAt_some here
    simp [message]
  · intro n j i m here message
    have inside := (List.getElem?_eq_some_iff.mp here).1
    have answer_ := answers n j i m (by rw [List.getElem?_append_left inside, here]) message
    rw [List.getElem?_append_left (by omega)] at answer_
    rw [answer_, List.drop_append_of_le_length (by omega)]

/-- Exactly the wanted messages have come out that are there with all their pages, and each of
    them once. -/
theorem completed_perm (sent : Sent messages) {order : List (Nat × Nat)}
    (once : AtMostOnce messages order) :
    ∃ blobs results allocations, order.mapM (pageAt messages) = some blobs ∧
      receiveAll shouldCollect .empty blobs = some (results, allocations) ∧
      (completed results).Perm (wholly shouldCollect messages order) := by
  classical
  obtain ⟨blobs, results, allocations, pages, all, came⟩ :=
    @completed_order shouldCollect messages sent order once
  refine ⟨blobs, results, allocations, pages, all, ?_⟩
  rw [came, wholly_eq]
  apply List.Perm.filterMap
  apply (List.perm_ext_iff_of_nodup (nodup_finished _ _) (List.nodup_range.filter _)).mpr
  intro j
  rw [finished_iff sent once, List.mem_filter, List.mem_range, decide_eq_true_iff]

section Drawn

theorem completes_wanted (sent : Sent messages) {allocations allocations' : MergeAllocs}
    {m : Message} (member : m ∈ messages) {i : Nat} {blob : Blob}
    (page : m.pages[i]? = some blob) {message : List UInt8 × Nat}
    (received : tryRecvStream shouldCollect allocations (some blob) =
      some (.newCompleted message, allocations')) : shouldCollect m.header = true := by
  by_contra unwanted
  obtain ⟨_, ⟨short, _⟩ | ⟨cut, size, each⟩⟩ := (sent.accepted m member).pages_spec
  · obtain ⟨_, _, single⟩ :=
      tryRecvStream_single (sent.accepted m member) short page shouldCollect allocations
    rw [if_neg unwanted] at single
    cases single.symm.trans received
  · have range := (List.getElem?_eq_some_iff.mp page).1
    have few := sent.few m member
    rw [size] at few range
    obtain ⟨blob', there, fragment⟩ := each i range
    obtain rfl := Option.some.inj (page.symm.trans there)
    have skipped := receivePage_fragment cut few shouldCollect allocations range fragment
    rw [if_neg unwanted] at skipped
    have nothing : tryRecvStream shouldCollect allocations (some blob) =
        some (.potentiallyAvailable, allocations) := by
      simp [tryRecvStream, skipped]
    cases nothing.symm.trans received

theorem receiveAll_drawn (sent : Sent messages) {blobs : List Blob}
    (drawn : ∀ blob ∈ blobs, ∃ p, pageAt messages p = some blob) :
    ∀ {allocations}, Partial messages allocations → ∃ results allocations',
      receiveAll shouldCollect allocations blobs = some (results, allocations') ∧
      Partial messages allocations' ∧
      ∀ message ∈ completed results, ∃ m ∈ messages, shouldCollect m.header = true ∧
        message = (m.payload, m.headerSize) := by
  induction blobs with
  | nil =>
    intro allocations held
    exact ⟨[], allocations, rfl, held, by simp⟩
  | cons blob blobs ih =>
    intro allocations held
    obtain ⟨p, here⟩ := drawn blob (List.mem_cons_self ..)
    obtain ⟨m, message, page⟩ := pageAt_some here
    have member := List.mem_of_getElem? message
    obtain ⟨result, allocations₁, received, held₁, first⟩ :=
      partial_step sent held member page shouldCollect
    obtain ⟨results, allocations', all, held', later⟩ :=
      ih (fun blob more => drawn blob (List.mem_cons_of_mem _ more)) held₁
    refine ⟨result :: results, allocations', by simp [receiveAll, received, all], held', ?_⟩
    intro out among
    rw [completed_cons, List.mem_append] at among
    rcases among with now | next
    · cases result with
      | newCompleted whole =>
        obtain rfl : out = whole := List.mem_singleton.mp now
        exact ⟨m, member, completes_wanted sent member page received, first _ rfl⟩
      | _ => cases now
    · exact later out next

end Drawn

end Iox2
