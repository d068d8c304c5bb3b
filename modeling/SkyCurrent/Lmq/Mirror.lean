import SkyCurrent.Lmq.Queues

/- The nodes of one queue inside a larger heap. The loops of push and try_next do not
   depend on where the nodes lie, as long as no two of them are laid on one another. -/
namespace Lmq

open PointerForest

/-- Node `x` of `h` is node `place x` of `H`. The two agree up to their targets, which
    are only related by `T`. -/
structure Mirror (place : Nat → Nat) (T : Option Consumers → Option Consumers → Prop)
    (h H : Heap) : Prop where
  range : ∀ x, x < h.size → place x < H.size
  inj : ∀ x y, x < h.size → y < h.size → place x = place y → x = y
  payload : ∀ x, x < h.size → (H.node (place x)).payload = (h.node x).payload
  next : ∀ x, x < h.size → H.next (place x) = (h.next x).map place
  targets : ∀ x, x < h.size → T (h.node x).targetConsumers (H.node (place x)).targetConsumers

def Heap.Closed (h : Heap) : Prop := ∀ x y, x < h.size → h.next x = some y → y < h.size

theorem WellLinked.closed_heap {h : Heap} {q : LinkMessageQueue} (well : WellLinked h q) :
    h.Closed := fun x y range link => (well.closed x y range link).1

section Mirror

variable {place : Nat → Nat} {T : Option Consumers → Option Consumers → Prop} {h H : Heap}

theorem Mirror.isClaimed (mir : Mirror place T h H) {x : Nat} (range : x < h.size) :
    (H.node (place x)).isClaimed = (h.node x).isClaimed := by
  simp only [NextMessage.isClaimed, mir.payload x range]

theorem Mirror.unclaimed (mir : Mirror place T h H) {x : Nat} (range : x < h.size) :
    H.Unclaimed (place x) ↔ h.Unclaimed x := by
  simp only [Heap.Unclaimed, mir.isClaimed range]

theorem Mirror.size_le (mir : Mirror place T h H) : h.size ≤ H.size := by
  have into : ∀ x ∈ Finset.range h.size, place x ∈ Finset.range H.size := by
    intro x member
    rw [Finset.mem_range] at member ⊢
    exact mir.range x member
  have injective : Set.InjOn place (Finset.range h.size) := by
    intro x memberX y memberY same
    rw [Finset.mem_coe, Finset.mem_range] at memberX memberY
    exact mir.inj x y memberX memberY same
  simpa using Finset.card_le_card_of_injOn place into injective

theorem Mirror.modify {r : Nat} {f F : NextMessage → NextMessage} (mir : Mirror place T h H)
    (range : r < h.size)
    (payload : (F (H.node (place r))).payload = (f (h.node r)).payload)
    (next : (F (H.node (place r))).next = (f (h.node r)).next.map place)
    (targets : T (f (h.node r)).targetConsumers (F (H.node (place r))).targetConsumers) :
    Mirror place T (h.modify r f) (H.modify (place r) F) := by
  have here : (H.modify (place r) F).node (place r) = F (H.node (place r)) := by
    simp [Heap.modify]
  have hereLocal : (h.modify r f).node r = f (h.node r) := by simp [Heap.modify]
  have elsewhere : ∀ x, x < h.size → x ≠ r →
      (H.modify (place r) F).node (place x) = H.node (place x) ∧
        (h.modify r f).node x = h.node x := by
    intro x rangeX apart
    have apart' : place x ≠ place r := fun same => apart (mir.inj x r rangeX range same)
    simp [Heap.modify, Function.update_of_ne apart, Function.update_of_ne apart']
  refine ⟨mir.range, mir.inj, ?_, ?_, ?_⟩
  · intro x rangeX
    by_cases same : x = r
    · rw [same, here, hereLocal]
      exact payload
    · rw [(elsewhere x rangeX same).1, (elsewhere x rangeX same).2]
      exact mir.payload x rangeX
  · intro x rangeX
    by_cases same : x = r
    · rw [same, Heap.next, Heap.next, here, hereLocal]
      exact next
    · rw [Heap.next, Heap.next, (elsewhere x rangeX same).1, (elsewhere x rangeX same).2]
      exact mir.next x rangeX
  · intro x rangeX
    by_cases same : x = r
    · rw [same, here, hereLocal]
      exact targets
    · rw [(elsewhere x rangeX same).1, (elsewhere x rangeX same).2]
      exact mir.targets x rangeX

theorem Mirror.setNext (mir : Mirror place T h H) {r : Nat} (range : r < h.size)
    (v : Option Nat) : Mirror place T (h.setNext r v) (H.setNext (place r) (v.map place)) :=
  mir.modify range (mir.payload r range) rfl (mir.targets r range)

theorem Mirror.setTargets (mir : Mirror place T h H) {r : Nat} (range : r < h.size)
    {v V : Option Consumers} (related : T v V) :
    Mirror place T (h.setTargets r v) (H.setTargets (place r) V) :=
  mir.modify range (mir.payload r range) (mir.next r range) related

theorem Mirror.claimed (mir : Mirror place T h H) {r : Nat} (range : r < h.size) :
    Mirror place T (claim h r).1 (claim H (place r)).1 :=
  mir.modify (f := fun n => { n with payload := none }) (F := fun n => { n with payload := none })
    range rfl (mir.next r range) (mir.targets r range)

theorem claim_claimed {h : Heap} {r : Nat} (claimed : ¬ h.Unclaimed r) : (claim h r).1 = h := by
  have gone : (h.node r).payload = none := by
    simpa [Heap.Unclaimed, NextMessage.isClaimed] using claimed
  have same : { h.node r with payload := none } = h.node r := by
    rw [← gone]
  simp [claim, Heap.modify, same]

theorem Mirror.frame (mir : Mirror place T h H) {H' : Heap} (size : H.size ≤ H'.size)
    (same : ∀ x, x < h.size → H'.node (place x) = H.node (place x)) : Mirror place T h H' := by
  refine ⟨?_, mir.inj, ?_, ?_, ?_⟩
  · intro x range
    exact Nat.lt_of_lt_of_le (mir.range x range) size
  · intro x range
    rw [same x range]
    exact mir.payload x range
  · intro x range
    rw [Heap.next, same x range]
    exact mir.next x range
  · intro x range
    rw [same x range]
    exact mir.targets x range

theorem Mirror.weaken {T' : Option Consumers → Option Consumers → Prop}
    (mir : Mirror place T h H)
    (weaker : ∀ x, x < h.size → T (h.node x).targetConsumers (H.node (place x)).targetConsumers →
      T' (h.node x).targetConsumers (H.node (place x)).targetConsumers) :
    Mirror place T' h H :=
  ⟨mir.range, mir.inj, mir.payload, mir.next,
    fun x range => weaker x range (mir.targets x range)⟩

theorem Mirror.alloc {place' : Nat → Nat} {n N : NextMessage} (mir : Mirror place T h H)
    (closed : h.Closed) (old : ∀ x, x < h.size → place' x = place x)
    (new : place' h.size = H.size) (payload : N.payload = n.payload)
    (next : N.next = n.next.map place') (targets : T n.targetConsumers N.targetConsumers) :
    Mirror place' T (h.alloc n).1 (H.alloc N).1 := by
  have cases_ : ∀ x, x < (h.alloc n).1.size → x = h.size ∨
      x < h.size ∧ place' x = place x ∧ place x ≠ H.size ∧
        (h.alloc n).1.node x = h.node x ∧ (H.alloc N).1.node (place x) = H.node (place x) := by
    intro x range
    by_cases same : x = h.size
    · exact Or.inl same
    · have before : x < h.size := by
        change x < h.size + 1 at range
        omega
      have apart : place x ≠ H.size := Nat.ne_of_lt (mir.range x before)
      exact Or.inr ⟨before, old x before, apart, by simp [Heap.alloc, same],
        by simp [Heap.alloc, apart]⟩
  have here : (H.alloc N).1.node (place' h.size) = N := by simp [Heap.alloc, new]
  have hereLocal : (h.alloc n).1.node h.size = n := by simp [Heap.alloc]
  refine ⟨?_, ?_, ?_, ?_, ?_⟩
  · intro x range
    change place' x < H.size + 1
    rcases cases_ x range with rfl | ⟨before, same, _⟩
    · rw [new]
      exact Nat.lt_succ_self _
    · rw [same]
      exact Nat.lt_succ_of_lt (mir.range x before)
  · intro x y rangeX rangeY equal
    rcases cases_ x rangeX with rfl | ⟨beforeX, sameX, apartX, _⟩
    · rcases cases_ y rangeY with rfl | ⟨_, sameY, apartY, _⟩
      · rfl
      · rw [new, sameY] at equal
        exact absurd equal.symm apartY
    · rcases cases_ y rangeY with rfl | ⟨beforeY, sameY, _⟩
      · rw [new, sameX] at equal
        exact absurd equal apartX
      · rw [sameX, sameY] at equal
        exact mir.inj x y beforeX beforeY equal
  · intro x range
    rcases cases_ x range with rfl | ⟨before, same, _, nodeL, nodeH⟩
    · rw [here, hereLocal]
      exact payload
    · rw [same, nodeL, nodeH]
      exact mir.payload x before
  · intro x range
    rcases cases_ x range with rfl | ⟨before, same, _, nodeL, nodeH⟩
    · rw [Heap.next, Heap.next, here, hereLocal]
      exact next
    · rw [Heap.next, Heap.next, same, nodeL, nodeH]
      have link := mir.next x before
      rw [Heap.next] at link
      rw [link]
      apply Option.map_congr
      intro y reached
      exact (old y (closed x y before reached)).symm
  · intro x range
    rcases cases_ x range with rfl | ⟨before, same, _, nodeL, nodeH⟩
    · rw [here, hereLocal]
      exact targets
    · rw [same, nodeL, nodeH]
      exact mir.targets x before

theorem Mirror.found (mir : Mirror place T h H) (closed : h.Closed) {tail : Nat}
    (tailRange : tail < h.size) {n N x e : Nat} (range : x < h.size) (more : n ≤ N)
    (run : findLast h tail n x = some e) :
    e < h.size ∧ findLast H (place tail) N (place x) = some (place e) := by
  induction n generalizing N x with
  | zero => simp [findLast] at run
  | succ n ih =>
    cases N with
    | zero => omega
    | succ N =>
      have linkH := mir.next x range
      cases link : h.next x with
      | none =>
        simp only [findLast, link, Option.some.injEq] at run
        subst run
        exact ⟨range, by simp [findLast, linkH, link]⟩
      | some y =>
        have rangeY := closed x y range link
        simp only [findLast, link] at run
        simp only [findLast, linkH, link, Option.map_some]
        by_cases last : y = tail
        · rw [if_pos last] at run
          obtain rfl := Option.some.inj run
          exact ⟨range, if_pos (congrArg place last)⟩
        · have apart : place y ≠ place tail := fun same =>
            last (mir.inj y tail rangeY tailRange same)
          rw [if_neg last] at run
          rw [if_neg apart]
          exact ih rangeY (Nat.le_of_succ_le_succ more) run

theorem Mirror.pruned (mir : Mirror place T h H) {p y w : Nat} {c : Bool} (rangeP : p < h.size)
    (rangeY : y < h.size) :
    Mirror place T (Lmq.pruned h p c y w) (Lmq.pruned H (place p) c (place y) (place w)) := by
  have first := mir.setNext rangeP (some w)
  cases c with
  | true => exact first
  | false => exact first.setNext rangeY (some p)

theorem closed_pruned {h : Heap} (closed : h.Closed) {p y w : Nat} {c : Bool}
    (rangeP : p < h.size) (rangeW : w < h.size) : (Lmq.pruned h p c y w).Closed := by
  have frame := relinked_pruned h p c y w
  intro x v rangeX link
  rw [frame.size] at rangeX ⊢
  rcases pruned_cases x v link with ⟨_, rfl⟩ | ⟨_, rfl, _⟩ | old
  · exact rangeW
  · exact rangeP
  · exact closed x v rangeX old

theorem Mirror.walked (mir : Mirror place T h H) (closed : h.Closed) {p : Nat} {c : Bool}
    (range : p < h.size) {n N : Nat} {y dest : Option Nat} {h' : Heap}
    (start : ∀ x, y = some x → x < h.size) (more : n ≤ N)
    (run : walk p c n h y = some (h', dest)) :
    ∃ H', walk (place p) c N H (y.map place) = some (H', dest.map place) ∧
      Mirror place T h' H' := by
  refine walk_induct (P := fun n h y h' dest => ∀ N H, Mirror place T h H → h.Closed →
    p < h.size → (∀ x, y = some x → x < h.size) → n ≤ N →
      ∃ H', walk (place p) c N H (y.map place) = some (H', dest.map place) ∧
        Mirror place T h' H') ?_ ?_ ?_ run N H mir closed range start more
  · intro _ h N H mir _ _ _ _
    exact ⟨H, by cases N <;> simp [walk], mir⟩
  · intro n h y back stops N H mir _ range start more
    obtain ⟨N, rfl⟩ := Nat.exists_eq_add_of_lt more
    have rangeY := start y rfl
    have linkH := mir.next y rangeY
    have apart : place y ≠ place p := fun same => back (mir.inj y p rangeY range same)
    have stopsH : H.Unclaimed (place y) ∨ H.next (place y) = none := by
      rw [mir.unclaimed rangeY, linkH, Option.map_eq_none_iff]
      exact stops
    refine ⟨_, ?_, mir.setNext range (some y)⟩
    rw [Option.map_some, walk_stop apart stopsH, linkH, Option.map_map, Option.map_map]
    rfl
  · intro n h y w h' dest back claimed link rest N H mir closed range start more
    obtain ⟨N, rfl⟩ := Nat.exists_eq_add_of_lt more
    have rangeY := start y rfl
    have linkH : H.next (place y) = some (place w) := by
      rw [mir.next y rangeY, link]
      rfl
    have apart : place y ≠ place p := fun same => back (mir.inj y p rangeY range same)
    have claimedH : ¬ H.Unclaimed (place y) := fun open_ =>
      claimed ((mir.unclaimed rangeY).mp open_)
    have rangeW := closed y w rangeY link
    have frame := relinked_pruned h p c y w
    rw [Option.map_some, walk_prune apart claimedH linkH]
    refine rest _ _ (mir.pruned range rangeY) (closed_pruned closed range rangeW) ?_ ?_ (by omega)
    · rw [frame.size]
      exact range
    · intro x same
      obtain rfl := Option.some.inj same
      rw [frame.size]
      exact rangeW

theorem Mirror.appended {place' : Nat → Nat} {active actives : Consumers}
    {q q' Q : LinkMessageQueue} {payload : List UInt8} {h' : Heap} (mir : Mirror place T h H)
    (well : WellLinked h q) (old : ∀ x, x < h.size → place' x = place x)
    (new : place' h.size = H.size) (tail : Q.tail = place q.tail) (last : Q.last = place q.last)
    (targets : T (some active) (some actives))
    (run : push true h active q payload = some (h', q')) :
    ∃ H', push true H actives Q payload = some (H', { Q with last := H.size }) ∧
      Mirror place' T h' H' := by
  have tailRange : q.tail < h.size := Nat.lt_trans well.tail_lt well.root_lt
  have grown := mir.alloc (n := newNode true active q.tail payload)
    (N := newNode true actives Q.tail payload) well.closed_heap old new rfl
    (by simp [newNode, tail, old _ tailRange]) targets
  have closed : (h.alloc (newNode true active q.tail payload)).1.Closed := by
    intro x y range link
    change y < h.size + 1
    rw [next_alloc] at link
    by_cases same : x = h.size
    · rw [same, Function.update_self] at link
      obtain rfl := Option.some.inj link
      omega
    · rw [Function.update_of_ne same] at link
      change x < h.size + 1 at range
      have before := well.closed_heap x y (by omega) link
      omega
  simp only [push, Option.map_eq_some_iff, Prod.mk.injEq] at run
  obtain ⟨e, found, rfl, _⟩ := run
  have lastRange := well.last_range
  have more : (h.alloc (newNode true active q.tail payload)).1.size ≤
      (H.alloc (newNode true actives Q.tail payload)).1.size := Nat.succ_le_succ mir.size_le
  obtain ⟨range, foundH⟩ := grown.found closed (Nat.lt_succ_of_lt tailRange)
    (Nat.lt_succ_of_lt lastRange) more found
  rw [old _ tailRange, old _ lastRange, ← tail, ← last] at foundH
  have linked := grown.setNext range (some h.size)
  rw [Option.map_some, new] at linked
  refine ⟨_, ?_, linked⟩
  simp only [push, foundH, Option.map_some]
  rfl

end Mirror

section Registry

def OwnPart (own : List Nat) (l L : Consumers) : Prop :=
  ∀ id c, (id, c) ∈ l ↔ ∃ t, own[c]? = some t ∧ (id, t) ∈ L

variable {own : List Nat} {l L : Consumers} {strongCount strongCounts : Nat → Nat}

theorem OwnPart.remove (part : OwnPart own l L) (id : UInt64) :
    OwnPart own (l.remove id) (L.remove id) := by
  intro i c
  simp only [mem_remove, part i c]
  constructor
  · rintro ⟨⟨t, place, entry⟩, other⟩
    exact ⟨t, place, entry, other⟩
  · rintro ⟨t, place, entry, other⟩
    exact ⟨⟨t, place, entry⟩, other⟩

theorem OwnPart.allDead_iff (part : OwnPart own l L)
    (counts : ∀ c t, own[c]? = some t → strongCounts t = strongCount c) :
    l.allDead strongCount = true ↔ ∀ e ∈ L, strongCounts e.2 ≠ 0 → e.2 ∉ own := by
  rw [Lmq.allDead_iff]
  constructor
  · intro dead e entry alive member
    obtain ⟨c, place⟩ := List.getElem?_of_mem member
    have gone := dead (e.1, c) ((part e.1 c).mpr ⟨e.2, place, entry⟩)
    exact alive ((counts c e.2 place).trans gone)
  · rintro others ⟨id, c⟩ entry
    obtain ⟨t, place, entryL⟩ := (part id c).mp entry
    by_contra alive
    rw [← counts c t place] at alive
    exact others (id, t) entryL alive (List.mem_of_getElem? place)

theorem OwnPart.insert (part : OwnPart own l L) (id : UInt64) (new : Nat)
    (counts : ∀ c t, own[c]? = some t → strongCounts t = strongCount c)
    (fresh : ∀ t ∈ own, t ≠ new) (older : ∀ e ∈ L, e.2 ≠ new) :
    OwnPart (own ++ [new])
      ((l.retainLive (Function.update strongCount own.length 1)).insert id own.length)
      ((L.retainLive (Function.update strongCounts new 1)).insert id new) := by
  intro i c
  simp only [mem_insert, mem_retainLive, Prod.mk.injEq]
  rcases Nat.lt_trichotomy c own.length with before | same | beyond
  · have apart : c ≠ own.length := Nat.ne_of_lt before
    rw [List.getElem?_append_left before, part i c]
    constructor
    · rintro (⟨_, now⟩ | ⟨⟨⟨t, place, entry⟩, alive⟩, other⟩)
      · exact absurd now apart
      · have notNew := fresh t (List.mem_of_getElem? place)
        rw [Function.update_of_ne apart, ← counts c t place] at alive
        refine ⟨t, place, Or.inr ⟨⟨entry, ?_⟩, other⟩⟩
        rwa [Function.update_of_ne notNew]
    · rintro ⟨t, place, (⟨_, now⟩ | ⟨⟨entry, alive⟩, other⟩)⟩
      · exact absurd now (fresh t (List.mem_of_getElem? place))
      · have notNew := fresh t (List.mem_of_getElem? place)
        rw [Function.update_of_ne notNew, counts c t place] at alive
        refine Or.inr ⟨⟨⟨t, place, entry⟩, ?_⟩, other⟩
        rwa [Function.update_of_ne apart]
  · subst same
    rw [List.getElem?_concat_length]
    constructor
    · rintro (⟨rfl, _⟩ | ⟨⟨entry, _⟩, _⟩)
      · exact ⟨new, rfl, Or.inl ⟨rfl, rfl⟩⟩
      · obtain ⟨t, place, _⟩ := (part i _).mp entry
        simp at place
    · rintro ⟨t, place, (⟨rfl, _⟩ | ⟨⟨entry, _⟩, _⟩)⟩
      · exact Or.inl ⟨rfl, rfl⟩
      · obtain rfl := Option.some.inj place
        exact absurd rfl (older _ entry)
  · have none_ : (own ++ [new])[c]? = none := by
      apply List.getElem?_eq_none
      simp only [List.length_append, List.length_singleton]
      omega
    rw [none_]
    constructor
    · rintro (⟨_, now⟩ | ⟨⟨entry, _⟩, _⟩)
      · omega
      · obtain ⟨t, place, _⟩ := (part i c).mp entry
        rw [List.getElem?_eq_none (by omega)] at place
        cases place
    · rintro ⟨t, place, _⟩
      cases place

theorem OwnPart.frame (part : OwnPart own l L) {L' : Consumers}
    (back : ∀ e ∈ L', e.2 ∈ own → e ∈ L)
    (stays : ∀ e ∈ L, e.2 ∈ own → e ∈ L') : OwnPart own l L' := by
  intro i c
  rw [part i c]
  constructor
  · rintro ⟨t, place, entry⟩
    exact ⟨t, place, stays _ entry (List.mem_of_getElem? place)⟩
  · rintro ⟨t, place, entry⟩
    exact ⟨t, place, back _ entry (List.mem_of_getElem? place)⟩

theorem OwnPart.grow (part : OwnPart own l L) {new : Nat} (older : ∀ e ∈ L, e.2 ≠ new) :
    OwnPart (own ++ [new]) l L := by
  intro i c
  rw [part i c]
  constructor
  · rintro ⟨t, place, entry⟩
    have range : c < own.length := (List.getElem?_eq_some_iff.mp place).1
    exact ⟨t, by rwa [List.getElem?_append_left range], entry⟩
  · rintro ⟨t, place, entry⟩
    rcases Nat.lt_or_ge c own.length with before | beyond
    · rw [List.getElem?_append_left before] at place
      exact ⟨t, place, entry⟩
    · rw [List.getElem?_append_right beyond] at place
      have last : t = new := by
        simpa using List.mem_of_getElem? place
      exact absurd last (older _ entry)

end Registry

section Checked

/-- The message `self` stands on is kept unclaimed by consumers of other queues alone. -/
def HeldByOthers (own : List Nat) (strongCount : Nat → Nat) (h : Heap)
    (self : MessageConsumer) : Prop :=
  h.Unclaimed self.current ∧
    (∃ e ∈ (h.targets self.current).remove self.id, strongCount e.2 ≠ 0) ∧
    ∀ e ∈ (h.targets self.current).remove self.id, strongCount e.2 ≠ 0 → e.2 ∉ own

instance (own : List Nat) (strongCount : Nat → Nat) (h : Heap) (self : MessageConsumer) :
    Decidable (HeldByOthers own strongCount h self) :=
  inferInstanceAs (Decidable (_ ∧ _ ∧ _))

variable {place : Nat → Nat} {own : List Nat} {h H : Heap}
  {strongCount strongCounts : Nat → Nat} {self selves : MessageConsumer}

theorem Mirror.checked (mir : Mirror place (Option.Rel (OwnPart own)) h H)
    (range : self.current < h.size) (current : selves.current = place self.current)
    (id : selves.id = self.id)
    (counts : ∀ c t, own[c]? = some t → strongCounts t = strongCount c)
    (free : ¬ HeldByOthers own strongCounts H selves) :
    Mirror place (Option.Rel (OwnPart own)) (Lmq.checked true strongCount h self)
      (Lmq.checked true strongCounts H selves) := by
  have related := mir.targets self.current range
  simp only [Lmq.checked, if_true, checkShouldNowAutodrop, current, id]
  cases found : (h.node self.current).targetConsumers with
  | none =>
    rw [found] at related
    cases foundH : (H.node (place self.current)).targetConsumers with
    | none => exact mir
    | some targets =>
      rw [foundH] at related
      cases related
  | some l =>
    rw [found] at related
    cases foundH : (H.node (place self.current)).targetConsumers with
    | none =>
      rw [foundH] at related
      cases related
    | some L =>
      rw [foundH] at related
      cases related with
      | some part =>
        have removed := part.remove self.id
        have set := mir.setTargets range (Option.Rel.some removed)
        have deadL := removed.allDead_iff counts
        dsimp only
        by_cases dead : (L.remove self.id).allDead strongCounts = true
        · have all := (allDead_iff ..).mp dead
          have both := deadL.mpr fun e entry alive => absurd (all e entry) alive
          rw [if_pos dead, if_pos both]
          exact set.claimed range
        · rw [if_neg dead]
          by_cases ownDead : (l.remove self.id).allDead strongCount = true
          · rw [if_pos ownDead]
            -- Only others hold the message, so it must have been claimed before.
            have gone : ¬ h.Unclaimed self.current := by
              intro unclaimed
              apply free
              have left : H.targets selves.current = L := by
                rw [current, Heap.targets, foundH, Option.getD_some]
              rw [HeldByOthers, left, id, current]
              refine ⟨(mir.unclaimed range).mpr unclaimed, ?_, deadL.mp ownDead⟩
              rw [allDead_iff] at dead
              push Not at dead
              exact dead
            rw [claim_claimed (by rw [unclaimed_setTargets]; exact gone)]
            exact set
          · rw [if_neg ownDead]
            exact set

theorem Mirror.tried {q : LinkMessageQueue} {h' : Heap} {dest : Option Nat}
    {self' : MessageConsumer} (mir : Mirror place (Option.Rel (OwnPart own)) h H)
    (well : WellLinked h q) (range : self.current < h.size)
    (current : selves.current = place self.current) (id : selves.id = self.id)
    (counts : ∀ c t, own[c]? = some t → strongCounts t = strongCount c)
    (free : ¬ HeldByOthers own strongCounts H selves)
    (run : tryNext true strongCount h self = some (h', self', dest)) :
    ∃ H', tryNext true strongCounts H selves =
        some (H', { selves with current := place (dest.getD self.current) }, dest.map place) ∧
      Mirror place (Option.Rel (OwnPart own)) h' H' := by
  have mir' := mir.checked range current id counts free
  have well' := well.claimedSince (claimedSince_checked true strongCount h self)
  have range' : self.current < (Lmq.checked true strongCount h self).size := by
    rw [size_checked]
    exact range
  obtain ⟨walked, _⟩ := tryNext_walks run
  obtain ⟨H', walkedH, mirrored⟩ := mir'.walked well'.closed_heap range'
    (fun x link => well'.closed_heap _ x range' link) mir'.size_le walked
  refine ⟨H', ?_, mirrored⟩
  rw [← mir'.next _ range', ← mir'.isClaimed range', ← current] at walkedH
  simp only [tryNext, walkedH, Option.map_some]
  cases dest with
  | none => simp [current]
  | some f => rfl

end Checked

end Lmq
