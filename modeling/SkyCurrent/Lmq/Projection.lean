import SkyCurrent.Lmq.Apart
import SkyCurrent.Lmq.Mirror

/- One queue of a process, next to a process that has this queue only. The two go through the
   same states, up to where nodes and trackers lie, as long as no message of the queue is kept
   by consumers of other queues alone. -/
namespace Lmq

open Runs

structure Listed (s : System) : Prop where
  entry : ∀ e ∈ s.active, ∃ self, s.consumers e.2 = some self ∧ self.id = e.1
  alive : ∀ c self, s.consumers c = some self → s.strongCount c ≠ 0

theorem step_listed {s t : System} {op : Op} (listed : Listed s) (sound : Sound s)
    (move : Step true s op t) : Listed t := by
  cases op with
  | push payload =>
    obtain ⟨e, _, _, rfl⟩ := step_push sound move
    exact ⟨listed.entry, listed.alive⟩
  | createConsumer id =>
    obtain rfl := step_create move
    have older : ∀ c self, s.consumers c = some self → c ≠ s.trackers := fun c self live =>
      Nat.ne_of_lt (sound.tracked c self live).2
    constructor
    · intro e entry
      rcases (mem_insert ..).mp entry with rfl | ⟨kept, _⟩
      · exact ⟨⟨s.queue.root, id, s.trackers⟩, Function.update_self .., rfl⟩
      · obtain ⟨self, live, same⟩ := listed.entry e ((mem_retainLive ..).mp kept).1
        refine ⟨self, ?_, same⟩
        exact (Function.update_of_ne (older _ self live) ..).trans live
    · intro c self live
      by_cases new : c = s.trackers
      · simp [createConsumer, new]
      · simp only [Function.update_of_ne new] at live
        simpa [createConsumer, Function.update_of_ne new] using listed.alive c self live
  | tryNext c =>
    obtain ⟨self, h', dest, live, _, _, rfl⟩ := step_tryNext sound move
    constructor
    · intro e entry
      obtain ⟨other, liveD, same⟩ := listed.entry e entry
      by_cases atC : e.2 = c
      · rw [atC, live] at liveD
        obtain rfl := Option.some.inj liveD
        exact ⟨{ self with current := dest.getD self.current }, by simp [atC], same⟩
      · exact ⟨other, by simpa [Function.update_of_ne atC] using liveD, same⟩
    · intro d other liveD
      by_cases atC : d = c
      · exact atC ▸ listed.alive c self live
      · simp only [Function.update_of_ne atC] at liveD
        exact listed.alive d other liveD
  | claim handle =>
    obtain ⟨m, _, rfl⟩ := step_claim move
    exact ⟨listed.entry, listed.alive⟩
  | drop c =>
    obtain ⟨self, live, rfl⟩ := step_drop move
    have tracker := (sound.tracked c self live).1
    constructor
    · intro e entry
      obtain ⟨kept, differs⟩ := (mem_remove ..).mp entry
      obtain ⟨other, liveD, same⟩ := listed.entry e kept
      have atC : e.2 ≠ c := by
        intro now
        rw [now, live] at liveD
        exact differs (Option.some.inj liveD ▸ same).symm
      exact ⟨other, by simpa [Function.update_of_ne atC] using liveD, same⟩
    · intro d other liveD
      by_cases atC : d = c
      · simp [atC] at liveD
      · simp only [Function.update_of_ne atC] at liveD
        have before := listed.alive d other liveD
        simpa [dropConsumer, tracker, Function.update_of_ne atC] using before

theorem run_listed {trace : List (System × Op)} {s : System} (run : QueueRun true trace s) :
    Listed s := by
  induction run with
  | nil first =>
    subst first
    constructor <;> simp [System.init]
  | snoc before move ih => exact step_listed ih (run_sound before) move

def Member.place (m : Member) (x : Nat) : Nat := m.nodes.getD x 0

def Member.moved (m : Member) (self : MessageConsumer) : MessageConsumer :=
  ⟨m.place self.current, self.id, m.trackers.getD self.dropTracker 0⟩

/-- The queue `m` of the process is in the state `a` of a queue that is alone. -/
structure Mirrors (p : Process) (m : Member) (a : System) : Prop where
  size : m.nodes.length = a.heap.size
  heap : Mirror m.place (Option.Rel (OwnPart m.trackers)) a.heap p.heap
  last : m.queue.last = m.place a.queue.last
  active : OwnPart m.trackers a.active p.active
  created : m.trackers.length = a.trackers
  distinct : m.trackers.Nodup
  counts : ∀ c t, m.trackers[c]? = some t → p.strongCount t = a.strongCount c
  consumers : ∀ c, m.consumers c = (a.consumers c).map m.moved
  handles : m.handles = a.handles.map m.place
  handed : ∀ x ∈ a.handles, x < a.heap.size

section Mirrors

variable {p : Process} {m : Member} {a : System}

theorem Mirrors.place_mem (mir : Mirrors p m a) {x : Nat} (range : x < a.heap.size) :
    m.nodes[x]? = some (m.place x) := by
  have inside : x < m.nodes.length := by
    rw [mir.size]
    exact range
  rw [Member.place, List.getD_eq_getElem?_getD, List.getElem?_eq_getElem inside]
  rfl

theorem Mirrors.tracker (mir : Mirrors p m a) {c : Nat} (range : c < a.trackers) :
    m.trackers[c]? = some (m.trackers.getD c 0) := by
  have inside : c < m.trackers.length := by
    rw [mir.created]
    exact range
  rw [List.getD_eq_getElem?_getD, List.getElem?_eq_getElem inside]
  rfl

theorem Mirrors.ends (sound : Sound a) :
    m.queue.tail = m.place a.queue.tail ∧ m.queue.root = m.place a.queue.root := by
  rw [sound.well.tail_first, sound.well.root_second]
  exact ⟨rfl, rfl⟩

theorem mirrors_init (h : Heap) (p : Process) (heap : p.heap = (LinkMessageQueue.new h).1) :
    Mirrors p (.new (LinkMessageQueue.new h).2) System.init := by
  have init_node : ∀ x, System.init.heap.node x =
      if x = 1 then ⟨none, some 0, none⟩ else ⟨none, none, none⟩ := by
    intro x
    simp only [System.init, node_new, Heap.empty]
    split
    · rfl
    · split <;> rfl
  have places : ∀ x, x < System.init.heap.size →
      x = 0 ∧ Member.place (.new (LinkMessageQueue.new h).2) x = h.size ∨
      x = 1 ∧ Member.place (.new (LinkMessageQueue.new h).2) x = h.size + 1 := by
    intro x range
    change x < 2 at range
    have either : x = 0 ∨ x = 1 := by omega
    rcases either with rfl | rfl
    · exact Or.inl ⟨rfl, rfl⟩
    · exact Or.inr ⟨rfl, rfl⟩
  have tail : Member.place (.new (LinkMessageQueue.new h).2) 0 = h.size := rfl
  refine ⟨rfl, ⟨?_, ?_, ?_, ?_, ?_⟩, rfl, ?_, rfl, List.nodup_nil, ?_, fun c => rfl, rfl, ?_⟩
  · intro x range
    rw [heap]
    change _ < h.size + 2
    rcases places x range with ⟨_, place⟩ | ⟨_, place⟩ <;> omega
  · intro x y rangeX rangeY same
    rcases places x rangeX with ⟨rfl, placeX⟩ | ⟨rfl, placeX⟩ <;>
      rcases places y rangeY with ⟨rfl, placeY⟩ | ⟨rfl, placeY⟩
    · rfl
    · rw [placeX, placeY] at same
      omega
    · rw [placeX, placeY] at same
      omega
    · rfl
  · intro x range
    rcases places x range with ⟨rfl, place⟩ | ⟨rfl, place⟩ <;>
      simp [place, heap, node_new, init_node]
  · intro x range
    rcases places x range with ⟨rfl, place⟩ | ⟨rfl, place⟩ <;>
      simp [place, tail, heap, node_new, init_node, Heap.next]
  · intro x range
    rcases places x range with ⟨rfl, place⟩ | ⟨rfl, place⟩ <;>
      simp [place, heap, node_new, init_node]
  · intro id c
    simp [System.init, Member.new]
  · intro c t found
    simp [Member.new] at found
  · intro x member
    simp [System.init] at member

def Together (p : Process) (m : Member) (a : System) (op : Op) : Prop :=
  Option.Rel (fun a' r => Mirrors r.1 r.2 a') (step true a op) (m.step true p op)

theorem together_of {op : Op} (a' : System) (p' : Process) (m' : Member)
    (local_ : step true a op = some a') (there : m.step true p op = some (p', m'))
    (mir : Mirrors p' m' a') : Together p m a op := by
  rw [Together, local_, there]
  exact Option.Rel.some mir

theorem together_refused {op : Op} (local_ : step true a op = none)
    (there : m.step true p op = none) : Together p m a op := by
  rw [Together, local_, there]
  exact Option.Rel.none

theorem together_push (mir : Mirrors p m a) (sound : Sound a) (payload : List UInt8) :
    Together p m a (.push payload) := by
  obtain ⟨e, _, _, run⟩ := push_spec true a.active payload sound.well
  have ends := Mirrors.ends (m := m) sound
  have old : ∀ x, x < a.heap.size → (m.grown p.heap.size).place x = m.place x := by
    intro x range
    rw [Member.place, nodes_grown, List.getD_eq_getElem?_getD,
      List.getElem?_append_left (by rw [mir.size]; exact range), mir.place_mem range]
    rfl
  have new : (m.grown p.heap.size).place a.heap.size = p.heap.size := by
    rw [Member.place, nodes_grown, ← mir.size]
    simp
  obtain ⟨H', runH, heap⟩ := mir.heap.appended sound.well old new ends.1 mir.last
    (Option.Rel.some mir.active) run
  refine together_of { a with
      heap := appended a.heap e (newNode true a.active a.queue.tail payload)
      queue := { a.queue with last := a.heap.size } }
    { p with heap := H' } (m.grown p.heap.size) ?_ ?_ ?_
  · simp only [step, run]
    rfl
  · simp only [Member.step, runH]
    rfl
  · refine ⟨?_, heap, new.symm, mir.active, mir.created, mir.distinct, mir.counts, ?_, ?_, ?_⟩
    · rw [nodes_grown, List.length_append, mir.size]
      rfl
    · intro c
      change m.consumers c = (a.consumers c).map (m.grown p.heap.size).moved
      rw [mir.consumers c]
      apply Option.map_congr
      intro self live
      simp only [Member.moved, old _ (sound.placed c self live).1]
      rfl
    · change m.handles = _
      rw [mir.handles]
      apply List.map_congr_left
      intro x member
      exact (old x (mir.handed x member)).symm
    · intro x member
      exact Nat.lt_succ_of_lt (mir.handed x member)

theorem together_create (mir : Mirrors p m a) (sound : Sound a) (holds : m.Holds p)
    (registered : ∀ e ∈ p.active, e.2 < p.trackers) (id : UInt64) :
    Together p m a (.createConsumer id) := by
  refine together_of _ _ _ rfl rfl ?_
  have fresh : ∀ t ∈ m.trackers, t ≠ p.trackers := fun t member =>
    Nat.ne_of_lt (holds.trackers t member)
  refine ⟨mir.size, ?_, mir.last, ?_, ?_, ?_, ?_, ?_, mir.handles, mir.handed⟩
  · apply mir.heap.weaken
    intro x range related
    have member : m.place x ∈ m.nodes := List.mem_of_getElem? (mir.place_mem range)
    have waiting := holds.waiting _ member
    generalize (a.heap.node x).targetConsumers = l at related ⊢
    generalize found : (p.heap.node (m.place x)).targetConsumers = L at related ⊢
    cases related with
    | none => exact Option.Rel.none
    | some part =>
      refine Option.Rel.some (part.grow ?_)
      intro e entry
      refine Nat.ne_of_lt (waiting e ?_)
      rw [Heap.targets, found]
      exact entry
  · have inserted := mir.active.insert id p.trackers mir.counts fresh
      (fun e entry => Nat.ne_of_lt (registered e entry))
    rw [mir.created] at inserted
    exact inserted
  · simp [mir.created]
  · refine List.nodup_append.mpr ⟨mir.distinct, List.nodup_singleton _, ?_⟩
    intro t member t' new
    rw [List.mem_singleton.mp new]
    exact fresh t member
  · intro c t found
    change Function.update p.strongCount p.trackers 1 t =
      Function.update a.strongCount a.trackers 1 c
    rcases Nat.lt_or_ge c m.trackers.length with before | beyond
    · rw [List.getElem?_append_left before] at found
      have apart : c ≠ a.trackers := by
        rw [← mir.created]
        exact Nat.ne_of_lt before
      rw [Function.update_of_ne (fresh t (List.mem_of_getElem? found)), Function.update_of_ne apart]
      exact mir.counts c t found
    · rw [List.getElem?_append_right beyond] at found
      have last : c = m.trackers.length ∧ t = p.trackers := by
        have range := (List.getElem?_eq_some_iff.mp found).1
        have same := List.mem_of_getElem? found
        simp only [List.length_singleton] at range
        simp only [List.mem_singleton] at same
        omega
      obtain ⟨rfl, rfl⟩ := last
      rw [mir.created, Function.update_self, Function.update_self]
  · intro c
    change Function.update m.consumers m.trackers.length _ c =
      Option.map _ (Function.update a.consumers a.trackers _ c)
    by_cases new : c = a.trackers
    · rw [new, Function.update_self, ← mir.created, Function.update_self, Option.map_some]
      simp [Member.moved, (Mirrors.ends sound).2, mir.created]
      rfl
    · have apart : c ≠ m.trackers.length := by
        rw [mir.created]
        exact new
      rw [Function.update_of_ne new, Function.update_of_ne apart, mir.consumers c]
      apply Option.map_congr
      intro self live
      obtain ⟨rfl, range⟩ := sound.tracked c self live
      have kept : (m.trackers ++ [p.trackers])[self.dropTracker]? =
          m.trackers[self.dropTracker]? :=
        List.getElem?_append_left (by rw [mir.created]; exact range)
      simp only [Member.moved, List.getD_eq_getElem?_getD, kept]
      rfl

theorem Mirrors.live (mir : Mirrors p m a) {c : Nat} {self : MessageConsumer}
    (live : a.consumers c = some self) : m.consumers c = some (m.moved self) := by
  rw [mir.consumers c, live]
  rfl

theorem Mirrors.gone (mir : Mirrors p m a) {c : Nat} (gone : a.consumers c = none) :
    m.consumers c = none := by
  rw [mir.consumers c, gone]
  rfl

theorem Mirrors.tried (mir : Mirrors p m a) (sound : Sound a) {c : Nat} {self : MessageConsumer}
    (live : a.consumers c = some self)
    (free : ¬ HeldByOthers m.trackers p.strongCount p.heap (m.moved self)) :
    ∃ h' dest H',
      tryNext true a.strongCount a.heap self =
        some (h', { self with current := dest.getD self.current }, dest) ∧
      NextSpec a.queue a.heap (checked true a.strongCount a.heap self) h' self.current dest ∧
      tryNext true p.strongCount p.heap (m.moved self) =
        some (H', { m.moved self with current := m.place (dest.getD self.current) },
          dest.map m.place) ∧
      Mirror m.place (Option.Rel (OwnPart m.trackers)) h' H' := by
  obtain ⟨h', dest, run, spec⟩ := sound.next_spec true live
  have current : (m.moved self).current = m.place self.current := rfl
  obtain ⟨H', runH, heap⟩ := mir.heap.tried sound.well (sound.placed c self live).1 current rfl
    mir.counts free run
  exact ⟨h', dest, H', run, spec, runH, heap⟩

theorem together_tryNext (mir : Mirrors p m a) (sound : Sound a) (c : Nat)
    (free : ∀ self, m.consumers c = some self →
      ¬ HeldByOthers m.trackers p.strongCount p.heap self) :
    Together p m a (.tryNext c) := by
  cases live : a.consumers c with
  | none =>
    apply together_refused
    · simp [step, live]
    · simp [Member.step, mir.gone live]
  | some self =>
    obtain ⟨h', dest, H', run, spec, runH, heap⟩ := mir.tried sound live (free _ (mir.live live))
    have size : h'.size = a.heap.size := by
      rw [spec.relinked.size, size_checked]
    refine together_of { a with
        heap := h'
        consumers := Function.update a.consumers c
          (some { self with current := dest.getD self.current })
        handles := a.handles ++ dest.toList }
      { p with heap := H' } { m with
        consumers := Function.update m.consumers c
          (some { m.moved self with current := m.place (dest.getD self.current) })
        handles := m.handles ++ (dest.map m.place).toList } ?_ ?_ ?_
    · simp [step, live, run]
    · simp [Member.step, mir.live live, runH]
    · refine ⟨?_, heap, mir.last, mir.active, mir.created, mir.distinct, mir.counts, ?_, ?_, ?_⟩
      · exact mir.size.trans size.symm
      · intro d
        by_cases same : d = c
        · subst same
          simp only [Function.update_self, Option.map_some]
          rfl
        · simp only [Function.update_of_ne same]
          exact mir.consumers d
      · rw [mir.handles, List.map_append]
        cases dest <;> rfl
      · intro x member
        change x < h'.size
        rcases List.mem_append.mp member with before | new
        · rw [size]
          exact mir.handed x before
        · have open_ := (spec.origin x (Option.mem_toList.mp new)).1
          exact (spec.well.unclaimed_range x open_).2

theorem together_claim (mir : Mirrors p m a) (handle : Nat) : Together p m a (.claim handle) := by
  have handles : m.handles[handle]? = (a.handles[handle]?).map m.place := by
    rw [mir.handles, List.getElem?_map]
  cases found : a.handles[handle]? with
  | none =>
    apply together_refused
    · simp [step, found]
    · simp [Member.step, handles, found]
  | some x =>
    have range := mir.handed x (List.mem_of_getElem? found)
    refine together_of { a with heap := (claim a.heap x).1 }
      { p with heap := (claim p.heap (m.place x)).1 } m ?_ ?_ ?_
    · simp [step, found]
    · simp [Member.step, handles, found]
    · exact ⟨mir.size, mir.heap.claimed range, mir.last, mir.active, mir.created, mir.distinct,
        mir.counts, mir.consumers, mir.handles, mir.handed⟩

theorem together_drop (mir : Mirrors p m a) (sound : Sound a) (c : Nat)
    (free : ∀ self, m.consumers c = some self →
      ¬ HeldByOthers m.trackers p.strongCount p.heap self) :
    Together p m a (.drop c) := by
  cases live : a.consumers c with
  | none =>
    apply together_refused
    · simp [step, live]
    · simp [Member.step, mir.gone live]
  | some self =>
    have range := (sound.placed c self live).1
    obtain ⟨rfl, older⟩ := sound.tracked c self live
    have size := size_checked true a.strongCount a.heap self
    have mine := mir.tracker older
    refine together_of { a with
        toProcess := dropConsumer true a.toProcess self
        consumers := Function.update a.consumers self.dropTracker none }
      (dropConsumer true p (m.moved self)) { m with
        consumers := Function.update m.consumers self.dropTracker none } ?_ ?_ ?_
    · simp [step, live]
    · simp [Member.step, mir.live live]
    · refine ⟨mir.size.trans size.symm, ?_, mir.last, mir.active.remove self.id, mir.created,
        mir.distinct, ?_, ?_, mir.handles, ?_⟩
      · exact mir.heap.checked range rfl rfl mir.counts (free _ (mir.live live))
      · intro d t found
        simp only [dropConsumer]
        by_cases same : d = self.dropTracker
        · subst same
          obtain rfl := Option.some.inj (mine.symm.trans found)
          rw [Function.update_self]
          exact Function.update_self ..
        · have apart : t ≠ (m.moved self).dropTracker := by
            intro now
            subst now
            have inside := (List.getElem?_eq_some_iff.mp found).1
            exact same ((List.getElem?_inj inside mir.distinct).mp (found.trans mine.symm))
          rw [Function.update_of_ne apart, Function.update_of_ne same]
          exact mir.counts d t found
      · intro d
        by_cases same : d = self.dropTracker
        · subst same
          simp only [Function.update_self, Option.map_none]
        · simp only [Function.update_of_ne same]
          exact mir.consumers d
      · intro x member
        change x < (checked true a.strongCount a.heap self).size
        rw [size]
        exact mir.handed x member

def Unheld (p : Process) (m : Member) (op : Op) : Prop :=
  ∀ c self, (op = .tryNext c ∨ op = .drop c) → m.consumers c = some self →
    ¬ HeldByOthers m.trackers p.strongCount p.heap self

def Op.checks : Op → Option Nat
  | .tryNext c => some c
  | .drop c => some c
  | _ => none

theorem unheld_iff {op : Op} : Unheld p m op ↔ ∀ c ∈ op.checks, ∀ self ∈ m.consumers c,
    ¬ HeldByOthers m.trackers p.strongCount p.heap self := by
  constructor
  · intro free c checks self live
    cases op <;> cases checks
    · exact free c self (Or.inl rfl) live
    · exact free c self (Or.inr rfl) live
  · rintro free c self (rfl | rfl) live
    · exact free c rfl self live
    · exact free c rfl self live

instance (p : Process) (m : Member) : DecidablePred (Unheld p m) :=
  fun _ => decidable_of_iff _ unheld_iff.symm

/-- An operation on a queue does what it does where the queue is alone. -/
theorem together (mir : Mirrors p m a) (sound : Sound a) (holds : m.Holds p)
    (registered : ∀ e ∈ p.active, e.2 < p.trackers) {op : Op} (free : Unheld p m op) :
    Together p m a op := by
  cases op with
  | push payload => exact together_push mir sound payload
  | createConsumer id => exact together_create mir sound holds registered id
  | tryNext c => exact together_tryNext mir sound c fun self => free c self (Or.inl rfl)
  | claim handle => exact together_claim mir handle
  | drop c => exact together_drop mir sound c fun self => free c self (Or.inr rfl)

theorem Mirrors.spared (mir : Mirrors p m a) (listed : Listed a)
    (holds : m.Holds p) {p' : Process} {N own : List Nat} {id : Option UInt64}
    (spares : Spares N own id p p') (nodes : List.Disjoint N m.nodes)
    (trackers : List.Disjoint own m.trackers)
    (ids : ∀ c self, a.consumers c = some self → id ≠ some self.id) : Mirrors p' m a := by
  have older : ∀ t ∈ m.trackers, t < p.trackers ∧ t ∉ own := fun t member =>
    ⟨holds.trackers t member, fun other => trackers other member⟩
  refine ⟨mir.size, ?_, mir.last, ?_, mir.created, mir.distinct, ?_, mir.consumers, mir.handles,
    mir.handed⟩
  · apply mir.heap.frame spares.size
    intro x range
    have member : m.place x ∈ m.nodes := List.mem_of_getElem? (mir.place_mem range)
    exact spares.nodes _ (holds.nodes _ member) (fun other => nodes other member)
  · refine mir.active.frame ?_ ?_
    · intro e entry member
      exact spares.back e entry (older e.2 member).1
    · intro e entry member
      obtain ⟨c, place⟩ := List.getElem?_of_mem member
      have listedHere := (mir.active e.1 c).mpr ⟨e.2, place, entry⟩
      obtain ⟨self, live, same⟩ := listed.entry (e.1, c) listedHere
      refine spares.stays e entry (older e.2 member).1 ?_ ?_
      · rw [mir.counts c e.2 place]
        exact listed.alive c self live
      · have other := ids c self live
        rwa [same] at other
  · intro c t found
    have bounds := older t (List.mem_of_getElem? found)
    rw [spares.counts t bounds.1 bounds.2]
    exact mir.counts c t found

end Mirrors

end Lmq
