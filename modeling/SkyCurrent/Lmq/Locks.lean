import SkyCurrent.Lmq.Threads
import SkyCurrent.Lmq.Walk

/- What holds between any two steps of the threads. Only a consumer that walks holds one
   node while it waits for another, and then its own node points at the other; since the
   links never form a cycle, neither do the threads that wait for each other. -/
namespace Lmq

open StateTransition Relation PointerForest Runs

variable {autodrop : Bool} {s s' : Threads}

def Pushing.new : Pushing → Option Nat
  | .locking new _ | .locked new _ => some new
  | .idle => none

/-- The node of a push under way points at the tail, and nothing points at it yet. -/
structure Unlinked (h : Heap) (tail n : Nat) : Prop where
  range : n < h.size
  inner : n ≠ tail
  link : h.next n = some tail
  apart : ∀ x, x < h.size → h.next x ≠ some n

structure Placed (s : Threads) (x : Nat) : Prop where
  range : x < s.heap.size
  inner : x ≠ s.queue.tail
  linked : s.producer.new ≠ some x

def Fits (s : Threads) (current : Nat) : Consuming → Prop
  | .walking _ next => s.heap.next current = next
  | .inspecting _ nextArc => s.heap.next current = some nextArc
  | .leaving (some dest) => Placed s dest
  | _ => True

def Owned (s : Threads) : Prop := ∀ x t, s.lock x = some t ↔ x ∈ s.held t

structure Interlocked (s : Threads) : Prop where
  rooted : Rooted s.heap s.queue.tail
  root : Placed s s.queue.root
  last : Placed s s.queue.last
  unlinked : ∀ n, s.producer.new = some n → Unlinked s.heap s.queue.tail n
  pushing : ∀ x, s.producer.wanted = some x ∨ x ∈ s.producer.held → Placed s x
  placed : ∀ c self pc, s.consumers c = some (self, pc) →
    Placed s self.current ∧ Fits s self.current pc
  tracked : ∀ c pair, s.consumers c = some pair → c < s.trackers
  owned : Owned s

section Owned

variable {t : Thread} {x : Nat}

theorem Owned.acquire (owned : Owned s) (free : s.lock x = none)
    (lock : s'.lock = Function.update s.lock x (some t))
    (mine : ∀ z, z ∈ s'.held t ↔ z = x ∨ z ∈ s.held t)
    (others : ∀ u, u ≠ t → s'.held u = s.held u) : Owned s' := by
  intro z u
  rw [lock]
  by_cases here : z = x
  · subst here
    rw [Function.update_self]
    by_cases same : u = t
    · subst same
      simp [mine]
    · rw [others u same, ← owned z u, free]
      simp [Ne.symm same]
  · rw [Function.update_of_ne here, owned z u]
    by_cases same : u = t
    · subst same
      simp [mine, here]
    · rw [others u same]

theorem Owned.release (owned : Owned s) (holder : s.lock x = some t)
    (lock : s'.lock = Function.update s.lock x none)
    (mine : ∀ z, z ∈ s'.held t ↔ z ≠ x ∧ z ∈ s.held t)
    (others : ∀ u, u ≠ t → s'.held u = s.held u) : Owned s' := by
  intro z u
  rw [lock]
  by_cases here : z = x
  · subst here
    rw [Function.update_self]
    by_cases same : u = t
    · subst same
      simp [mine]
    · rw [others u same, ← owned z u, holder]
      simp [Ne.symm same]
  · rw [Function.update_of_ne here, owned z u]
    by_cases same : u = t
    · subst same
      simp [mine, here]
    · rw [others u same]

theorem Owned.keep (owned : Owned s) (lock : s'.lock = s.lock)
    (held : ∀ u, s'.held u = s.held u) : Owned s' := by
  intro z u
  rw [lock, held u]
  exact owned z u

theorem Owned.idle_free (owned : Owned s) (others : ∀ u, u ≠ t → s.held u = [])
    (apart : x ∉ s.held t) : s.lock x = none := by
  cases holder : s.lock x with
  | none => rfl
  | some u =>
    have member := (owned x u).mp holder
    by_cases same : u = t
    · exact absurd (same ▸ member) apart
    · rw [others u same] at member
      cases member

end Owned

theorem held_consumer {c : Nat} {self : MessageConsumer} {pc : Consuming}
    (live : s.consumers c = some (self, pc)) : s.held (.consumer c) = pc.held self.current := by
  simp [Threads.held, live]

@[simp] theorem live_goto (s : Threads) (c : Nat) (self : MessageConsumer) (pc : Consuming) :
    (s.goto c self pc).consumers c = some (self, pc) := by
  simp [Threads.goto]

@[simp] theorem held_goto (s : Threads) (c : Nat) (self : MessageConsumer) (pc : Consuming) :
    (s.goto c self pc).held (.consumer c) = pc.held self.current := by
  simp [Threads.held, Threads.goto]

theorem held_other {c : Nat} {v : Option (MessageConsumer × Consuming)}
    (producer : s'.producer = s.producer)
    (consumers : s'.consumers = Function.update s.consumers c v) (u : Thread)
    (other : u ≠ .consumer c) : s'.held u = s.held u := by
  cases u with
  | producer => simp [Threads.held, producer]
  | consumer d =>
    have apart : d ≠ c := fun same => other (same ▸ rfl)
    simp [Threads.held, consumers, Function.update_of_ne apart]

theorem Interlocked.held_old (inter : Interlocked s) {c x : Nat}
    (member : x ∈ s.held (.consumer c)) : x < s.heap.size ∧ s.producer.new ≠ some x := by
  cases live : s.consumers c with
  | none => simp [Threads.held, live] at member
  | some pair =>
    obtain ⟨self, pc⟩ := pair
    obtain ⟨place, fits⟩ := inter.placed c self pc live
    rw [held_consumer live] at member
    cases pc with
    | inspecting flag y =>
      rcases List.mem_cons.mp member with rfl | rest
      · exact ⟨place.range, place.linked⟩
      · obtain rfl := List.mem_singleton.mp rest
        refine ⟨inter.rooted.closed _ _ place.range fits, ?_⟩
        intro new
        exact (inter.unlinked _ new).apart _ place.range fits
    | walking flag next =>
      obtain rfl := List.mem_singleton.mp member
      exact ⟨place.range, place.linked⟩
    | leaving moveTo =>
      obtain rfl := List.mem_singleton.mp member
      exact ⟨place.range, place.linked⟩
    | dropLocked =>
      obtain rfl := List.mem_singleton.mp member
      exact ⟨place.range, place.linked⟩
    | idle | locking | dropLocking | dropped => cases member

theorem Interlocked.held_range (inter : Interlocked s) {t : Thread} {x : Nat}
    (member : x ∈ s.held t) : x < s.heap.size := by
  cases t with
  | producer => exact (inter.pushing x (Or.inr member)).range
  | consumer c => exact (inter.held_old member).1

theorem Interlocked.writeLocked_iff (inter : Interlocked s) (m : Nat) :
    s.writeLocked m = true ↔ ∃ c self pc, s.consumers c = some (self, pc) ∧
      pc.standing = true ∧ self.current = m := by
  constructor
  · intro locked
    unfold Threads.writeLocked at locked
    split at locked
    · rename_i c _
      split at locked
      · rename_i self pc live
        simp only [Bool.and_eq_true, beq_iff_eq] at locked
        exact ⟨c, self, pc, live, locked.1, locked.2⟩
      · cases locked
    · cases locked
  · intro ⟨c, self, pc, live, standing, here⟩
    have member : self.current ∈ s.held (.consumer c) := by
      rw [held_consumer live]
      cases pc <;> simp [Consuming.standing, Consuming.held] at standing ⊢
    have holder := (inter.owned _ _).mpr member
    rw [here] at holder
    simp [Threads.writeLocked, holder, live, standing, here]

theorem Placed.keep {x : Nat} (place : Placed s x) (size : s'.heap.size = s.heap.size)
    (queue : s'.queue = s.queue) (producer : s'.producer = s.producer) : Placed s' x := by
  constructor
  · rw [size]
    exact place.range
  · rw [queue]
    exact place.inner
  · rw [producer]
    exact place.linked

theorem Fits.keep {current : Nat} {pc : Consuming} (fits : Fits s current pc)
    (size : s'.heap.size = s.heap.size) (queue : s'.queue = s.queue)
    (producer : s'.producer = s.producer)
    (link : current ∈ pc.held current → s'.heap.next current = s.heap.next current) :
    Fits s' current pc := by
  cases pc with
  | walking flag next => exact (link (by simp [Consuming.held])).trans fits
  | inspecting flag y => exact (link (by simp [Consuming.held])).trans fits
  | leaving moveTo =>
    cases moveTo with
    | none => trivial
    | some dest => exact Placed.keep fits size queue producer
  | idle | locking | dropLocking | dropLocked | dropped => trivial

/-- A step of one consumer, which only moves links of nodes it holds. -/
theorem Interlocked.consumer_moves (inter : Interlocked s) {c : Nat}
    {v : Option (MessageConsumer × Consuming)}
    (queue : s'.queue = s.queue) (producer : s'.producer = s.producer)
    (consumers : s'.consumers = Function.update s.consumers c v)
    (trackers : s.trackers ≤ s'.trackers) (tracked : c < s'.trackers)
    (size : s'.heap.size = s.heap.size) (rooted : Rooted s'.heap s.queue.tail)
    (frame : ∀ x, x ∉ s.held (.consumer c) → s'.heap.next x = s.heap.next x)
    (apart : ∀ n, s.producer.new = some n → ∀ x, x < s.heap.size → s'.heap.next x ≠ some n)
    (fits : ∀ self pc, v = some (self, pc) → Placed s self.current ∧ Fits s' self.current pc)
    (owned : Owned s') : Interlocked s' := by
  refine ⟨queue ▸ rooted, ?_, ?_, ?_, ?_, ?_, ?_, owned⟩
  · exact queue ▸ inter.root.keep size queue producer
  · exact queue ▸ inter.last.keep size queue producer
  · intro n new
    rw [producer] at new
    have before := inter.unlinked n new
    refine ⟨size ▸ before.range, queue ▸ before.inner, ?_, ?_⟩
    · rw [frame n fun member => (inter.held_old member).2 new, queue]
      exact before.link
    · rw [size]
      exact apart n new
  · intro x waits
    rw [producer] at waits
    exact (inter.pushing x waits).keep size queue producer
  · intro d other pc live
    rw [consumers] at live
    by_cases same : d = c
    · subst same
      rw [Function.update_self] at live
      obtain ⟨place, fit⟩ := fits other pc live
      exact ⟨place.keep size queue producer, fit⟩
    · rw [Function.update_of_ne same] at live
      obtain ⟨place, fit⟩ := inter.placed d other pc live
      refine ⟨place.keep size queue producer, fit.keep size queue producer ?_⟩
      intro mine
      apply frame
      intro theirs
      rw [← held_consumer live] at mine
      have lockMine := (inter.owned _ _).mpr mine
      have lockTheirs := (inter.owned _ _).mpr theirs
      rw [lockMine] at lockTheirs
      exact same (Thread.consumer.inj (Option.some.inj lockTheirs))
  · intro d pair live
    rw [consumers] at live
    by_cases same : d = c
    · exact same ▸ tracked
    · rw [Function.update_of_ne same] at live
      exact Nat.lt_of_lt_of_le (inter.tracked d pair live) trackers

theorem Interlocked.consumer_stays (inter : Interlocked s) {c : Nat}
    {v : Option (MessageConsumer × Consuming)}
    (queue : s'.queue = s.queue) (producer : s'.producer = s.producer)
    (consumers : s'.consumers = Function.update s.consumers c v)
    (trackers : s.trackers ≤ s'.trackers) (tracked : c < s'.trackers)
    (since : ClaimedSince s.heap s'.heap)
    (fits : ∀ self pc, v = some (self, pc) → Placed s self.current ∧ Fits s' self.current pc)
    (owned : Owned s') : Interlocked s' := by
  refine inter.consumer_moves queue producer consumers trackers tracked since.size
    (inter.rooted.claimedSince since) ?_ ?_ fits owned
  · intro x _
    rw [since.next]
  · intro n new x range
    rw [since.next]
    exact (inter.unlinked n new).apart x range

section Step

theorem acquire_some {t : Thread} {x : Nat} {f : Threads → Threads}
    (move : (s.acquire t x).map f = some s') :
    s.lock x = none ∧ s' = f { s with lock := Function.update s.lock x (some t) } := by
  unfold Threads.acquire at move
  split at move
  · rename_i free
    exact ⟨free, (Option.some.inj move).symm⟩
  · cases move

theorem Interlocked.consumer_locks (inter : Interlocked s) {c x : Nat} {self : MessageConsumer}
    {pc pc' : Consuming} (live : s.consumers c = some (self, pc)) (free : s.lock x = none)
    {h' : Heap} (since : ClaimedSince s.heap h')
    (held : ∀ z, z ∈ pc'.held self.current ↔ z = x ∨ z ∈ pc.held self.current)
    (fits : Fits ({ s with
      heap := h', lock := Function.update s.lock x (some (.consumer c)) }.goto c self pc')
        self.current pc') :
    Interlocked ({ s with
      heap := h', lock := Function.update s.lock x (some (.consumer c)) }.goto c self pc') := by
  refine inter.consumer_stays rfl rfl rfl (Nat.le_refl _) (inter.tracked c _ live) since ?_
    (inter.owned.acquire free rfl ?_ (held_other rfl rfl))
  · intro other pc same
    cases same
    exact ⟨(inter.placed c self _ live).1, fits⟩
  · intro z
    rw [held_goto, held_consumer live]
    exact held z

theorem Interlocked.consumer_unlocks (inter : Interlocked s) {c x : Nat}
    {self self' : MessageConsumer} {pc pc' : Consuming}
    (live : s.consumers c = some (self, pc)) (holds : x ∈ pc.held self.current)
    (held : ∀ z, z ∈ pc'.held self'.current ↔ z ≠ x ∧ z ∈ pc.held self.current)
    (place : Placed s self'.current)
    (fits : Fits ((s.release x).goto c self' pc') self'.current pc') :
    Interlocked ((s.release x).goto c self' pc') := by
  have holder : s.lock x = some (.consumer c) :=
    (inter.owned x _).mpr (by rw [held_consumer live]; exact holds)
  refine inter.consumer_stays rfl rfl rfl (Nat.le_refl _) (inter.tracked c _ live)
    (ClaimedSince.refl _) ?_ (inter.owned.release holder rfl ?_ (held_other rfl rfl))
  · intro other pc same
    cases same
    exact ⟨place, fits⟩
  · intro z
    rw [held_goto, held_consumer live]
    exact held z

theorem inspecting_interlocked (inter : Interlocked s) {c y : Nat} {self : MessageConsumer}
    {flag : Bool} (live : s.consumers c = some (self, .inspecting flag y)) {h' : Heap}
    {seen : Visit} (sees : visit s.heap self.current flag y = (h', seen)) :
    Interlocked (({ s with heap := h' }.release y).goto c self (seen.goesTo flag)) := by
  obtain ⟨place, fits⟩ := inter.placed c self _ live
  have mine := held_consumer live
  have link : s.heap.next self.current = some y := fits
  have rangeY := inter.rooted.closed _ y place.range link
  have apart : y ≠ self.current :=
    next_ne_self inter.rooted.forest.sink_end (inter.rooted.forest.leads _ place.range) link
  have left : ∀ z, z ∈ [self.current] ↔ z ≠ y ∧ z ∈ [self.current, y] := by
    intro z
    simp only [List.mem_cons, List.not_mem_nil, or_false]
    constructor
    · intro here
      exact ⟨fun atY => apart (atY.symm.trans here), Or.inl here⟩
    · intro ⟨notY, either⟩
      exact either.resolve_right notY
  rcases visit_cases (c := flag) inter.rooted place.range link with
    ⟨_, visited⟩ | ⟨w, go, ⟨_, visited⟩ | ⟨_, visited⟩⟩
  · obtain ⟨rfl, rfl⟩ := Prod.mk.inj (sees.symm.trans visited)
    exact inter.consumer_unlocks live (by simp [Consuming.held]) left place trivial
  · obtain ⟨rfl, rfl⟩ := Prod.mk.inj (sees.symm.trans visited)
    have placeY : Placed s y := by
      refine ⟨rangeY, inter.rooted.forest.ne_sink go, ?_⟩
      intro new
      exact (inter.unlinked y new).apart _ place.range link
    exact inter.consumer_unlocks live (by simp [Consuming.held]) left place
      (placeY.keep rfl rfl rfl)
  · obtain ⟨rfl, rfl⟩ := Prod.mk.inj (sees.symm.trans visited)
    have frame := relinked_pruned s.heap self.current flag y w
    have holder : s.lock y = some (.consumer c) :=
      (inter.owned y _).mpr (by simp [mine, Consuming.held])
    refine inter.consumer_moves rfl rfl rfl (Nat.le_refl _) (inter.tracked c _ live) frame.size
      (inter.rooted.pruned place.range link go) ?_ ?_ ?_
      (inter.owned.release holder rfl ?_ (held_other rfl rfl))
    · intro x away
      have notMine : x ≠ self.current ∧ x ≠ y := by
        simpa [mine, Consuming.held] using away
      change (pruned s.heap self.current flag y w).next x = _
      cases flag <;> simp [pruned, Function.update_of_ne notMine.1,
        Function.update_of_ne notMine.2]
    · intro n new x range step
      have fresh := (inter.unlinked n new).apart
      rcases pruned_cases x n step with ⟨_, rfl⟩ | ⟨_, same, _⟩ | old
      · exact fresh y rangeY go
      · exact place.linked (same ▸ new)
      · exact fresh x range old
    · intro other pc same
      cases same
      exact ⟨place, next_pruned s.heap self.current flag y w apart⟩
    · intro z
      rw [mine, held_goto]
      exact left z

theorem consumer_interlocked (inter : Interlocked s) {c : Nat}
    (move : consumerStep autodrop s c = some s') : Interlocked s' := by
  cases live : s.consumers c with
  | none => simp [consumerStep, live] at move
  | some pair =>
    obtain ⟨self, pc⟩ := pair
    obtain ⟨place, fits⟩ := inter.placed c self pc live
    have since := claimedSince_checked autodrop s.strongCount s.heap self
    simp only [consumerStep, live] at move
    cases pc with
    | idle => cases move
    | locking =>
      obtain ⟨free, rfl⟩ := acquire_some move
      exact inter.consumer_locks live free since (by simp [Consuming.held]) rfl
    | walking flag next =>
      cases next with
      | none =>
        cases move
        exact inter.consumer_unlocks live (by simp [Consuming.held]) (by simp [Consuming.held])
          place trivial
      | some y =>
        obtain ⟨free, rfl⟩ := acquire_some move
        exact inter.consumer_locks live free (ClaimedSince.refl _)
          (by simp [Consuming.held, or_comm]) fits
    | inspecting flag y =>
      cases move
      exact inspecting_interlocked inter live rfl
    | leaving moveTo =>
      cases move
      have stands : Placed s (moveTo.getD self.current) := by
        cases moveTo with
        | none => exact place
        | some dest => exact fits
      exact inter.consumer_unlocks live (by simp [Consuming.held]) (by simp [Consuming.held])
        stands trivial
    | dropLocking =>
      obtain ⟨free, rfl⟩ := acquire_some move
      exact inter.consumer_locks live free since (by simp [Consuming.held]) trivial
    | dropLocked =>
      cases move
      exact inter.consumer_unlocks live (by simp [Consuming.held]) (by simp [Consuming.held])
        place trivial
    | dropped =>
      cases move
      refine inter.consumer_stays rfl rfl rfl (Nat.le_refl _) (inter.tracked c _ live)
        (ClaimedSince.refl _) ?_ (inter.owned.keep rfl ?_)
      · intro other pc same
        cases same
      · intro u
        by_cases same : u = .consumer c
        · subst same
          rw [held_consumer live]
          simp [Threads.held, Consuming.held]
        · refine held_other (s := s) (v := none) ?_ ?_ u same
          · rfl
          · rfl

theorem Interlocked.starts (inter : Interlocked s) {c : Nat} {self : MessageConsumer}
    (pc : Consuming) (live : s.consumers c = some (self, .idle))
    (idle : pc.held self.current = []) (fits : ∀ x, Fits x self.current pc)
    (heap : s'.heap = s.heap) (queue : s'.queue = s.queue) (lock : s'.lock = s.lock)
    (producer : s'.producer = s.producer) (trackers : s'.trackers = s.trackers)
    (consumers : s'.consumers = Function.update s.consumers c (some (self, pc))) :
    Interlocked s' := by
  refine inter.consumer_stays queue producer consumers (Nat.le_of_eq trackers.symm)
    (trackers ▸ inter.tracked c _ live) (heap ▸ ClaimedSince.refl _) ?_ (inter.owned.keep lock ?_)
  · intro other pc' same
    cases same
    exact ⟨(inter.placed c self _ live).1, fits s'⟩
  · intro u
    by_cases same : u = .consumer c
    · subst same
      rw [held_consumer live]
      have after : s'.consumers c = some (self, pc) := by simp [consumers]
      rw [held_consumer after, idle]
      rfl
    · exact held_other producer consumers u same

theorem startTryNext_interlocked (inter : Interlocked s) {c : Nat}
    (move : startTryNext s c = some s') : Interlocked s' := by
  unfold startTryNext at move
  split at move
  · rename_i self live
    cases move
    exact inter.starts .locking live rfl (fun _ => trivial) rfl rfl rfl rfl rfl rfl
  · cases move

theorem startDrop_interlocked (inter : Interlocked s) {c : Nat}
    (move : startDrop autodrop s c = some s') : Interlocked s' := by
  unfold startDrop at move
  split at move
  · rename_i self live
    split at move
    · cases move
      exact inter.starts .dropLocking live rfl (fun _ => trivial) rfl rfl rfl rfl rfl rfl
    · cases move
      exact inter.starts .dropped live rfl (fun _ => trivial) rfl rfl rfl rfl rfl rfl
  · cases move

theorem createConsumer_interlocked (inter : Interlocked s) {id : UInt64}
    (move : act autodrop s (.createConsumer id) = some s') : Interlocked s' := by
  cases move
  have fresh : s.consumers s.trackers = none := by
    cases live : s.consumers s.trackers with
    | none => rfl
    | some pair => exact absurd (inter.tracked _ pair live) (Nat.lt_irrefl _)
  refine inter.consumer_stays rfl rfl rfl (Nat.le_succ _) (Nat.lt_succ_self _)
    (ClaimedSince.refl _) ?_ (inter.owned.keep rfl ?_)
  · intro other pc same
    cases same
    exact ⟨inter.root, trivial⟩
  · intro u
    by_cases same : u = .consumer s.trackers
    · subst same
      simp [Threads.held, fresh, Consuming.held]
    · refine held_other (s := s) (v := some (⟨s.queue.root, id, s.trackers⟩, .idle)) ?_ ?_ u same
      · rfl
      · rfl

theorem claim_interlocked (inter : Interlocked s) (m : Nat) :
    Interlocked { s with heap := (claim s.heap m).1 } := by
  have since := claimedSince_claim s.heap m
  refine ⟨inter.rooted.claimedSince since, inter.root.keep rfl rfl rfl,
    inter.last.keep rfl rfl rfl, ?_, ?_, ?_, inter.tracked, inter.owned⟩
  · intro n new
    have before := inter.unlinked n new
    refine ⟨before.range, before.inner, ?_, ?_⟩
    · rw [since.next]
      exact before.link
    · intro x range
      rw [since.next]
      exact before.apart x range
  · intro x waits
    exact (inter.pushing x waits).keep rfl rfl rfl
  · intro c self pc live
    obtain ⟨place, fits⟩ := inter.placed c self pc live
    exact ⟨place.keep rfl rfl rfl, fits.keep rfl rfl rfl fun _ => by rw [since.next]⟩

theorem Interlocked.producer_moves (inter : Interlocked s)
    (consumers : s'.consumers = s.consumers) (trackers : s'.trackers = s.trackers)
    (root : s'.queue.root = s.queue.root)
    (tail : s'.queue.tail = s.queue.tail) (rooted : Rooted s'.heap s.queue.tail)
    (unlinked : ∀ n, s'.producer.new = some n → Unlinked s'.heap s.queue.tail n)
    (placed : ∀ x, Placed s x → Placed s' x)
    (last : Placed s' s'.queue.last)
    (pushing : ∀ x, s'.producer.wanted = some x ∨ x ∈ s'.producer.held → Placed s' x)
    (frame : ∀ c x, x ∈ s.held (.consumer c) → s'.heap.next x = s.heap.next x)
    (owned : Owned s') : Interlocked s' := by
  refine ⟨tail ▸ rooted, ?_, last, ?_, pushing, ?_, ?_, owned⟩
  · rw [root]
    exact placed _ inter.root
  · rw [tail]
    exact unlinked
  · intro c self pc live
    rw [consumers] at live
    obtain ⟨place, fits⟩ := inter.placed c self pc live
    refine ⟨placed _ place, ?_⟩
    have mine := held_consumer live
    cases pc with
    | walking flag next =>
      exact (frame c self.current (by simp [mine, Consuming.held])).trans fits
    | inspecting flag y =>
      exact (frame c self.current (by simp [mine, Consuming.held])).trans fits
    | leaving moveTo =>
      cases moveTo with
      | none => trivial
      | some dest => exact placed dest fits
    | idle | locking | dropLocking | dropLocked | dropped => trivial
  · rw [consumers, trackers]
    exact inter.tracked

theorem held_others (consumers : s'.consumers = s.consumers) (u : Thread)
    (other : u ≠ .producer) : s'.held u = s.held u := by
  cases u with
  | producer => exact absurd rfl other
  | consumer c => simp [Threads.held, consumers]

theorem startPush_interlocked (inter : Interlocked s) {payload : List UInt8}
    (move : startPush autodrop s payload = some s') : Interlocked s' := by
  unfold startPush at move
  split at move
  · rename_i idle
    obtain rfl : { s with
        heap := (s.heap.alloc (newNode autodrop s.active s.queue.tail payload)).1
        producer := .locking s.heap.size s.queue.last } = s' := Option.some.inj move
    have newest : s.heap.size ≠ s.queue.tail := Nat.ne_of_gt inter.rooted.tail_range
    have placed : ∀ x, Placed s x → Placed { s with
        heap := (s.heap.alloc (newNode autodrop s.active s.queue.tail payload)).1
        producer := .locking s.heap.size s.queue.last } x := by
      intro x place
      refine ⟨Nat.lt_succ_of_lt place.range, place.inner, ?_⟩
      intro same
      have atNew : s.heap.size = x := Option.some.inj same
      exact Nat.lt_irrefl _ (atNew ▸ place.range)
    refine inter.producer_moves rfl rfl rfl rfl (inter.rooted.alloc rfl) ?_ placed
      (placed _ inter.last) ?_ ?_ (inter.owned.keep rfl ?_)
    · intro n new
      obtain rfl : s.heap.size = n := Option.some.inj new
      refine ⟨Nat.lt_succ_self _, newest, ?_, ?_⟩
      · rw [next_alloc]
        exact Function.update_self ..
      · intro x range step
        rw [next_alloc] at step
        by_cases atNew : x = s.heap.size
        · subst atNew
          rw [Function.update_self] at step
          exact newest (Option.some.inj step).symm
        · rw [Function.update_of_ne atNew] at step
          have old : x < s.heap.size := Nat.lt_of_le_of_ne (Nat.le_of_lt_succ range) atNew
          exact Nat.lt_irrefl _ (inter.rooted.closed x _ old step)
    · intro x waits
      rcases waits with wants | holds
      · obtain rfl : s.queue.last = x := Option.some.inj wants
        exact placed _ inter.last
      · cases holds
    · intro c x member
      rw [next_alloc, Function.update_of_ne (Nat.ne_of_lt (inter.held_old member).1)]
    · intro u
      cases u with
      | producer => simp [Threads.held, idle, Pushing.held]
      | consumer c => rfl
  · cases move

theorem appendNew_interlocked (inter : Interlocked s) {new currentLast : Nat}
    (locked : s.producer = .locked new currentLast) :
    Interlocked (appendNew s new currentLast) := by
  have place := inter.pushing currentLast (Or.inr (by simp [locked, Pushing.held]))
  have fresh := inter.unlinked new (by simp [locked, Pushing.new])
  have apart : new ≠ currentLast := by
    intro same
    exact place.linked (by simp [locked, Pushing.new, same])
  have holder : s.lock currentLast = some .producer :=
    (inter.owned _ _).mpr (by simp [Threads.held, locked, Pushing.held])
  have placed : ∀ x, Placed s x → Placed (appendNew s new currentLast) x := by
    intro x old
    exact ⟨old.range, old.inner, by simp [appendNew, Pushing.new]⟩
  refine inter.producer_moves rfl rfl rfl rfl ?_ ?_ placed ?_ ?_ ?_
    (inter.owned.release holder rfl ?_ (held_others rfl))
  · refine ⟨?_, ?_, inter.rooted.tail_range⟩
    · rw [appendNew, next_setNext]
      exact inter.rooted.forest.append place.inner fresh.link apart
    · intro x y range link
      rw [appendNew, next_setNext] at link
      by_cases here : x = currentLast
      · subst here
        rw [Function.update_self] at link
        exact Option.some.inj link ▸ fresh.range
      · rw [Function.update_of_ne here] at link
        exact inter.rooted.closed x y range link
  · intro n new
    cases new
  · exact ⟨fresh.range, fresh.inner, by simp [appendNew, Pushing.new]⟩
  · intro x waits
    simp [appendNew, Pushing.wanted, Pushing.held] at waits
  · intro c x member
    rw [appendNew, next_setNext, Function.update_of_ne]
    intro here
    have theirs := (inter.owned x _).mpr member
    rw [here, holder] at theirs
    cases theirs
  · intro z
    simp [Threads.held, appendNew, locked, Pushing.held]

theorem pushStep_interlocked (inter : Interlocked s) (move : pushStep s = some s') :
    Interlocked s' := by
  unfold pushStep at move
  split at move
  · cases move
  · rename_i new currentLast locking
    obtain ⟨free, rfl⟩ := acquire_some move
    have place := inter.pushing currentLast (Or.inl (by simp [locking, Pushing.wanted]))
    have placed : ∀ x, Placed s x → Placed { s with
        lock := Function.update s.lock currentLast (some .producer)
        producer := .locked new currentLast } x := by
      intro x old
      have linked := old.linked
      rw [locking] at linked
      exact ⟨old.range, old.inner, linked⟩
    refine inter.producer_moves rfl rfl rfl rfl inter.rooted ?_ placed (placed _ inter.last) ?_
      (fun c x _ => rfl) (inter.owned.acquire free rfl ?_ (held_others rfl))
    · intro n same
      exact inter.unlinked n (by rw [locking]; exact same)
    · intro x waits
      rcases waits with wants | holds
      · cases wants
      · obtain rfl := List.mem_singleton.mp holds
        exact placed _ place
    · intro z
      simp [Threads.held, locking, Pushing.held]
  · rename_i new currentLast locked
    split at move
    · cases move
      exact appendNew_interlocked inter locked
    · rename_i nextArc link
      split at move
      · cases move
        exact appendNew_interlocked inter locked
      · rename_i inner
        cases move
        have place := inter.pushing currentLast (Or.inr (by simp [locked, Pushing.held]))
        have holder : s.lock currentLast = some .producer :=
          (inter.owned _ _).mpr (by simp [Threads.held, locked, Pushing.held])
        have placed : ∀ x, Placed s x → Placed { s.release currentLast with
            producer := .locking new nextArc } x := by
          intro x old
          have linked := old.linked
          rw [locked] at linked
          exact ⟨old.range, old.inner, linked⟩
        refine inter.producer_moves rfl rfl rfl rfl inter.rooted ?_ placed (placed _ inter.last) ?_
          (fun c x _ => rfl) (inter.owned.release holder rfl ?_ (held_others rfl))
        · intro n same
          exact inter.unlinked n (by rw [locked]; exact same)
        · intro x waits
          rcases waits with wants | holds
          · obtain rfl : nextArc = x := Option.some.inj wants
            apply placed
            refine ⟨inter.rooted.closed _ _ place.range link, inner, ?_⟩
            intro same
            exact (inter.unlinked _ same).apart _ place.range link
          · cases holds
        · intro z
          simp [Threads.held, locked, Pushing.held]

theorem act_interlocked (inter : Interlocked s) {a : Action} (move : act autodrop s a = some s') :
    Interlocked s' := by
  cases a with
  | push payload => exact startPush_interlocked inter move
  | createConsumer id => exact createConsumer_interlocked inter move
  | tryNext c => exact startTryNext_interlocked inter move
  | drop c => exact startDrop_interlocked inter move
  | claim m =>
    simp only [act] at move
    split at move
    · cases move
    · cases move
      exact claim_interlocked inter m
  | run t =>
    cases t with
    | producer => exact pushStep_interlocked inter move
    | consumer c => exact consumer_interlocked inter move

end Step

theorem interlocked_init : Interlocked Threads.init := by
  have rooted : Rooted (LinkMessageQueue.new .empty).1 0 := wellLinked_new.rooted
  refine ⟨rooted, ?_, ?_, ?_, ?_, ?_, ?_, ?_⟩
  · exact ⟨by decide, by decide, by simp [Threads.init, Pushing.new]⟩
  · exact ⟨by decide, by decide, by simp [Threads.init, Pushing.new]⟩
  · simp [Threads.init, Pushing.new]
  · simp [Threads.init, Pushing.wanted, Pushing.held]
  · simp [Threads.init]
  · simp [Threads.init]
  · intro x t
    cases t <;> simp [Threads.init, Threads.held, Pushing.held]

theorem reachable_interlocked (reach : ThreadsReachable autodrop s) : Interlocked s := by
  refine reachable_invariant Interlocked ?_ ?_ reach
  · intro s first
    subst first
    exact interlocked_init
  · intro s a t inter move
    exact act_interlocked inter move

end Lmq
