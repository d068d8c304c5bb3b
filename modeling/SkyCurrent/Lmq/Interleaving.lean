import SkyCurrent.Lmq.Locks

/- A thread that is left alone finishes what it is doing, and does what the operation does
   when nothing else runs. Threads that are not left alone never wait for each other in a
   circle. -/
namespace Lmq

open StateTransition Relation PointerForest Runs

variable {autodrop : Bool} {s s' : Threads} {t : Thread}

def alone (autodrop : Bool) (t : Thread) : Nat → Threads → Option Threads
  | 0, s => some s
  | n + 1, s => (threadStep autodrop s t).bind (alone autodrop t n)

def Others (s : Threads) (t : Thread) : Prop := ∀ u, u ≠ t → s.Idle u

def Ends (autodrop : Bool) (t : Thread) (s : Threads) : Prop :=
  ∃ n s', alone autodrop t n s = some s' ∧ s'.Idle t

theorem alone_step (move : threadStep autodrop s t = some s') (n : Nat) :
    alone autodrop t (n + 1) s = alone autodrop t n s' := by
  simp [alone, move]

theorem Ends.step (move : threadStep autodrop s t = some s') (ends : Ends autodrop t s') :
    Ends autodrop t s := by
  obtain ⟨n, last, run, idle⟩ := ends
  exact ⟨n + 1, last, (alone_step move n).trans run, idle⟩

theorem idle_held (idle : s.Idle t) : s.held t = [] := by
  cases t with
  | producer =>
    have atRest : s.producer = .idle := idle
    simp [Threads.held, atRest, Pushing.held]
  | consumer c =>
    cases live : s.consumers c with
    | none => simp [Threads.held, live]
    | some pair =>
      obtain ⟨self, pc⟩ := pair
      have atRest : pc = .idle := idle self pc live
      rw [held_consumer live, atRest]
      rfl

theorem Others.free (others : Others s t) (owned : Owned s) {x : Nat} (apart : x ∉ s.held t) :
    s.lock x = none :=
  owned.idle_free (fun u other => idle_held (others u other)) apart

theorem Others.consumer {c : Nat} {v : Option (MessageConsumer × Consuming)}
    (others : Others s (.consumer c)) (producer : s'.producer = s.producer)
    (consumers : s'.consumers = Function.update s.consumers c v) : Others s' (.consumer c) := by
  intro u other
  have before := others u other
  cases u with
  | producer => exact producer.trans before
  | consumer d =>
    have apart : d ≠ c := fun same => other (same ▸ rfl)
    intro self pc live
    rw [consumers, Function.update_of_ne apart] at live
    exact before self pc live

theorem Others.producer (others : Others s .producer) (consumers : s'.consumers = s.consumers) :
    Others s' .producer := by
  intro u other
  have before := others u other
  cases u with
  | producer => exact absurd rfl other
  | consumer d =>
    intro self pc live
    rw [consumers] at live
    exact before self pc live

theorem relock {lock : Nat → Option Thread} {x : Nat} {v : Option Thread}
    (free : lock x = none) : Function.update (Function.update lock x v) x none = lock := by
  rw [Function.update_idem, ← free, Function.update_eq_self]

section Consumer

variable {c : Nat} {self : MessageConsumer} {flag : Bool} {y : Nat}

theorem round_steps (autodrop : Bool) (live : s.consumers c = some (self, .walking flag (some y)))
    (free : s.lock y = none) :
    ∃ u, consumerStep autodrop s c = some u ∧
      consumerStep autodrop u c = some
        ({ s with heap := (visit s.heap self.current flag y).1 }.goto c self
          ((visit s.heap self.current flag y).2.goesTo flag)) := by
  refine ⟨{ s with
    lock := Function.update s.lock y (some (.consumer c)) }.goto c self
      (.inspecting flag y), ?_, ?_⟩
  · simp [consumerStep, live, Threads.acquire, free]
  · simp [consumerStep, Threads.goto, Threads.release, relock free]

theorem leave_alone (autodrop : Bool) (self : MessageConsumer) (moveTo : Option Nat)
    (live : s.consumers c = some (self, .leaving moveTo)) :
    alone autodrop (.consumer c) 1 s = some { s with
      lock := Function.update s.lock self.current none
      consumers := Function.update s.consumers c
        (some ({ self with current := moveTo.getD self.current }, .idle)) } := by
  simp [alone, threadStep, consumerStep, live, Threads.goto, Threads.release]

theorem walk_alone (autodrop : Bool) (n : Nat) {fuel : Nat} (inter : Interlocked s)
    (others : Others s (.consumer c))
    (live : s.consumers c = some (self, .walking flag (some y)))
    (chain : Chain s.heap.next s.queue.tail n y) (enough : n < fuel) :
    ∃ h' dest k, walk self.current flag fuel s.heap (some y) = some (h', dest) ∧
      alone autodrop (.consumer c) k s = some { s with
        heap := h'
        lock := Function.update s.lock self.current none
        consumers := Function.update s.consumers c
          (some ({ self with current := dest.getD self.current }, .idle)) } := by
  induction fuel generalizing s n y with
  | zero => omega
  | succ fuel ih =>
    obtain ⟨place, fits⟩ := inter.placed c self _ live
    have link : s.heap.next self.current = some y := fits
    have apart : y ≠ self.current :=
      next_ne_self inter.rooted.forest.sink_end (inter.rooted.forest.leads _ place.range) link
    have free : s.lock y = none := by
      apply others.free inter.owned
      rw [held_consumer live]
      simpa [Consuming.held] using apart
    obtain ⟨u, first, second⟩ := round_steps autodrop live free
    have inter' := consumer_interlocked (consumer_interlocked inter first) second
    have round : ∀ k, alone autodrop (.consumer c) (k + 2) s = alone autodrop (.consumer c) k
        ({ s with heap := (visit s.heap self.current flag y).1 }.goto c self
          ((visit s.heap self.current flag y).2.goesTo flag)) := by
      intro k
      rw [alone_step (t := .consumer c) first, alone_step (t := .consumer c) second]
    rcases visit_cases (c := flag) inter.rooted place.range link with
      ⟨_, seen⟩ | ⟨w, go, ⟨_, seen⟩ | ⟨_, seen⟩⟩
    · refine ⟨s.heap, none, 3, by simp [walk, apart, seen], ?_⟩
      rw [round 1, seen]
      exact (leave_alone autodrop self none (by simp [Threads.goto, Visit.goesTo])).trans
        (by simp [Threads.goto])
    · refine ⟨s.heap, some y, 3, by simp [walk, apart, seen], ?_⟩
      rw [round 1, seen]
      exact (leave_alone autodrop self (some y) (by simp [Threads.goto, Visit.goesTo])).trans
        (by simp [Threads.goto])
    · rw [seen] at inter' round
      cases chain with
      | zero =>
        rw [inter.rooted.forest.sink_end] at go
        cases go
      | @succ n _ v ahead rest =>
        obtain rfl : w = v := Option.mem_unique go ahead
        obtain ⟨h', dest, k, loop, run⟩ := ih n inter' (others.consumer rfl rfl)
          (live_goto ..)
          (chain_pruned inter.rooted.forest place.range link go rest) (by omega)
        refine ⟨h', dest, k + 2, ?_, ?_⟩
        · simp only [walk, apart, if_false, seen]
          exact loop
        · rw [round k, run]
          simp [Threads.goto]

theorem locking_step (autodrop : Bool) (live : s.consumers c = some (self, .locking))
    (free : s.lock self.current = none) :
    consumerStep autodrop s c = some ({ s with
      heap := checked autodrop s.strongCount s.heap self
      lock := Function.update s.lock self.current (some (.consumer c)) }.goto c self
        (.walking ((checked autodrop s.strongCount s.heap self).node self.current).isClaimed
          ((checked autodrop s.strongCount s.heap self).next self.current))) := by
  simp [consumerStep, live, Threads.acquire, free]

/-- try_next left alone is try_next of the queue on which every operation runs alone. -/
theorem call_alone (autodrop : Bool) (inter : Interlocked s) (others : Others s (.consumer c))
    (live : s.consumers c = some (self, .locking)) :
    ∃ h' self' returned k,
      tryNext autodrop s.strongCount s.heap self = some (h', self', returned) ∧
      alone autodrop (.consumer c) k s = some { s with
        heap := h'
        consumers := Function.update s.consumers c (some (self', .idle)) } := by
  have place := (inter.placed c self _ live).1
  have free : s.lock self.current = none := by
    apply others.free inter.owned
    simp [held_consumer live, Consuming.held]
  have since := claimedSince_checked autodrop s.strongCount s.heap self
  have rooted := inter.rooted.claimedSince since
  have range : self.current < (checked autodrop s.strongCount s.heap self).size :=
    since.size ▸ place.range
  obtain ⟨y, link⟩ := rooted.next_some range place.inner
  obtain ⟨n, chain⟩ := exists_chain (rooted.forest.next_leads range link)
  have bound := rooted.chain_lt_size (rooted.closed _ y range link) chain
  have first := locking_step autodrop live free
  rw [link] at first
  have inter' := consumer_interlocked inter first
  obtain ⟨h', dest, k, loop, run⟩ := walk_alone autodrop n inter' (others.consumer rfl rfl)
    (live_goto ..) chain bound
  refine ⟨h', { self with current := dest.getD self.current }, dest, k + 1, ?_, ?_⟩
  · simp only [Threads.goto] at loop
    simp [tryNext, link, loop]
  · rw [alone_step (t := .consumer c) first, run]
    simp [Threads.goto, relock free]

theorem tryNext_alone (autodrop : Bool) (inter : Interlocked s) (others : Others s (.consumer c))
    (live : s.consumers c = some (self, .idle)) :
    ∃ u h' self' returned k, startTryNext s c = some u ∧
      tryNext autodrop s.strongCount s.heap self = some (h', self', returned) ∧
      alone autodrop (.consumer c) k u = some { s with
        heap := h'
        consumers := Function.update s.consumers c (some (self', .idle)) } := by
  have start : startTryNext s c = some (s.goto c self .locking) := by simp [startTryNext, live]
  obtain ⟨h', self', returned, k, result, run⟩ := call_alone autodrop
    (startTryNext_interlocked inter start) (others.consumer rfl rfl) (live_goto ..)
  exact ⟨_, h', self', returned, k, start, result, by rw [run]; simp [Threads.goto]⟩

theorem drop_alone (inter : Interlocked s) (others : Others s (.consumer c))
    (live : s.consumers c = some (self, .idle)) :
    ∃ u k, startDrop autodrop s c = some u ∧
      alone autodrop (.consumer c) k u = some { s with
        toProcess := dropConsumer autodrop s.toProcess self
        consumers := Function.update s.consumers c none } := by
  have free : s.lock self.current = none := by
    apply others.free inter.owned
    simp [held_consumer live, Consuming.held]
  cases autodrop with
  | true =>
    refine ⟨{ s with active := s.active.remove self.id }.goto c self .dropLocking, 3,
      by simp [startDrop, live], ?_⟩
    simp [alone, threadStep, consumerStep, Threads.goto, Threads.acquire, Threads.release, free,
      dropConsumer]
  | false =>
    refine ⟨s.goto c self .dropped, 1, by simp [startDrop, live], ?_⟩
    simp [alone, threadStep, consumerStep, Threads.goto, dropConsumer, checked]

end Consumer

section Producer

theorem pushing_alone (autodrop : Bool) (n : Nat) {fuel new currentLast : Nat}
    (inter : Interlocked s) (others : Others s .producer)
    (locking : s.producer = .locking new currentLast)
    (chain : Chain s.heap.next s.queue.tail n currentLast) (enough : n ≤ fuel) :
    ∃ e k, findLast s.heap s.queue.tail fuel currentLast = some e ∧
      alone autodrop .producer k s = some { s with
        heap := s.heap.setNext e (some new)
        queue := { s.queue with last := new }
        producer := .idle } := by
  induction fuel generalizing s n currentLast with
  | zero =>
    have place := inter.pushing currentLast (Or.inl (by simp [locking, Pushing.wanted]))
    obtain rfl : n = 0 := by omega
    cases chain
    exact absurd rfl place.inner
  | succ fuel ih =>
    have place := inter.pushing currentLast (Or.inl (by simp [locking, Pushing.wanted]))
    have free : s.lock currentLast = none := by
      apply others.free inter.owned
      simp [Threads.held, locking, Pushing.held]
    have first : threadStep autodrop s .producer = some { s with
        lock := Function.update s.lock currentLast (some .producer)
        producer := .locked new currentLast } := by
      simp [threadStep, pushStep, locking, Threads.acquire, free]
    cases chain with
    | zero => exact absurd rfl place.inner
    | @succ n _ y link rest =>
      by_cases last : y = s.queue.tail
      · subst last
        refine ⟨currentLast, 2, by simp [findLast, link], ?_⟩
        rw [alone_step first]
        simp [alone, threadStep, pushStep, link, appendNew, Threads.release, relock free]
      · have second : threadStep autodrop { s with
            lock := Function.update s.lock currentLast (some .producer)
            producer := .locked new currentLast } .producer =
            some { s with producer := .locking new y } := by
          simp [threadStep, pushStep, link, last, Threads.release, relock free]
        have inter' := pushStep_interlocked (pushStep_interlocked inter first) second
        obtain ⟨e, k, found, run⟩ := ih n inter' (others.producer rfl) rfl rest (by omega)
        refine ⟨e, k + 2, ?_, ?_⟩
        · simp only [findLast, link, if_neg last]
          exact found
        · rw [alone_step first, alone_step second, run]

/-- A push left alone is push of the queue on which every operation runs alone. -/
theorem push_alone (autodrop : Bool) (inter : Interlocked s) (others : Others s .producer)
    (idle : s.producer = .idle) (payload : List UInt8) :
    ∃ u h' q' k, startPush autodrop s payload = some u ∧
      push autodrop s.heap s.active s.queue payload = some (h', q') ∧
      alone autodrop .producer k u = some { s with heap := h', queue := q' } := by
  have start : startPush autodrop s payload = some { s with
      heap := (s.heap.alloc (newNode autodrop s.active s.queue.tail payload)).1
      producer := .locking s.heap.size s.queue.last } := by
    simp [startPush, idle, Heap.alloc]
  have inter' := startPush_interlocked inter start
  obtain ⟨n, chain⟩ := exists_chain (inter'.rooted.forest.leads _ inter'.last.range)
  have bound := inter'.rooted.chain_lt_size inter'.last.range chain
  obtain ⟨e, k, found, run⟩ := pushing_alone autodrop n inter' (others.producer rfl) rfl chain
    (Nat.le_of_lt bound)
  refine ⟨_, (s.heap.alloc (newNode autodrop s.active s.queue.tail payload)).1.setNext e
      (some s.heap.size), { s.queue with last := s.heap.size }, k, start, ?_, ?_⟩
  · simp only [push]
    exact congrArg (Option.map _) found
  · rw [run, idle]

end Producer

section Ends

theorem locking_ends (autodrop : Bool) (inter : Interlocked s) (others : Others s .producer)
    {new currentLast : Nat} (locking : s.producer = .locking new currentLast) :
    Ends autodrop .producer s := by
  have place := inter.pushing currentLast (Or.inl (by simp [locking, Pushing.wanted]))
  obtain ⟨n, chain⟩ := exists_chain (inter.rooted.forest.leads _ place.range)
  obtain ⟨e, k, _, run⟩ := pushing_alone autodrop n inter others locking chain (Nat.le_refl n)
  exact ⟨k, _, run, rfl⟩

theorem producer_ends (autodrop : Bool) (inter : Interlocked s) (others : Others s .producer) :
    Ends autodrop .producer s := by
  cases pc : s.producer with
  | idle => exact ⟨0, s, rfl, pc⟩
  | locking new currentLast => exact locking_ends autodrop inter others pc
  | locked new currentLast =>
    have place := inter.pushing currentLast (Or.inr (by simp [pc, Pushing.held]))
    obtain ⟨y, link⟩ := inter.rooted.next_some place.range place.inner
    by_cases last : y = s.queue.tail
    · have move : threadStep autodrop s .producer = some (appendNew s new currentLast) := by
        simp [threadStep, pushStep, pc, link, last]
      exact Ends.step move ⟨0, _, rfl, rfl⟩
    · have move : threadStep autodrop s .producer =
          some { s.release currentLast with producer := .locking new y } := by
        simp [threadStep, pushStep, pc, link, last]
      exact Ends.step move
        (locking_ends autodrop (pushStep_interlocked inter move) (others.producer rfl) rfl)

variable {c : Nat} {self : MessageConsumer}

theorem idle_of_live (live : s.consumers c = some (self, .idle)) : s.Idle (.consumer c) := by
  intro other pc same
  rw [live] at same
  cases same
  rfl

theorem idle_of_gone (gone : s.consumers c = none) : s.Idle (.consumer c) := by
  intro other pc same
  rw [gone] at same
  cases same

theorem leaving_ends (autodrop : Bool) {moveTo : Option Nat}
    (live : s.consumers c = some (self, .leaving moveTo)) : Ends autodrop (.consumer c) s :=
  ⟨1, _, leave_alone autodrop self moveTo live, idle_of_live (Function.update_self ..)⟩

theorem walking_ends (autodrop : Bool) (inter : Interlocked s) (others : Others s (.consumer c))
    {flag : Bool} {next : Option Nat} (live : s.consumers c = some (self, .walking flag next)) :
    Ends autodrop (.consumer c) s := by
  obtain ⟨place, fits⟩ := inter.placed c self _ live
  cases next with
  | none =>
    have move : threadStep autodrop s (.consumer c) =
        some ((s.release self.current).goto c self .idle) := by
      simp [threadStep, consumerStep, live]
    exact Ends.step move ⟨0, _, rfl, idle_of_live (live_goto ..)⟩
  | some y =>
    obtain ⟨n, chain⟩ := exists_chain (inter.rooted.forest.next_leads place.range fits)
    obtain ⟨h', dest, k, _, run⟩ :=
      walk_alone autodrop n inter others live chain (Nat.lt_succ_self n)
    exact ⟨k, _, run, idle_of_live (Function.update_self ..)⟩

theorem consumer_ends (autodrop : Bool) (inter : Interlocked s)
    (others : Others s (.consumer c)) : Ends autodrop (.consumer c) s := by
  cases live : s.consumers c with
  | none => exact ⟨0, s, rfl, idle_of_gone live⟩
  | some pair =>
    obtain ⟨self, pc⟩ := pair
    obtain ⟨place, fits⟩ := inter.placed c self pc live
    have mine := held_consumer live
    cases pc with
    | idle => exact ⟨0, s, rfl, idle_of_live live⟩
    | locking =>
      obtain ⟨h', self', returned, k, _, run⟩ := call_alone autodrop inter others live
      exact ⟨k, _, run, idle_of_live (Function.update_self ..)⟩
    | walking flag next => exact walking_ends autodrop inter others live
    | inspecting flag y =>
      have move : threadStep autodrop s (.consumer c) = some
          (({ s with heap := (visit s.heap self.current flag y).1 }.release y).goto c self
            ((visit s.heap self.current flag y).2.goesTo flag)) := by
        simp [threadStep, consumerStep, live]
      have inter' := consumer_interlocked inter move
      refine Ends.step move ?_
      cases seen : (visit s.heap self.current flag y).2 with
      | found dest => exact leaving_ends autodrop (live_goto ..)
      | reachedTail => exact leaving_ends autodrop (live_goto ..)
      | advance newNext =>
        rw [seen] at inter'
        exact walking_ends autodrop inter' (others.consumer rfl rfl) (live_goto ..)
    | leaving moveTo => exact leaving_ends autodrop live
    | dropLocking =>
      have free : s.lock self.current = none := by
        apply others.free inter.owned
        simp [mine, Consuming.held]
      refine ⟨3, { s with
        heap := checked autodrop s.strongCount s.heap self
        strongCount := Function.update s.strongCount self.dropTracker 0
        consumers := Function.update s.consumers c none }, ?_,
        idle_of_gone (Function.update_self ..)⟩
      simp [alone, threadStep, consumerStep, live, Threads.goto, Threads.acquire, Threads.release,
        free]
    | dropLocked =>
      refine ⟨2, { s with
        lock := Function.update s.lock self.current none
        strongCount := Function.update s.strongCount self.dropTracker 0
        consumers := Function.update s.consumers c none }, ?_,
        idle_of_gone (Function.update_self ..)⟩
      simp [alone, threadStep, consumerStep, live, Threads.goto, Threads.release]
    | dropped =>
      refine ⟨1, { s with
        strongCount := Function.update s.strongCount self.dropTracker 0
        consumers := Function.update s.consumers c none }, ?_,
        idle_of_gone (Function.update_self ..)⟩
      simp [alone, threadStep, consumerStep, live]

end Ends

theorem Interlocked.wanted_free (inter : Interlocked s) {x : Nat} (wants : s.wanted t = some x) :
    x ∉ s.held t := by
  cases t with
  | producer =>
    cases pc : s.producer <;> simp [Threads.wanted, Threads.held, pc, Pushing.wanted,
      Pushing.held] at wants ⊢
  | consumer c =>
    cases live : s.consumers c with
    | none => simp [Threads.held, live]
    | some pair =>
      obtain ⟨self, pc⟩ := pair
      obtain ⟨place, fits⟩ := inter.placed c self pc live
      cases pc with
      | walking flag next =>
        simp only [Threads.wanted, live, Consuming.wanted] at wants
        subst wants
        have apart := next_ne_self inter.rooted.forest.sink_end
          (inter.rooted.forest.leads _ place.range) fits
        simpa [held_consumer live, Consuming.held] using apart
      | idle | locking | inspecting | leaving | dropLocking | dropLocked | dropped =>
        simp [Threads.wanted, live, Consuming.wanted, held_consumer live, Consuming.held] at wants ⊢

/-- In every reachable state the links form a forest with the tail at its root and every
    consumer off the tail; a thread that is left alone ends; and no thread waits for itself. -/
theorem links_stay_forest (reach : ThreadsReachable autodrop s) :
    Forest s.heap.next s.queue.tail {x | x < s.heap.size} ∧
    (∀ c self pc, s.consumers c = some (self, pc) → self.current ≠ s.queue.tail) ∧
    (∀ t, Others s t → Ends autodrop t s) ∧
    (∀ t x, s.wanted t = some x → x ∉ s.held t) := by
  have inter := reachable_interlocked reach
  refine ⟨inter.rooted.forest, ?_, ?_, fun t x wants => inter.wanted_free wants⟩
  · intro c self pc live
    exact (inter.placed c self pc live).1.inner
  · intro t others
    cases t with
    | producer => exact producer_ends autodrop inter others
    | consumer c => exact consumer_ends autodrop inter others

/-- Consumer 0 is on message 2 and walks on, consumer 1 waits at the root for message 2. -/
def meetingActions : List Action :=
  [.createConsumer 7, .createConsumer 8, .push [1], .run .producer, .run .producer,
    .push [2], .run .producer, .run .producer, .tryNext 0, .run (.consumer 0),
    .run (.consumer 0), .run (.consumer 0), .run (.consumer 0), .claim 3, .tryNext 0,
    .run (.consumer 0), .tryNext 1, .run (.consumer 1)]

theorem links_stay_forest_meeting : ∃ s, ThreadsReachable true s ∧
    s.wanted (.consumer 1) = some 2 ∧ s.held (.consumer 0) = [2] ∧
    Forest s.heap.next s.queue.tail {x | x < s.heap.size} ∧
    (∀ c self pc, s.consumers c = some (self, pc) → self.current ≠ s.queue.tail) ∧
    (∀ t, Others s t → Ends true t s) ∧
    (∀ t x, s.wanted t = some x → x ∉ s.held t) := by
  obtain ⟨trace, s, run, wants, holds⟩ := execute_run (act true) Threads.init meetingActions
    (fun _ s => s.wanted (.consumer 1) = some 2 ∧ s.held (.consumer 0) = [2]) (by decide +kernel)
  exact ⟨s, ⟨trace, run⟩, wants, holds, links_stay_forest ⟨trace, run⟩⟩

/-- Who holds one node and waits for another holds exactly the node before it. -/
theorem Interlocked.waits_along_link (inter : Interlocked s) {x y : Nat} (holds : x ∈ s.held t)
    (wants : s.wanted t = some y) : s.heap.next x = some y := by
  cases t with
  | producer =>
    cases pc : s.producer <;> simp [Threads.held, Threads.wanted, pc, Pushing.held,
      Pushing.wanted] at holds wants
  | consumer c =>
    cases live : s.consumers c with
    | none => simp [Threads.held, live] at holds
    | some pair =>
      obtain ⟨self, pc⟩ := pair
      obtain ⟨_, fits⟩ := inter.placed c self pc live
      rw [held_consumer live] at holds
      simp only [Threads.wanted, live] at wants
      cases pc with
      | walking flag next =>
        obtain rfl := List.mem_singleton.mp holds
        exact Eq.trans fits wants
      | idle | locking | inspecting | leaving | dropLocking | dropLocked | dropped =>
        simp [Consuming.held, Consuming.wanted] at holds wants

/-- No set of threads each of which holds a node and waits for a node of another of them. -/
theorem no_deadlock (reach : ThreadsReachable autodrop s) (T : Set Thread) (some_ : T.Nonempty) :
    ¬ ∀ t ∈ T, (∃ x, s.lock x = some t) ∧
      ∃ y u, u ∈ T ∧ s.wanted t = some y ∧ s.lock y = some u := by
  intro stuck
  have inter := reachable_interlocked reach
  have none_ := inter.rooted.forest.no_closed_set {x | ∃ t ∈ T, s.lock x = some t} ?_ ?_
  · obtain ⟨t, member⟩ := some_
    obtain ⟨⟨x, holds⟩, _⟩ := stuck t member
    have inside : x ∈ ({x | ∃ t ∈ T, s.lock x = some t} : Set Nat) := ⟨t, member, holds⟩
    rw [none_] at inside
    exact inside
  · intro x ⟨t, _, holds⟩
    exact inter.held_range ((inter.owned x t).mp holds)
  · intro x ⟨t, member, holds⟩
    obtain ⟨_, y, u, memberU, wants, holdsU⟩ := stuck t member
    have link := inter.waits_along_link ((inter.owned x t).mp holds) wants
    exact ⟨y, ⟨u, memberU, holdsU⟩, link⟩

theorem no_deadlock_meeting : ∃ s, ThreadsReachable true s ∧
    s.lock 1 = some (.consumer 1) ∧ s.wanted (.consumer 1) = some 2 ∧
    s.lock 2 = some (.consumer 0) ∧ s.wanted (.consumer 0) = some 3 ∧
    ¬ ∀ t ∈ ({.consumer 0, .consumer 1} : Set Thread), (∃ x, s.lock x = some t) ∧
      ∃ y u, u ∈ ({.consumer 0, .consumer 1} : Set Thread) ∧ s.wanted t = some y ∧
        s.lock y = some u := by
  obtain ⟨trace, s, run, root, wants, message, later⟩ :=
    execute_run (act true) Threads.init meetingActions
      (fun _ s => s.lock 1 = some (.consumer 1) ∧ s.wanted (.consumer 1) = some 2 ∧
        s.lock 2 = some (.consumer 0) ∧ s.wanted (.consumer 0) = some 3) (by decide +kernel)
  exact ⟨s, ⟨trace, run⟩, root, wants, message, later,
    no_deadlock ⟨trace, run⟩ _ ⟨.consumer 0, Or.inl rfl⟩⟩

end Lmq
