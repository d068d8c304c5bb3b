import SkyCurrent.Lmq.Sound

/- Whether a consumer can still be handed every unclaimed message after it. It can as long
   as a single node points at the tail, the one push hangs the next message behind. A
   consumer on the root or on a claimed message leaves the nodes it steps over as they
   are, so a call of it that steps over the last node leaves two nodes at the tail. -/
namespace Lmq

open StateTransition Relation PointerForest Runs

variable {autodrop : Bool} {trace : List (System × Op)} {s t : System}

def drain (autodrop : Bool) (c : Nat) : Nat → System → List (Option Nat)
  | 0, _ => []
  | k + 1, s => s.returns autodrop c ::
    match step autodrop s (.tryNext c) with
    | none => []
    | some t => drain autodrop c k t

/-- Repeated calls hand every live consumer each unclaimed message after its position. -/
def NoLoss (autodrop : Bool) (s : System) : Prop :=
  ∀ c self m, s.consumers c = some self → s.heap.Unclaimed m →
    self.current = s.queue.root ∨ self.current < m → ∃ k, some m ∈ drain autodrop c k s

/- The consumer stands before nodes of which none is left unclaimed, its own included once
   the autodrop check is made, and the first of them is not the tail. -/
def Truncates (autodrop : Bool) (s : System) (c : Nat) : Prop :=
  ∃ self, s.consumers c = some self ∧
    s.heap.next self.current ≠ some s.queue.tail ∧
    ∀ m, Reaches s.heap.next self.current m →
      ¬ (checked autodrop s.strongCount s.heap self).Unclaimed m

def NotTruncating (autodrop : Bool) (s : System) (op : Op) : Prop :=
  ∀ c, op = .tryNext c → ¬ Truncates autodrop s c

def SingleEnd (h : Heap) (q : LinkMessageQueue) : Prop :=
  ∀ x y, x < h.size → y < h.size → h.next x = some q.tail → h.next y = some q.tail → x = y

/- The walks from the root and from the recorded last node only meet at the end. -/
def Parted (h : Heap) (q : LinkMessageQueue) : Prop :=
  ∀ x y, Reaches h.next q.root x → Reaches h.next q.last x → h.next x = some y → y = q.tail

section SingleEnd

variable {h : Heap} {q : LinkMessageQueue}

theorem WellLinked.exists_end (well : WellLinked h q) :
    ∃ e, Reaches h.next q.last e ∧ h.next e = some q.tail := by
  rcases ReflTransGen.cases_tail (well.forest.leads _ well.last_range) with same | ⟨e, walk, stop⟩
  · exact absurd same.symm well.last_inner
  · exact ⟨e, walk, stop⟩

theorem SingleEnd.exhausted (single : SingleEnd h q) (well : WellLinked h q) {x : Nat}
    (range : x < h.size) (stop : h.next x = some q.tail) : ∀ m, h.Unclaimed m → ¬ x < m := by
  obtain ⟨e, walk, stopE⟩ := well.exists_end
  have same : x = e :=
    single x e range (well.reaches_range well.last_range walk) stop stopE
  subst same
  apply well.reaches_exhausted well.last_range walk (well.forest.ne_sink stop)
  intro m unclaimed later
  have bound := (well.unclaimed_range m unclaimed).2
  have newest := well.newest
  omega

theorem SingleEnd.leads_on (single : SingleEnd h q) (well : WellLinked h q) {x m : Nat}
    (range : x < h.size) (inner : x ≠ q.tail) (unclaimed : h.Unclaimed m) (later : x < m) :
    Reaches h.next x m := by
  have walk := well.forest.leads x range
  induction walk using ReflTransGen.head_induction_on with
  | refl => exact absurd rfl inner
  | @head a b link rest ih =>
    by_cases stop : b = q.tail
    · subst stop
      exact absurd later (single.exhausted well range link m unclaimed)
    · by_cases found : m = b
      · exact found ▸ reaches_next link
      · have skip := well.links a b range link stop m unclaimed found
        exact (ih (well.closed a b range link).1 stop (skip.mp later)).head link

end SingleEnd

section Pruned

variable {h : Heap} {q : LinkMessageQueue} {p y w : Nat} {c : Bool}

theorem SingleEnd.pruned (single : SingleEnd h q) (well : WellLinked h q) (range : p < h.size)
    (first : h.next p = some y) (second : h.next y = some w)
    (open_ : c = true → w ≠ q.tail) : SingleEnd (pruned h p c y w) q := by
  have innerP := well.forest.ne_sink first
  have rangeY := (well.closed p y range first).1
  -- The end moves from `y` to `p`, or stays where it is.
  have moved : ∀ x, x < h.size → (Lmq.pruned h p c y w).next x = some q.tail →
      if w = q.tail then x = p else h.next x = some q.tail := by
    intro x rangeX stop
    rcases pruned_cases x q.tail stop with ⟨rfl, atTail⟩ | ⟨_, back, _⟩ | old
    · rw [if_pos atTail.symm]
    · exact absurd back.symm innerP
    · split
      · rename_i atTail
        subst atTail
        have same := single x y rangeX rangeY old second
        subst same
        cases c with
        | true => exact absurd rfl (open_ rfl)
        | false =>
          simp only [Lmq.pruned, Bool.false_eq_true, if_false, next_setNext,
            Function.update_self, Option.some.injEq] at stop
          exact absurd stop innerP
      · exact old
  intro x z rangeX rangeZ stopX stopZ
  rw [(relinked_pruned h p c y w).size] at rangeX rangeZ
  have atX := moved x rangeX stopX
  have atZ := moved z rangeZ stopZ
  split at atX
  · rename_i atTail
    rw [if_pos atTail] at atZ
    exact atX.trans atZ.symm
  · rename_i inner
    rw [if_neg inner] at atZ
    exact single x z rangeX rangeZ atX atZ

theorem reaches_pruned_cases (first : h.next p = some y) (second : h.next y = some w) {a x : Nat}
    (walk : Reaches (Lmq.pruned h p c y w).next a x) :
    Reaches h.next a x ∨
      c = false ∧ Reaches h.next a y ∧ (x = p ∨ Reaches h.next w x) := by
  induction walk with
  | refl => exact Or.inl ReflTransGen.refl
  | @tail u v before link ih =>
    rcases pruned_cases u v link with ⟨rfl, rfl⟩ | ⟨rfl, rfl, turned⟩ | old
    · rcases ih with there | ⟨turned, there, _⟩
      · exact Or.inl ((there.tail first).tail second)
      · exact Or.inr ⟨turned, there, Or.inr ReflTransGen.refl⟩
    · rcases ih with there | ⟨_, there, _⟩
      · exact Or.inr ⟨turned, there, Or.inl rfl⟩
      · exact Or.inr ⟨turned, there, Or.inl rfl⟩
    · rcases ih with there | ⟨turned, there, rfl | beyond⟩
      · exact Or.inl (there.tail old)
      · have same : y = v := Option.mem_unique first old
        subst same
        exact Or.inl there
      · exact Or.inr ⟨turned, there, Or.inr (beyond.tail old)⟩

theorem not_reaches_turned (well : WellLinked h q) (range : p < h.size)
    (first : h.next p = some y) (second : h.next y = some w) {a : Nat}
    (through : Reaches h.next a p) {x : Nat}
    (walk : Reaches (Lmq.pruned h p false y w).next a x) : Reaches h.next a x ∧ x ≠ y := by
  have leadsY := well.forest.next_leads range first
  have leadsW := reaches_tail_of_next well.forest.sink_end second leadsY
  have noReturn : ¬ Reaches h.next y p := not_reaches_back well.forest.sink_end leadsY first
  have beyondY : ¬ Reaches h.next w y := not_reaches_back well.forest.sink_end leadsW second
  have apart : y ≠ p := next_ne_self well.forest.sink_end (well.forest.leads p range) first
  have toW : Reaches h.next a w := (through.tail first).tail second
  -- Up to `p` the walk is the old one; from there on it is the old one from `w`.
  have split_ : (Reaches h.next a x ∧ Reaches h.next x p) ∨ Reaches h.next w x := by
    induction walk with
    | refl => exact Or.inl ⟨ReflTransGen.refl, through⟩
    | @tail u v before link ih =>
      simp only [Lmq.pruned, Bool.false_eq_true, if_false, next_setNext] at link
      by_cases atY : u = y
      · subst atY
        rcases ih with ⟨_, back⟩ | back
        · exact absurd back noReturn
        · exact absurd back beyondY
      · rw [Function.update_of_ne atY] at link
        by_cases atP : u = p
        · subst atP
          have same : w = v := by simpa using link
          exact Or.inr (same ▸ ReflTransGen.refl)
        · rw [Function.update_of_ne atP] at link
          rcases ih with ⟨there, toP⟩ | there
          · rcases ReflTransGen.cases_head toP with same | ⟨z, firstZ, restZ⟩
            · exact absurd same atP
            · have same : z = v := Option.mem_unique firstZ link
              subst same
              exact Or.inl ⟨there.tail link, restZ⟩
          · exact Or.inr (there.tail link)
  rcases split_ with ⟨there, toP⟩ | there
  · refine ⟨there, ?_⟩
    rintro rfl
    exact noReturn toP
  · refine ⟨toW.trans there, ?_⟩
    rintro rfl
    exact beyondY there

theorem Parted.pruned (parted : Parted h q) (well : WellLinked h q) (range : p < h.size)
    (first : h.next p = some y) (second : h.next y = some w)
    (through : c = false → Reaches h.next q.root p) : Parted (pruned h p c y w) q := by
  have innerY := well.forest.ne_sink second
  intro x v fromRoot fromLast link
  cases c with
  | true =>
    have root : Reaches h.next q.root x := by simpa using reaches_pruned_cases first second fromRoot
    have last : Reaches h.next q.last x := by simpa using reaches_pruned_cases first second fromLast
    rcases pruned_cases x v link with ⟨rfl, _⟩ | ⟨_, _, turned⟩ | old
    · exact absurd (parted x y root last first) innerY
    · cases turned
    · exact parted x v root last old
  | false =>
    obtain ⟨root, apart⟩ := not_reaches_turned well range first second (through rfl) fromRoot
    rcases reaches_pruned_cases first second fromLast with last | ⟨_, lastY, _⟩
    · rcases pruned_cases x v link with ⟨rfl, _⟩ | ⟨atY, _, _⟩ | old
      · exact absurd (parted x y root last first) innerY
      · exact absurd atY apart
      · exact parted x v root last old
    · -- Both walks came through `y`, so `y` was the end, and the end is now `p`.
      have atTail := parted y w ((through rfl).tail first) lastY second
      subst atTail
      rcases pruned_cases x v link with ⟨_, rfl⟩ | ⟨atY, _, _⟩ | old
      · rfl
      · exact absurd atY apart
      · by_cases atP : x = p
        · subst atP
          have same : y = v := Option.mem_unique first old
          subst same
          simp only [Lmq.pruned, Bool.false_eq_true, if_false, next_setNext,
            Function.update_of_ne apart, Function.update_self, Option.some.injEq] at link
          exact link.symm
        · rcases reaches_pruned_cases first second fromLast with last | ⟨_, _, same | beyond⟩
          · exact parted x v root last old
          · exact absurd same atP
          · rw [reaches_sink_iff well.forest.sink_end] at beyond
            subst beyond
            rw [well.forest.sink_end] at old
            cases old

end Pruned

structure Delivering (s : System) : Prop where
  sound : Sound s
  single : SingleEnd s.heap s.queue
  parted : Parted s.heap s.queue

theorem delivering_tryNext (delivering : Delivering s) {c : Nat}
    (whole : ¬ Truncates autodrop s c) (move : Step autodrop s (.tryNext c) t) :
    Delivering t := by
  have sound := delivering.sound
  obtain ⟨self, _, _, live, _, _, _⟩ := step_tryNext sound move
  have next_eq := next_checked autodrop s.strongCount s.heap self
  have size_eq := size_checked autodrop s.strongCount s.heap self
  have place := sound.placed c self live
  obtain ⟨h', dest, run, walked⟩ := tryNext_rule autodrop s.strongCount
    (P := fun h' y => SingleEnd h' s.queue ∧ Parted h' s.queue ∧
      (((checked autodrop s.strongCount s.heap self).node self.current).isClaimed = false →
        h'.Unclaimed self.current) ∧
      (((checked autodrop s.strongCount s.heap self).node self.current).isClaimed = true →
        y ≠ s.queue.tail → ∃ m, h'.Unclaimed m ∧ Reaches h'.next y m))
    sound.well place.1 place.2
    (by
      rintro h' y w well range ⟨single, parted, standing, goal⟩ link claimed go
      have frame := relinked_pruned h' self.current
        ((checked autodrop s.strongCount s.heap self).node self.current).isClaimed y w
      have later := reaches_pruned (c := ((checked autodrop s.strongCount s.heap self).node
        self.current).isClaimed) well.forest range link go
      have ahead : ((checked autodrop s.strongCount s.heap self).node
          self.current).isClaimed = true → ∃ m, h'.Unclaimed m ∧ Reaches h'.next w m := by
        intro flag
        obtain ⟨m, unclaimed, walk⟩ := goal flag (well.forest.ne_sink go)
        refine ⟨m, unclaimed, ?_⟩
        rcases ReflTransGen.cases_head walk with same | ⟨v, first, rest⟩
        · exact absurd (same ▸ unclaimed) claimed
        · have same : w = v := Option.mem_unique go first
          exact same ▸ rest
      refine ⟨single.pruned well range link go ?_, parted.pruned well range link go ?_, ?_, ?_⟩
      · intro flag atTail
        subst atTail
        obtain ⟨m, unclaimed, walk⟩ := ahead flag
        rw [reaches_sink_iff well.forest.sink_end] at walk
        exact well.tail_claimed (walk ▸ unclaimed)
      · intro flag
        have unclaimed := standing flag
        exact single.leads_on well well.root_lt (Nat.ne_of_gt well.tail_lt) unclaimed
          (well.unclaimed_range _ unclaimed).1
      · intro flag
        exact (frame.unclaimed _).mpr (standing flag)
      · intro flag _
        obtain ⟨m, unclaimed, walk⟩ := ahead flag
        exact ⟨m, (frame.unclaimed m).mpr unclaimed, (later m).mpr walk⟩)
    (by
      intro y link
      refine ⟨?_, ?_, fun flag => flag, ?_⟩
      · simpa only [SingleEnd, next_eq, size_eq] using delivering.single
      · simpa only [Parted, next_eq] using delivering.parted
      · intro flag inner
        by_contra none_
        apply whole
        refine ⟨self, live, ?_, ?_⟩
        · intro atTail
          rw [link] at atTail
          exact inner (Option.some.inj atTail)
        · intro m walk unclaimed
          apply none_
          refine ⟨m, unclaimed, ?_⟩
          rw [next_eq]
          rcases ReflTransGen.cases_head walk with same | ⟨v, first, rest⟩
          · subst same
            have open_ : ((checked autodrop s.strongCount s.heap self).node
              self.current).isClaimed = false := unclaimed
            rw [open_] at flag
            cases flag
          · have same : y = v := Option.mem_unique link first
            exact same ▸ rest)
  have moved : t = { s with
      heap := h'
      consumers := Function.update s.consumers c
        (some { self with current := dest.getD self.current })
      handles := s.handles ++ dest.toList } := by
    simp [Step, step, live, run] at move
    exact move.symm
  have sound' := step_sound sound move
  subst moved
  obtain ⟨y, _, ⟨single, parted, _⟩, _⟩ := walked.stopped
  exact ⟨sound', single, parted⟩

section Appended

variable {h : Heap} {q : LinkMessageQueue} {m : NextMessage} {e : Nat}

theorem next_newest (link : m.next = some q.tail) (old : e < h.size) :
    (appended h e m).next h.size = some q.tail := by
  simp [appended, next_alloc, link, Function.update_of_ne (Nat.ne_of_gt old)]

theorem next_end (h : Heap) (e : Nat) (m : NextMessage) :
    (appended h e m).next e = some h.size := by
  simp [appended]

theorem next_older {x : Nat} (other : x ≠ e) (old : x ≠ h.size) :
    (appended h e m).next x = h.next x := by
  simp [appended, next_alloc, Function.update_of_ne other, Function.update_of_ne old]

theorem SingleEnd.appended (single : SingleEnd h q) (well : WellLinked h q)
    (walk : Reaches h.next q.last e)
    (stop : h.next e = some q.tail) :
    SingleEnd (appended h e m) { q with last := h.size } := by
  have old := well.reaches_range well.last_range walk
  have newest : ∀ x, x < h.size + 1 → (Lmq.appended h e m).next x = some q.tail → x = h.size := by
    intro x range stopX
    by_contra older
    by_cases same : x = e
    · subst same
      rw [next_end] at stopX
      have order := well.tail_lt
      have bound := well.root_lt
      have atTail := Option.some.inj stopX
      omega
    · rw [next_older same older] at stopX
      exact same (single x e (by omega) old stopX stop)
  intro x y rangeX rangeY stopX stopY
  exact (newest x rangeX stopX).trans (newest y rangeY stopY).symm

theorem Parted.appended (well : WellLinked h q) (link : m.next = some q.tail)
    (walk : Reaches h.next q.last e) (stop : h.next e = some q.tail) :
    Parted (appended h e m) { q with last := h.size } := by
  have old := well.reaches_range well.last_range walk
  have end_ := (well.appended link walk stop).forest.sink_end
  intro x y _ fromLast linkX
  rcases ReflTransGen.cases_head fromLast with same | ⟨v, first, rest⟩
  · subst same
    rw [next_newest link old] at linkX
    exact (Option.some.inj linkX).symm
  · have atTail : q.tail = v := Option.mem_unique (next_newest link old) first
    subst atTail
    obtain rfl := (reaches_sink_iff end_).mp rest
    rw [end_] at linkX
    cases linkX

end Appended

theorem step_delivering (delivering : Delivering s) {op : Op} (whole : NotTruncating autodrop s op)
    (move : Step autodrop s op t) : Delivering t := by
  have sound := delivering.sound
  have sound' := step_sound sound move
  cases op with
  | push payload =>
    obtain ⟨e, walk, stop, rfl⟩ := step_push sound move
    exact ⟨sound', delivering.single.appended sound.well walk stop,
      Parted.appended sound.well rfl walk stop⟩
  | createConsumer id =>
    obtain rfl := step_create move
    exact ⟨sound', delivering.single, delivering.parted⟩
  | tryNext c => exact delivering_tryNext delivering (whole c rfl) move
  | claim handle =>
    obtain ⟨m, _, rfl⟩ := step_claim move
    refine ⟨sound', ?_, ?_⟩
    · simpa only [SingleEnd, next_claim, size_claim] using delivering.single
    · simpa only [Parted, next_claim] using delivering.parted
  | drop c =>
    obtain ⟨self, _, rfl⟩ := step_drop move
    have since := claimedSince_checked autodrop s.strongCount s.heap self
    refine ⟨sound', ?_, ?_⟩
    · simpa only [SingleEnd, dropConsumer, since.next, since.size] using delivering.single
    · simpa only [Parted, dropConsumer, since.next] using delivering.parted

theorem delivering_init : Delivering System.init := by
  refine ⟨sound_init, ?_, ?_⟩
  · intro x y rangeX rangeY stopX stopY
    have inner : ∀ z, z < 2 → System.init.heap.next z = some 0 → z = 1 := by decide
    exact (inner x rangeX stopX).trans (inner y rangeY stopY).symm
  · intro x y fromRoot _ link
    rcases ReflTransGen.cases_head fromRoot with same | ⟨v, first, rest⟩
    · subst same
      exact (Option.some.inj link).symm
    · have atTail : 0 = v := Option.some.inj first
      subst atTail
      obtain rfl := (reaches_sink_iff sound_init.well.forest.sink_end).mp rest
      cases link

theorem run_delivering (run : QueueRun autodrop trace s)
    (whole : Meets (NotTruncating autodrop) trace) : Delivering s := by
  refine run_invariant (fun _ => Delivering) ?_ ?_ run whole
  · intro s first
    subst first
    exact delivering_init
  · intro trace s op t _ delivering whole move
    exact step_delivering delivering whole move

/-- One call on the way to `m`: it returns `m`, or an earlier message from which `m` is
    still to come. -/
theorem call_towards (autodrop : Bool) (delivering : Delivering s) {c m : Nat}
    {self : MessageConsumer}
    (live : s.consumers c = some self) (unclaimed : s.heap.Unclaimed m)
    (later : self.current < m) :
    ∃ f t, s.returns autodrop c = some f ∧ step autodrop s (.tryNext c) = some t ∧
      Delivering t ∧ t.consumers c = some { self with current := f } ∧
      t.heap.Unclaimed f ∧ t.heap.Unclaimed m ∧ f ≤ m ∧
      (s.heap.Unclaimed self.current → self.current < f) := by
  have sound := delivering.sound
  have place := sound.placed c self live
  have walk := delivering.single.leads_on sound.well place.1 place.2 unclaimed later
  obtain ⟨h', dest, run, spec⟩ := sound.next_spec autodrop live
  obtain ⟨f, rfl, ahead⟩ := spec.ahead m unclaimed (Nat.ne_of_gt later) walk
  obtain ⟨open_, apart, within⟩ := spec.origin f rfl
  have kept : h'.Unclaimed m := (spec.relinked.unclaimed m).mpr
    ((unclaimed_checked autodrop s.strongCount s.heap self (Nat.ne_of_gt later)).mpr unclaimed)
  have inner : m ≠ s.queue.tail := by
    have range := sound.well.unclaimed_range m unclaimed
    have order := sound.well.tail_lt
    omega
  have innerF : f ≠ s.queue.tail := by
    rintro rfl
    exact spec.well.tail_claimed open_
  have whole : ¬ Truncates autodrop s c := by
    rintro ⟨other, liveOther, _, claimed⟩
    have same : other = self := Option.some.inj (liveOther.symm.trans live)
    subst same
    exact claimed m walk
      ((unclaimed_checked autodrop s.strongCount s.heap other (Nat.ne_of_gt later)).mpr unclaimed)
  have move : step autodrop s (.tryNext c) = some { s with
      heap := h'
      consumers := Function.update s.consumers c (some { self with current := f })
      handles := s.handles ++ [f] } := by
    simp [step, live, run]
  refine ⟨f, _, by simp [System.returns, live, run], move,
    delivering_tryNext delivering whole move, by simp, open_, kept,
    spec.well.reaches_later open_ ahead inner, ?_⟩
  intro standing
  have bound := sound.well.reaches_later standing (within f ReflTransGen.refl) innerF
  omega

theorem drain_from_unclaimed (autodrop : Bool) (n : Nat) {c m : Nat} {self : MessageConsumer}
    (delivering : Delivering s) (live : s.consumers c = some self)
    (standing : s.heap.Unclaimed self.current) (unclaimed : s.heap.Unclaimed m)
    (later : self.current < m) (near : m - self.current ≤ n) :
    ∃ k, some m ∈ drain autodrop c k s := by
  induction n generalizing s self with
  | zero => omega
  | succ n ih =>
    obtain ⟨f, t, result, move, delivering', live', open_, kept, bound, closer⟩ :=
      call_towards autodrop delivering live unclaimed later
    have step_ := closer standing
    by_cases found : f = m
    · subst found
      exact ⟨1, by simp [drain, result]⟩
    · obtain ⟨k, seen⟩ := ih delivering' live' open_ kept
        (Nat.lt_of_le_of_ne bound found) (by simp only; omega)
      exact ⟨k + 1, by simp [drain, move, seen]⟩

theorem delivering_noLoss (delivering : Delivering s) : NoLoss autodrop s := by
  intro c self m live unclaimed position
  have later : self.current < m := by
    rcases position with root | later
    · rw [root]
      exact (delivering.sound.well.unclaimed_range m unclaimed).1
    · exact later
  obtain ⟨f, t, result, move, delivering', live', open_, kept, bound, _⟩ :=
    call_towards autodrop delivering live unclaimed later
  by_cases found : f = m
  · subst found
    exact ⟨1, by simp [drain, result]⟩
  · obtain ⟨k, seen⟩ := drain_from_unclaimed autodrop (m - f) delivering' live'
      open_ kept (Nat.lt_of_le_of_ne bound found) (Nat.le_refl _)
    exact ⟨k + 1, by simp [drain, move, seen]⟩

/-- No link leads the consumer to the message. -/
def Lost (s : System) (c m : Nat) : Prop :=
  ∃ self, s.consumers c = some self ∧ m ≠ s.queue.tail ∧
    ¬ Reaches s.heap.next self.current m

theorem lost_stays (autodrop : Bool) (sound : Sound s) {c m : Nat} (lost : Lost s c m) :
    s.returns autodrop c ≠ some m ∧ ∀ t, step autodrop s (.tryNext c) = some t → Lost t c m := by
  obtain ⟨self, live, inner, away⟩ := lost
  obtain ⟨h', dest, run, spec⟩ := sound.next_spec autodrop live
  have result : s.returns autodrop c = dest := by simp [System.returns, live, run]
  constructor
  · intro found
    rw [result] at found
    exact away ((spec.origin m found).2.2 m ReflTransGen.refl)
  · intro t move
    have moved : t = { s with
        heap := h'
        consumers := Function.update s.consumers c
          (some { self with current := dest.getD self.current })
        handles := s.handles ++ dest.toList } := by
      simp [step, live, run] at move
      exact move.symm
    subst moved
    refine ⟨{ self with current := dest.getD self.current }, by simp, inner, ?_⟩
    intro walk
    cases dest with
    | some f => exact away ((spec.origin f rfl).2.2 m walk)
    | none =>
      -- The consumer stays, right before the tail.
      rcases ReflTransGen.cases_head walk with same | ⟨v, first, rest⟩
      · exact away (same ▸ ReflTransGen.refl)
      · have atTail : s.queue.tail = v := Option.mem_unique spec.link first
        subst atTail
        exact inner ((reaches_sink_iff spec.well.forest.sink_end).mp rest)

theorem lost_not_drained (sound : Sound s) {c m : Nat} (lost : Lost s c m) (k : Nat) :
    some m ∉ drain autodrop c k s := by
  induction k generalizing s with
  | zero => simp [drain]
  | succ k ih =>
    obtain ⟨notNow, later⟩ := lost_stays autodrop sound lost
    cases move : step autodrop s (.tryNext c) with
    | none => simpa [drain, move] using Ne.symm notNow
    | some t =>
      have never := ih (step_sound sound move) (later t move)
      simp only [drain, move, List.mem_cons, not_or]
      exact ⟨Ne.symm notNow, never⟩

theorem not_noLoss_of_lost (sound : Sound s) {c m : Nat} (lost : Lost s c m)
    (unclaimed : s.heap.Unclaimed m)
    (later : ∀ self, s.consumers c = some self → self.current < m) : ¬ NoLoss autodrop s := by
  intro whole
  have ⟨self, live, _⟩ := lost
  obtain ⟨k, seen⟩ := whole c self m live unclaimed (Or.inr (later self live))
  exact lost_not_drained sound lost k seen

theorem truncating_call (sound : Sound s) {c : Nat} {self : MessageConsumer}
    (live : s.consumers c = some self)
    (claimed : ∀ m, Reaches s.heap.next self.current m →
      ¬ (checked autodrop s.strongCount s.heap self).Unclaimed m)
    (move : Step autodrop s (.tryNext c) t) :
    t.heap.next = Function.update s.heap.next self.current (some s.queue.tail) ∧
      t.consumers c = some self ∧ t.queue = s.queue ∧ t.heap.size = s.heap.size := by
  have next_eq := next_checked autodrop s.strongCount s.heap self
  have flag :
      ((checked autodrop s.strongCount s.heap self).node self.current).isClaimed = true := by
    simpa [Heap.Unclaimed] using claimed self.current ReflTransGen.refl
  have place := sound.placed c self live
  obtain ⟨h', dest, run, walked⟩ := tryNext_rule autodrop s.strongCount
    (P := fun h' y => (∀ x, x ≠ self.current → h'.next x = s.heap.next x) ∧
      ∀ z, Reaches h'.next y z → Reaches s.heap.next self.current z)
    sound.well place.1 place.2
    (by
      rintro h' y w well range ⟨frame, within⟩ link _ go
      rw [flag]
      constructor
      · intro x other
        simpa [pruned, Function.update_of_ne other] using frame x other
      · intro z walk
        exact within z (((reaches_pruned well.forest range link go z).mp walk).head go))
    (by
      intro y link
      rw [next_eq]
      exact ⟨fun x _ => rfl, fun z walk => walk.head link⟩)
  obtain ⟨y, link, ⟨frame, within⟩, stopped⟩ := walked.stopped
  have atTail : y = s.queue.tail ∧ dest = none := by
    rcases stopped with stop | ⟨unclaimed, _⟩
    · exact stop
    · exact absurd ((walked.relinked.unclaimed y).mp unclaimed)
        (claimed y (within y ReflTransGen.refl))
  obtain ⟨rfl, rfl⟩ := atTail
  have moved : t = { s with
      heap := h'
      consumers := Function.update s.consumers c (some self)
      handles := s.handles ++ [] } := by
    simp [Step, step, live, run] at move
    simpa using move.symm
  subst moved
  refine ⟨?_, by simp, rfl, ?_⟩
  · funext x
    by_cases same : x = self.current
    · subst same
      simpa using link
    · simpa [Function.update_of_ne same] using frame x same
  · exact walked.relinked.size.trans (size_checked autodrop s.strongCount s.heap self)

/-- No loss here, nor after one more push, nor for a consumer created then. -/
def StaysWhole (autodrop : Bool) (s : System) : Prop :=
  NoLoss autodrop s ∧ ∀ payload id t u, Step autodrop s (.push payload) t →
    Step autodrop t (.createConsumer id) u → NoLoss autodrop t ∧ NoLoss autodrop u

theorem created_step (autodrop : Bool) (s : System) (id : UInt64) :
    Step autodrop s (.createConsumer id) { s with
      toProcess := (createConsumer autodrop s.toProcess s.queue id).1
      consumers := Function.update s.consumers s.trackers
        (some ⟨s.queue.root, id, s.trackers⟩) } := rfl

theorem truncating_loses (delivering : Delivering s) {c : Nat}
    (truncates : Truncates autodrop s c) (move : Step autodrop s (.tryNext c) t) :
    ¬ StaysWhole autodrop t := by
  rintro ⟨_, whole⟩
  have sound := delivering.sound
  obtain ⟨self, live, skips, claimed⟩ := truncates
  obtain ⟨links, live', queue, size⟩ := truncating_call sound live claimed move
  have soundT := step_sound sound move
  obtain ⟨e, walk, stop, pushed⟩ := push_spec autodrop t.active [] soundT.well
  have moveP : Step autodrop t (.push []) { t with
      heap := appended t.heap e (newNode autodrop t.active t.queue.tail [])
      queue := { t.queue with last := t.heap.size } } := by
    simp [Step, step, pushed]
  have soundP := step_sound soundT moveP
  have range := (soundT.placed c self live').1
  have lastRange := soundT.well.reaches_range soundT.well.last_range walk
  have innerNew : t.heap.size ≠ t.queue.tail := by
    have order := soundT.well.tail_lt
    have bound := soundT.well.root_lt
    omega
  have unclaimedNew : (appended t.heap e
      (newNode autodrop t.active t.queue.tail [])).Unclaimed t.heap.size := by
    simp [appended, unclaimed_alloc, newNode, NextMessage.isClaimed]
  have moveC := created_step autodrop { t with
    heap := appended t.heap e (newNode autodrop t.active t.queue.tail [])
    queue := { t.queue with last := t.heap.size } } 0
  obtain ⟨noLossP, noLossC⟩ := whole [] 0 _ _ moveP moveC
  by_cases here : e = self.current
  · -- The new message hangs behind the consumer, out of sight from the root.
    subst here
    have away : ¬ Reaches t.heap.next t.queue.root self.current := by
      intro fromRoot
      rw [links, queue] at fromRoot
      rw [links, queue] at walk
      obtain ⟨y, link⟩ := sound.well.next_some (sound.placed c self live).1
        (sound.placed c self live).2
      have atTail := delivering.parted self.current y (reaches_updated fromRoot)
        (reaches_updated walk) link
      exact skips (atTail ▸ link)
    refine not_noLoss_of_lost (step_sound soundP moveC) (c := t.trackers) (m := t.heap.size)
      ⟨⟨t.queue.root, 0, t.trackers⟩, by simp, innerNew, ?_⟩ unclaimedNew ?_ noLossC
    · intro fromRoot
      change Reaches (appended t.heap self.current _).next t.queue.root t.heap.size at fromRoot
      simp only [appended, next_setNext, next_alloc] at fromRoot
      have short := reaches_of_update fromRoot fun back =>
        away (reaches_of_update back (soundT.well.fresh soundT.well.root_lt))
      exact soundT.well.fresh soundT.well.root_lt (reaches_updated short)
    · intro other liveO
      simp only [Function.update_self, Option.some.injEq] at liveO
      subst liveO
      exact soundT.well.root_lt
  · -- The consumer is left before the tail, off the node the new message hangs behind.
    refine not_noLoss_of_lost soundP (c := c) (m := t.heap.size)
      ⟨self, live', innerNew, ?_⟩ unclaimedNew ?_ noLossP
    · intro fromHere
      have link : (appended t.heap e (newNode autodrop t.active t.queue.tail [])).next
          self.current = some t.queue.tail := by
        rw [next_older (Ne.symm here) (Nat.ne_of_lt range), links, queue]
        simp
      rcases ReflTransGen.cases_head fromHere with same | ⟨v, first, rest⟩
      · exact absurd same (Nat.ne_of_lt range)
      · have atTail : t.queue.tail = v := Option.mem_unique link first
        subst atTail
        exact innerNew ((reaches_sink_iff soundP.well.forest.sink_end).mp rest)
    · intro other liveO
      have same : other = self := Option.some.inj (liveO.symm.trans live')
      exact same ▸ range

/-- In a run in which no call truncates the list, no message is ever lost; and if none is
    lost in a run, nor would be after one push more, then no call in it truncates the list. -/
theorem no_message_lost (run : QueueRun autodrop trace s) :
    (Meets (NotTruncating autodrop) trace → Throughout (fun _ => NoLoss autodrop) trace s) ∧
    (Meets (NotTruncating autodrop) trace ↔ Throughout (fun _ => StaysWhole autodrop) trace s) := by
  refine ⟨?_, ?_, ?_⟩
  · intro whole
    exact throughout_of_runs (fun run whole => delivering_noLoss (run_delivering run whole))
      run whole
  · intro whole
    refine throughout_of_runs ?_ run whole
    intro trace s run whole
    have delivering := run_delivering run whole
    refine ⟨delivering_noLoss delivering, ?_⟩
    intro payload id t u push_ create
    have after := step_delivering delivering (by rintro c ⟨⟩) push_
    exact ⟨delivering_noLoss after,
      delivering_noLoss (step_delivering after (by rintro c ⟨⟩) create)⟩
  · intro holds
    refine meets_of_throughout ?_ run holds
    intro trace s op t before whole move outside
    simp only [NotTruncating, not_forall, not_not] at outside
    obtain ⟨c, rfl, truncates⟩ := outside
    exact truncating_loses (run_delivering before whole) truncates move

def BeforeUnclaimed (autodrop : Bool) (s : System) : Op → Prop
  | .tryNext c => ∀ self ∈ s.consumers c, ∃ y ∈ s.heap.next self.current,
      y = s.queue.tail ∨ (checked autodrop s.strongCount s.heap self).Unclaimed y
  | _ => True

instance (autodrop : Bool) (s : System) : (op : Op) → Decidable (BeforeUnclaimed autodrop s op)
  | .tryNext c => inferInstanceAs (Decidable (∀ self ∈ s.consumers c,
      ∃ y ∈ s.heap.next self.current,
        y = s.queue.tail ∨ (checked autodrop s.strongCount s.heap self).Unclaimed y))
  | .push _ | .createConsumer _ | .claim _ | .drop _ => inferInstanceAs (Decidable True)

theorem notTruncating_of_beforeUnclaimed {op : Op} (stands : BeforeUnclaimed autodrop s op) :
    NotTruncating autodrop s op := by
  rintro c rfl ⟨self, live, apart, exhausted⟩
  obtain ⟨y, link, atTail | unclaimed⟩ := stands self live
  · exact apart (atTail ▸ link)
  · exact exhausted y (reaches_next link) unclaimed

theorem no_message_lost_two_consumers : ∃ trace s, QueueRun true trace s ∧
    Meets (NotTruncating true) trace ∧ Throughout (fun _ => NoLoss true) trace s ∧
    Throughout (fun _ => StaysWhole true) trace s ∧ drain true 1 2 s = [some 2, some 3] := by
  obtain ⟨trace, s, run, stands, seen⟩ := execute_run (step true) System.init
    [.createConsumer 7, .createConsumer 8, .push [1], .tryNext 0, .push [2], .tryNext 0]
    (fun trace s => (∀ e ∈ trace, BeforeUnclaimed true e.1 e.2) ∧
      drain true 1 2 s = [some 2, some 3]) (by decide +kernel)
  have whole : Meets (NotTruncating true) trace :=
    fun e member => notTruncating_of_beforeUnclaimed (stands e member)
  obtain ⟨noLoss, stays⟩ := no_message_lost run
  exact ⟨trace, s, run, whole, noLoss whole, stays.mp whole, seen⟩

/- Consumer 1 steps from the root over the claimed message 2, the last one, to the tail. -/
def truncatingOps : List Op :=
  [.createConsumer 7, .createConsumer 8, .push [1], .tryNext 0, .claim 0, .tryNext 1,
    .push [2], .tryNext 1]

theorem message_never_delivered : ∃ trace s, QueueRun true trace s ∧
    trace.map (·.2) = truncatingOps ∧ s.heap.Unclaimed 3 ∧
    s.consumers 1 = some ⟨s.queue.root, 8, 1⟩ ∧ (∀ k, some 3 ∉ drain true 1 k s) ∧
    ¬ NoLoss true s := by
  obtain ⟨trace, s, run, ops, unclaimed, live, stop, queue⟩ :=
    execute_run (step true) System.init truncatingOps
      (fun trace s => trace.map (·.2) = truncatingOps ∧ s.heap.Unclaimed 3 ∧
        s.consumers 1 = some ⟨1, 8, 1⟩ ∧ s.heap.next 1 = some 0 ∧ s.queue = ⟨1, 3, 0⟩)
      (by decide +kernel)
  have sound := run_sound run
  have lost : Lost s 1 3 := by
    refine ⟨_, live, by simp [queue], ?_⟩
    intro walk
    have atTail : s.heap.next 0 = none := by simpa [queue] using sound.well.forest.sink_end
    rcases ReflTransGen.cases_head walk with same | ⟨v, first, rest⟩
    · cases same
    · obtain rfl : 0 = v := Option.mem_unique stop first
      have beyond := (reaches_sink_iff atTail).mp rest
      cases beyond
  refine ⟨trace, s, run, ops, unclaimed, by simpa [queue] using live,
    lost_not_drained sound lost, not_noLoss_of_lost sound lost unclaimed ?_⟩
  intro self liveS
  obtain rfl := Option.some.inj (live.symm.trans liveS)
  decide

end Lmq
