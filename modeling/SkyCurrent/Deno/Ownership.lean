import SkyCurrent.Deno.Model

/- Who has to release what. For either kind of pointer, those the object has given back and the
   one it holds are together all that it was ever given. -/
namespace Deno

open Runs

structure AllReleased (returned : Nat) (released : List Nat) : Prop where
  once : ∀ pointer < returned, released.count pointer = 1
  other : ∀ pointer, returned ≤ pointer → released.count pointer = 0

/-- The thread does not wait for itself, nothing is released twice, and an object that has been
    freed owns nothing, nor will the finalizers release anything for it again. -/
structure Safe (s : State) : Prop where
  runs : ∀ i, s.thread ≠ .waits i
  once : ∀ o ∈ s.objects, ∀ pointer,
    o.message.peekReleased.count pointer ≤ (if pointer < o.message.peeked then 1 else 0) ∧
      o.message.vecDestroyed.count pointer ≤ (if pointer < o.message.claimed then 1 else 0)
  freed : ∀ o ∈ s.objects, o.inner = false →
    AllReleased o.message.peeked o.message.peekReleased ∧
      AllReleased o.message.claimed o.message.vecDestroyed ∧ o.message.destroyed = 1 ∧
      o.refRegistered = [] ∧ o.vecRegistered = [] ∧ o.messageRegistered = false

/-- No claim() on an object that holds a guard. -/
def Unguarded (s : State) : Label → Prop
  | .claim i => ∀ o ∈ s.objects[i]?, o.ref = none
  | _ => True

instance (s : State) : (l : Label) → Decidable (Unguarded s l)
  | .claim i => inferInstanceAs (Decidable (∀ o ∈ s.objects[i]?, o.ref = none))
  | .creates _ | .read _ | .free _ | .claimedElsewhere _ | .finalized _ =>
    inferInstanceAs (Decidable True)

structure Sound (finalization : Bool) (o : NextMessage) : Prop where
  refs : o.message.peekReleased ++ o.ref.toList = List.range o.message.peeked
  vecs : o.message.vecDestroyed ++ o.handle.toList = List.range o.message.claimed
  refRegistered : o.refRegistered = NextMessage.registers finalization o.ref
  vecRegistered : o.vecRegistered = NextMessage.registers finalization o.handle
  messageRegistered : o.messageRegistered = (finalization && o.inner)
  destroyed : o.message.destroyed = if o.inner then 0 else 1
  freed : o.inner = false → o.ref = none ∧ o.handle = none

section Pointers

variable {returned : Nat} {released : List Nat} {held : Option Nat}

theorem count_range (returned pointer : Nat) :
    (List.range returned).count pointer = if pointer < returned then 1 else 0 := by
  rw [List.nodup_range.count]
  simp

theorem count_released (owned : released ++ held.toList = List.range returned) (pointer : Nat) :
    released.count pointer ≤ if pointer < returned then 1 else 0 := by
  rw [← count_range, ← owned, List.count_append]
  omega

theorem allReleased (owned : released ++ (none : Option Nat).toList = List.range returned) :
    AllReleased returned released := by
  have all : released = List.range returned := by simpa using owned
  constructor
  · intro pointer below
    rw [all, count_range, if_pos below]
  · intro pointer above
    rw [all, count_range, if_neg (by omega)]

theorem held_unreleased {pointer : Nat}
    (owned : released ++ (some pointer).toList = List.range returned) :
    pointer < returned ∧ pointer ∉ released := by
  have nodup := owned ▸ (List.nodup_range (n := returned))
  have member : pointer ∈ released ++ (some pointer).toList := by simp
  rw [owned] at member
  refine ⟨List.mem_range.mp member, fun there => ?_⟩
  exact (List.nodup_append.mp nodup).2.2 pointer there pointer (by simp) rfl

end Pointers

section Objects

variable {finalization : Bool} {o : NextMessage}

@[simp] theorem registers_none : NextMessage.registers finalization none = [] := by
  simp [NextMessage.registers]

theorem Sound.guarded (sound : Sound finalization o) : o.message.guarded = o.ref.isSome := by
  have refs := sound.refs
  cases held : o.ref with
  | some guard =>
    rw [held] at refs
    obtain ⟨range, unreleased⟩ := held_unreleased refs
    rw [Message.guarded, Option.isSome_some, List.any_eq_true]
    exact ⟨guard, List.mem_range.mpr range, by simpa using unreleased⟩
  | none =>
    have all : o.message.peekReleased = List.range o.message.peeked := by
      simpa [held] using refs
    simp [Message.guarded, all]

theorem sound_new (payload : Option (List UInt8)) :
    Sound finalization (.new finalization payload) := by
  constructor <;> simp [NextMessage.new]

def NextMessage.givesBack (o : NextMessage) : NextMessage :=
  { o with
    ref := none
    handle := none
    refRegistered := []
    vecRegistered := []
    message := { o.message with
      peekReleased := o.message.peekReleased ++ o.ref.toList
      vecDestroyed := o.message.vecDestroyed ++ o.handle.toList } }

theorem releaseOwned_eq
    (refRegistered : o.refRegistered = NextMessage.registers finalization o.ref)
    (vecRegistered : o.vecRegistered = NextMessage.registers finalization o.handle) :
    o.releaseOwned = o.givesBack := by
  have first : o.releaseRef = { o with
      ref := none
      refRegistered := []
      message := { o.message with
        peekReleased := o.message.peekReleased ++ o.ref.toList } } := by
    cases held : o.ref with
    | some guard => simp [NextMessage.releaseRef, held, Message.peekRelease]
    | none =>
      have nothing : o.refRegistered = [] := by
        rw [refRegistered, held, registers_none]
      cases o
      simp_all [NextMessage.releaseRef]
  cases held : o.handle with
  | some vec =>
    simp [NextMessage.releaseOwned, first, NextMessage.releaseHandle, NextMessage.givesBack, held,
      Message.vecDestroy]
  | none =>
    have nothing : o.vecRegistered = [] := by
      rw [vecRegistered, held, registers_none]
    simp [NextMessage.releaseOwned, first, NextMessage.releaseHandle, NextMessage.givesBack, held,
      nothing]

theorem Sound.givesBack (sound : Sound finalization o) : Sound finalization o.givesBack := by
  constructor
  · simpa [NextMessage.givesBack] using sound.refs
  · simpa [NextMessage.givesBack] using sound.vecs
  · exact registers_none.symm
  · exact registers_none.symm
  · exact sound.messageRegistered
  · exact sound.destroyed
  · exact fun _ => ⟨rfl, rfl⟩

theorem Sound.takes (sound : Sound finalization o) (inner : o.inner = true) {m : Message}
    {ref handle : Option Nat} (peekReleased : m.peekReleased = o.message.peekReleased)
    (vecDestroyed : m.vecDestroyed = o.message.vecDestroyed)
    (destroyed : m.destroyed = o.message.destroyed)
    (peeked : List.range m.peeked = List.range o.message.peeked ++ ref.toList)
    (claimed : List.range m.claimed = List.range o.message.claimed ++ handle.toList) :
    Sound finalization { { o with message := m }.givesBack with
      ref := ref
      handle := handle
      refRegistered := NextMessage.registers finalization ref
      vecRegistered := NextMessage.registers finalization handle } := by
  constructor
  · simp only [NextMessage.givesBack, peekReleased, peeked]
    rw [sound.refs]
  · simp only [NextMessage.givesBack, vecDestroyed, claimed]
    rw [sound.vecs]
  · rfl
  · rfl
  · exact sound.messageRegistered
  · exact destroyed.trans sound.destroyed
  · intro freed
    have still : o.inner = false := freed
    rw [inner] at still
    cases still

theorem Sound.setRef (sound : Sound finalization o) (inner : o.inner = true) (m : Message)
    (pointer : Option Nat) (released : m.peekReleased = o.message.peekReleased)
    (vecs : m.vecDestroyed = o.message.vecDestroyed ∧ m.claimed = o.message.claimed)
    (destroyed : m.destroyed = o.message.destroyed)
    (peeked : List.range m.peeked = List.range o.message.peeked ++ pointer.toList) :
    Sound finalization ({ o with message := m }.setRef finalization pointer) := by
  have back := releaseOwned_eq (o := { o with message := m }) sound.refRegistered
    sound.vecRegistered
  have claimed : List.range m.claimed = List.range o.message.claimed ++
      (none : Option Nat).toList := by
    rw [vecs.2]
    exact (List.append_nil _).symm
  have taken := sound.takes inner released vecs.1 destroyed peeked claimed
  rw [registers_none] at taken
  rw [NextMessage.setRef, back]
  exact taken

theorem Sound.setHandle (sound : Sound finalization o) (inner : o.inner = true) (m : Message)
    (pointer : Option Nat) (released : m.vecDestroyed = o.message.vecDestroyed)
    (refs : m.peekReleased = o.message.peekReleased ∧ m.peeked = o.message.peeked)
    (destroyed : m.destroyed = o.message.destroyed)
    (claimed : List.range m.claimed = List.range o.message.claimed ++ pointer.toList) :
    Sound finalization ({ o with message := m }.setHandle finalization pointer) := by
  have back := releaseOwned_eq (o := { o with message := m }) sound.refRegistered
    sound.vecRegistered
  have peeked : List.range m.peeked = List.range o.message.peeked ++
      (none : Option Nat).toList := by
    rw [refs.2]
    exact (List.append_nil _).symm
  have taken := sound.takes inner refs.1 released destroyed peeked claimed
  rw [registers_none] at taken
  rw [NextMessage.setHandle, back]
  exact taken

theorem Sound.view (sound : Sound finalization o) (view : Option (List UInt8)) :
    Sound finalization { o with currentView := view } :=
  ⟨sound.refs, sound.vecs, sound.refRegistered, sound.vecRegistered, sound.messageRegistered,
    sound.destroyed, sound.freed⟩

def Outcome.Sound (finalization : Bool) : Outcome → Prop
  | .returns o _ => Deno.Sound finalization o
  | .waits | .crashes => True

theorem Sound.read (sound : Sound finalization o) : (o.read finalization).Sound finalization := by
  cases inner : o.inner with
  | false => simp [NextMessage.read, inner, Outcome.Sound]
  | true =>
    cases payload : o.message.payload with
    | some data =>
      have taken := sound.setRef inner { o.message with peeked := o.message.peeked + 1 }
        (some o.message.peeked) rfl ⟨rfl, rfl⟩ rfl List.range_succ
      simpa [NextMessage.read, inner, Message.peek, payload, NextMessage.view, Outcome.Sound] using
        taken.view (some data)
    | none =>
      have taken := sound.setRef inner o.message none rfl ⟨rfl, rfl⟩ rfl (List.append_nil _).symm
      simpa [NextMessage.read, inner, Message.peek, payload, NextMessage.view, Outcome.Sound] using
        taken.view none

theorem Sound.claim (sound : Sound finalization o) :
    (o.claim finalization).Sound finalization ∧
      (o.claim finalization = .waits ↔ o.inner = true ∧ o.ref ≠ none) := by
  cases inner : o.inner with
  | false => simp [NextMessage.claim, inner, Outcome.Sound]
  | true =>
    cases held : o.ref with
    | some guard =>
      simp [NextMessage.claim, inner, Message.claim, sound.guarded, held, Outcome.Sound]
    | none =>
      cases payload : o.message.payload with
      | some data =>
        have taken := sound.setHandle inner
          { o.message with payload := none, claimed := o.message.claimed + 1 }
          (some o.message.claimed) rfl ⟨rfl, rfl⟩ rfl List.range_succ
        simpa [NextMessage.claim, inner, Message.claim, sound.guarded, held, payload,
          NextMessage.view, Outcome.Sound] using taken.view (some data)
      | none =>
        have taken := sound.setHandle inner o.message none rfl ⟨rfl, rfl⟩ rfl
          (List.append_nil _).symm
        simpa [NextMessage.claim, inner, Message.claim, sound.guarded, held, payload,
          NextMessage.view, Outcome.Sound] using taken.view none

theorem Sound.free (sound : Sound finalization o) : o.free.Sound finalization := by
  have back := sound.givesBack
  have same := releaseOwned_eq sound.refRegistered sound.vecRegistered
  cases inner : o.inner with
  | false =>
    have still : o.givesBack.inner = false := inner
    simpa [NextMessage.free, same, still, Outcome.Sound] using back
  | true =>
    have still : o.givesBack.inner = true := inner
    simp only [NextMessage.free, same, still, if_true, Outcome.Sound]
    refine ⟨back.refs, back.vecs, back.refRegistered, back.vecRegistered, by simp, ?_,
      fun _ => ⟨rfl, rfl⟩⟩
    have alive : o.message.destroyed = 0 := by simpa [inner] using sound.destroyed
    simp [Message.destroy, NextMessage.givesBack, alive]

theorem Sound.finalize (sound : Sound true o) : Sound true o.finalize := by
  have refs := sound.refs
  have vecs := sound.vecs
  constructor
  · simpa [NextMessage.finalize, sound.refRegistered, NextMessage.registers] using refs
  · simpa [NextMessage.finalize, sound.vecRegistered, NextMessage.registers] using vecs
  · exact registers_none.symm
  · exact registers_none.symm
  · simp [NextMessage.finalize]
  · simp only [NextMessage.finalize, sound.messageRegistered, sound.destroyed, Bool.true_and]
    cases o.inner <;> simp
  · exact fun _ => ⟨rfl, rfl⟩

end Objects

section Steps

variable {finalization : Bool} {s t : State} {l : Label} {i : Nat}
  {trace : List (State × Label)}

theorem calls_cases {method : NextMessage → Outcome} (move : s.calls i method = some t) :
    ∃ o, s.objects[i]? = some o ∧ s.thread = .running ∧ t = s.after i (method o) := by
  simp only [State.calls, Option.bind_eq_bind, Option.bind_eq_some_iff,
    Option.ite_none_right_eq_some, Option.some.injEq] at move
  obtain ⟨o, here, ⟨running, _⟩, rfl⟩ := move
  exact ⟨o, here, running, rfl⟩

theorem sound_put (sound : ∀ o ∈ s.objects, Sound finalization o) {o : NextMessage}
    (new : Sound finalization o) : ∀ o' ∈ (s.put i o).objects, Sound finalization o' := by
  intro o' member
  rcases List.mem_or_eq_of_mem_set member with before | rfl
  · exact sound o' before
  · exact new

theorem sound_calls (sound : ∀ o ∈ s.objects, Sound finalization o)
    {method : NextMessage → Outcome}
    (keeps : ∀ o, Sound finalization o → (method o).Sound finalization)
    (move : s.calls i method = some t) : ∀ o ∈ t.objects, Sound finalization o := by
  obtain ⟨o, here, _, rfl⟩ := calls_cases move
  have new := keeps o (sound o (List.mem_of_getElem? here))
  cases outcome : method o with
  | returns o' result =>
    rw [outcome] at new
    exact sound_put sound new
  | waits => exact sound
  | crashes => exact sound

theorem sound_step (sound : ∀ o ∈ s.objects, Sound finalization o)
    (move : step finalization s l = some t) : ∀ o ∈ t.objects, Sound finalization o := by
  cases l with
  | creates payload =>
    simp only [step, Option.ite_none_right_eq_some, Option.some.injEq] at move
    obtain ⟨_, rfl⟩ := move
    intro o member
    rcases List.mem_append.mp member with before | new
    · exact sound o before
    · rw [List.mem_singleton.mp new]
      exact sound_new payload
  | read i => exact sound_calls sound (fun _ before => before.read) move
  | claim i => exact sound_calls sound (fun _ before => before.claim.1) move
  | free i => exact sound_calls sound (fun _ before => before.free) move
  | claimedElsewhere i =>
    simp only [step, State.claimedElsewhere, Option.bind_eq_bind, Option.bind_eq_some_iff,
      Option.ite_none_left_eq_some, Option.some.injEq] at move
    obtain ⟨o, here, _, rfl⟩ := move
    have before := sound o (List.mem_of_getElem? here)
    exact sound_put sound ⟨before.refs, before.vecs, before.refRegistered, before.vecRegistered,
      before.messageRegistered, before.destroyed, before.freed⟩
  | finalized i =>
    simp only [step, State.finalized, Option.bind_eq_bind, Option.bind_eq_some_iff,
      Option.ite_none_right_eq_some, Option.some.injEq] at move
    obtain ⟨o, here, ⟨_, rfl, _⟩, rfl⟩ := move
    exact sound_put sound (sound o (List.mem_of_getElem? here)).finalize

theorem sound_of_run (run : MessageRun finalization trace s) :
    ∀ o ∈ s.objects, Sound finalization o := by
  refine reachable_invariant (fun s => ∀ o ∈ s.objects, Sound finalization o) ?_ ?_ ⟨trace, run⟩
  · rintro s rfl o member
    cases member
  · intro s l t sound move
    exact sound_step sound move

theorem after_waits (running : s.thread = .running) (outcome : Outcome) :
    (∃ j, (s.after i outcome).thread = .waits j) ↔ outcome = .waits := by
  cases outcome <;> simp [State.after, State.put, running]

theorem read_returns (o : NextMessage) : o.read finalization ≠ .waits := by
  cases inner : o.inner <;> simp [NextMessage.read, inner, NextMessage.view]

theorem free_returns (o : NextMessage) : o.free ≠ .waits := by
  cases inner : o.releaseOwned.inner <;> simp [NextMessage.free, inner]

theorem waits_iff (sound : ∀ o ∈ s.objects, Sound finalization o)
    (runs : ∀ j, s.thread ≠ .waits j) (move : step finalization s l = some t) :
    (∃ j, t.thread = .waits j) ↔ ¬ Unguarded s l := by
  cases l with
  | claim i =>
    obtain ⟨o, here, running, rfl⟩ := calls_cases move
    have before := sound o (List.mem_of_getElem? here)
    have alive : o.ref ≠ none → o.inner = true := by
      intro held
      by_contra freed
      exact held (before.freed (Bool.eq_false_iff.mpr freed)).1
    rw [after_waits running, before.claim.2]
    simp only [Unguarded, here, Option.mem_some_iff, forall_eq']
    exact ⟨fun held => held.2, fun held => ⟨alive held, held⟩⟩
  | read i =>
    obtain ⟨o, here, running, rfl⟩ := calls_cases move
    rw [after_waits running]
    exact ⟨fun waits => absurd waits (read_returns o), fun outside => absurd trivial outside⟩
  | free i =>
    obtain ⟨o, here, running, rfl⟩ := calls_cases move
    rw [after_waits running]
    exact ⟨fun waits => absurd waits (free_returns o), fun outside => absurd trivial outside⟩
  | creates payload =>
    simp only [step, Option.ite_none_right_eq_some, Option.some.injEq] at move
    obtain ⟨_, rfl⟩ := move
    exact ⟨fun ⟨j, waits⟩ => absurd waits (runs j), fun outside => absurd trivial outside⟩
  | claimedElsewhere i =>
    simp only [step, State.claimedElsewhere, Option.bind_eq_bind, Option.bind_eq_some_iff,
      Option.ite_none_left_eq_some, Option.some.injEq] at move
    obtain ⟨o, here, _, rfl⟩ := move
    exact ⟨fun ⟨j, waits⟩ => absurd waits (runs j), fun outside => absurd trivial outside⟩
  | finalized i =>
    simp only [step, State.finalized, Option.bind_eq_bind, Option.bind_eq_some_iff,
      Option.ite_none_right_eq_some, Option.some.injEq] at move
    obtain ⟨o, here, _, rfl⟩ := move
    exact ⟨fun ⟨j, waits⟩ => absurd waits (runs j), fun outside => absurd trivial outside⟩

theorem runs_of_run (run : MessageRun finalization trace s) (meets : Meets Unguarded trace) :
    ∀ j, s.thread ≠ .waits j := by
  refine run_invariant (fun _ s => ∀ j, s.thread ≠ .waits j) ?_ ?_ run meets
  · rintro s rfl j waits
    cases waits
  · intro _ s l t before runs unguarded move j waits
    exact (waits_iff (sound_of_run before) runs move).mp ⟨j, waits⟩ unguarded

theorem Sound.safe {o : NextMessage} (sound : Sound finalization o) (freed : o.inner = false) :
    AllReleased o.message.peeked o.message.peekReleased ∧
      AllReleased o.message.claimed o.message.vecDestroyed ∧ o.message.destroyed = 1 ∧
      o.refRegistered = [] ∧ o.vecRegistered = [] ∧ o.messageRegistered = false := by
  obtain ⟨ref, handle⟩ := sound.freed freed
  have refs := sound.refs
  have vecs := sound.vecs
  have refRegistered := sound.refRegistered
  have vecRegistered := sound.vecRegistered
  have messageRegistered := sound.messageRegistered
  have destroyed := sound.destroyed
  rw [ref] at refs refRegistered
  rw [handle] at vecs vecRegistered
  rw [freed] at messageRegistered destroyed
  rw [registers_none] at refRegistered vecRegistered
  rw [Bool.and_false] at messageRegistered
  exact ⟨allReleased refs, allReleased vecs, destroyed, refRegistered, vecRegistered,
    messageRegistered⟩

theorem safe_of_run (run : MessageRun finalization trace s) (meets : Meets Unguarded trace) :
    Safe s := by
  have sound := sound_of_run run
  refine ⟨runs_of_run run meets, ?_, fun o member freed => (sound o member).safe freed⟩
  intro o member pointer
  exact ⟨count_released (sound o member).refs pointer, count_released (sound o member).vecs pointer⟩

/-- A NextMessage waits for itself exactly if claim() is called while it holds a guard; it
    leaks and frees nothing twice in any case. -/
theorem next_message_safe_iff (run : MessageRun finalization trace s) :
    Throughout (fun _ s => Safe s) trace s ↔ Meets Unguarded trace := by
  constructor
  · refine meets_of_throughout ?_ run
    intro trace s l t before meets move outside safe
    have sound := sound_of_run before
    obtain ⟨j, waits⟩ := (waits_iff sound (runs_of_run before meets) move).mpr outside
    exact safe.runs j waits
  · exact throughout_of_runs safe_of_run run

/-- Two messages: one is read and freed, the other claimed, claimed again and read. -/
theorem next_message_safe_two : ∃ trace s, MessageRun true trace s ∧
    (s.objects.map fun o => (o.message.peekReleased, o.message.vecDestroyed)) =
      [([0, 1], []), ([], [0])] ∧
    Throughout (fun _ s => Safe s) trace s := by
  obtain ⟨trace, s, run, released, unguarded⟩ :=
    execute_run (step true) .first
      [.creates (some [8]), .creates (some [6]), .read 0, .claim 1, .read 0, .claim 1, .read 1,
        .free 0, .free 1]
      (fun trace s => (s.objects.map fun o => (o.message.peekReleased, o.message.vecDestroyed)) =
        [([0, 1], []), ([], [0])] ∧ ∀ e ∈ trace, Unguarded e.1 e.2) (by decide +kernel)
  exact ⟨trace, s, run, released, (next_message_safe_iff run).mpr unguarded⟩

/-- read() has returned a view, and then the message is claimed. -/
theorem claim_after_read_waits : ∃ trace s, MessageRun true trace s ∧ s.thread = .waits 0 ∧
    ¬ Safe s := by
  obtain ⟨trace, s, run, waits⟩ :=
    execute_run (step true) .first [.creates (some [8]), .read 0, .claim 0]
      (fun _ s => s.thread = .waits 0) (by decide +kernel)
  exact ⟨trace, s, run, waits, fun safe => safe.runs 0 waits⟩

end Steps

end Deno
