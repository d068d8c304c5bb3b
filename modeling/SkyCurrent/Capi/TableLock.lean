import SkyCurrent.Capi.Steps

/- The lock of LMQ_WAIT_TASKS is held while a call waits for tasks: for room in the resume channel
   of a handler, for its end, or for the end of all tasks of a runtime. A task takes the same lock
   when its callback asks to deregister, or calls the C interface itself. -/
namespace Capi

open Runs

/-- What the call waits for with the table locked: a signal while there is one in the channel, an
    end in any case. -/
def Call.waitsFor (call : Call) (h : Nat) (handler : Handler) : Bool :=
  match call with
  | .sends d _ => d == h && handler.signal.isSome && !handler.task.isOver
  | .joins d => d == h && !handler.task.isOver
  | .drops rt _ => handler.runtime == rt && !handler.task.isOver
  | _ => false

def Call.wantsTable : Call → Bool
  | .inserts _ => true
  | .looksUp _ _ => true
  | .removes _ => true
  | _ => false

def State.wantsTable (s : State) (handler : Handler) : Bool :=
  match handler.task with
  | .deregisters => true
  | .inside c => s.calls[c]?.any Call.wantsTable
  | _ => false

/-- The call waits for a task, and the task for the table. -/
def TableDeadlock (s : State) : Prop :=
  ∃ call ∈ s.calls, ∃ h < s.calls.length, ∃ handler ∈ s.handlers h,
    call.waitsFor h handler = true ∧ s.wantsTable handler = true

def Awaited (s : State) (h : Nat) : Prop :=
  ∃ call ∈ s.calls, ∃ handler ∈ s.handlers h, call.waitsFor h handler = true

def Inside (s : State) (h c : Nat) : Prop :=
  ∃ handler ∈ s.handlers h, handler.task = .inside c

/-- No task comes to wait for the table while a call waits for it, and no call begins to wait for
    a task that waits for the table. -/
def TakesTurns (s : State) : Label → Prop
  | .task h (.returns .actionDeregister) => ¬ Awaited s h
  | .callsInside h (.resumes _ _) => ¬ Awaited s h
  | .goes c =>
    match s.calls[c]? with
    | some (.spawns _ _ _) => ∀ h < s.calls.length, Inside s h c → ¬ Awaited s h
    | some (.getsHandle _) => ∀ h < s.calls.length, Inside s h c → ¬ Awaited s h
    | some (.looksUp callbackId noBlock) =>
        s.inTask c = false → (ResumeMode.ofInt noBlock).isSome = true →
          ∀ h ∈ s.entry callbackId, ∀ handler ∈ s.handlers h,
            s.wantsTable handler = true → handler.signal = none
    | some (.removes callbackId) =>
        s.inTask c = false →
          ∀ h ∈ s.entry callbackId, ∀ handler ∈ s.handlers h, s.wantsTable handler = false
    | some (.checks _) =>
        s.inTask c = false → s.waitTasks = [] → ∀ rt ∈ s.tokioRt, ∀ h < s.calls.length,
          ∀ handler ∈ s.handlers h, handler.runtime = rt → s.wantsTable handler = false
    | _ => True
  | _ => True

instance (s : State) : Decidable (TableDeadlock s) :=
  inferInstanceAs (Decidable (∃ call ∈ s.calls, ∃ h < s.calls.length, ∃ handler ∈ s.handlers h,
    call.waitsFor h handler = true ∧ s.wantsTable handler = true))

instance (s : State) (h : Nat) : Decidable (Awaited s h) :=
  inferInstanceAs (Decidable (∃ call ∈ s.calls, ∃ handler ∈ s.handlers h,
    call.waitsFor h handler = true))

instance (s : State) (h c : Nat) : Decidable (Inside s h c) :=
  inferInstanceAs (Decidable (∃ handler ∈ s.handlers h, handler.task = .inside c))

instance (s : State) : DecidablePred (TakesTurns s) := by
  intro l
  unfold TakesTurns
  split
  · infer_instance
  · infer_instance
  · split <;> infer_instance
  · infer_instance

def Call.spawned : Call → Bool
  | .inserts _ => true
  | .registered _ => true
  | _ => false

def Task.outside : Task → Bool
  | .inside _ => false
  | .deregisters => false
  | _ => true

variable {s t u : State} {c h : Nat} {a b : Handler}

/-- One call at a time holds the table, a handler belongs to the registration that has spawned
    its task, and a callback is in a call that has been made. -/
structure Exclusive (s : State) : Prop where
  one : ∀ {i j : Nat} {a b : Call}, s.calls[i]? = some a → s.calls[j]? = some b →
    a.holdsTable = true → b.holdsTable = true → i = j
  spawned : ∀ {h : Nat}, s.handlers h ≠ none → ∃ call ∈ s.calls[h]?, call.spawned = true
  inside : ∀ {h c : Nat} {a : Handler}, s.handlers h = some a → a.task = .inside c →
    c < s.calls.length

section Waits

theorem holdsTable_of_waits {call : Call} (waits : call.waitsFor h a = true) :
    call.holdsTable = true := by
  cases call <;> first | rfl | cases waits

theorem not_waits_of_free (free : s.locked = false) {call : Call} (member : call ∈ s.calls) :
    call.waitsFor h a ≠ true :=
  fun waits => List.any_eq_false.mp free call member (holdsTable_of_waits waits)

theorem not_over_of_wants (wants : s.wantsTable a = true) : a.task.isOver = false := by
  unfold State.wantsTable at wants
  cases task : a.task <;> simp [task] at wants <;> rfl

theorem not_outside_of_wants (wants : s.wantsTable a = true) : a.task.outside = false := by
  unfold State.wantsTable at wants
  cases task : a.task <;> simp [task] at wants <;> rfl

theorem waitsFor_congr {call : Call} (signal : b.signal = a.signal)
    (runtime : b.runtime = a.runtime) (ended : b.task.isOver = a.task.isOver) :
    call.waitsFor h b = call.waitsFor h a := by
  cases call <;> simp [Call.waitsFor, signal, runtime, ended]

theorem wants_of_calls (calls : ∀ c < s.calls.length, t.calls[c]? = s.calls[c]?)
    (range : ∀ c, a.task = .inside c → c < s.calls.length) :
    t.wantsTable a = s.wantsTable a := by
  unfold State.wantsTable
  cases task : a.task with
  | inside d => simp only [calls d (range d task)]
  | _ => rfl

theorem wants_elsewhere {call : Call} (calls : u.calls = s.calls) (other : a.task ≠ .inside c) :
    (u.put c call).wantsTable a = s.wantsTable a := by
  unfold State.wantsTable
  cases task : a.task with
  | inside d =>
    have apart : c ≠ d := by
      rintro rfl
      exact other task
    simp only [State.put, List.getElem?_set_ne apart, calls]
  | _ => rfl

theorem wants_inside {before call : Call} (calls : u.calls = s.calls)
    (here : s.calls[c]? = some before) (inside : a.task = .inside c) :
    (u.put c call).wantsTable a = call.wantsTable := by
  obtain ⟨range, _⟩ := List.getElem?_eq_some_iff.mp here
  rw [← calls] at range
  simp [State.wantsTable, inside, State.put, range]

theorem not_inside_of_outside (exclusive : Exclusive s) (outside : s.inTask c = false)
    (here : s.handlers h = some a) : a.task ≠ .inside c := by
  intro inside
  obtain ⟨call, there, _⟩ := exclusive.spawned (h := h) (by rw [here]; simp)
  obtain ⟨range, _⟩ := List.getElem?_eq_some_iff.mp there
  have apart := List.any_eq_false.mp outside h (List.mem_range.mpr range)
  simp [here, inside] at apart

theorem range_of_handler (exclusive : Exclusive s) (here : s.handlers h = some a) :
    h < s.calls.length := by
  obtain ⟨call, there, _⟩ := exclusive.spawned (h := h) (by rw [here]; simp)
  obtain ⟨range, _⟩ := List.getElem?_eq_some_iff.mp there
  exact range

end Waits

section Kept

theorem Exclusive.put (exclusive : Exclusive s) {before call : Call}
    (here : s.calls[c]? = some before)
    (holds : call.holdsTable = true → before.holdsTable = true ∨ s.locked = false)
    (spawned : before.spawned = true → call.spawned = true) : Exclusive (s.put c call) where
  one := by
    have alone : call.holdsTable = true → ∀ {j b}, s.calls[j]? = some b → b.holdsTable = true →
        c = j := by
      intro now j b there holding
      rcases holds now with already | free
      · exact exclusive.one here there already holding
      · exact absurd holding (List.any_eq_false.mp free b (List.mem_of_getElem? there))
    intro i j a b first second holdsA holdsB
    rcases put_get first with ⟨rfl, rfl⟩ | ⟨_, thereA⟩
    · rcases put_get second with ⟨rfl, _⟩ | ⟨_, thereB⟩
      · rfl
      · exact alone holdsA thereB holdsB
    · rcases put_get second with ⟨rfl, rfl⟩ | ⟨_, thereB⟩
      · exact (alone holdsB thereA holdsA).symm
      · exact exclusive.one thereA thereB holdsA holdsB
  spawned := by
    intro d there
    obtain ⟨other, at_, done⟩ := exclusive.spawned there
    by_cases same : d = c
    · subst same
      obtain ⟨range, _⟩ := List.getElem?_eq_some_iff.mp here
      obtain rfl : before = other := Option.some.inj (here.symm.trans at_)
      exact ⟨call, List.getElem?_set_self range, spawned done⟩
    · exact ⟨other, (List.getElem?_set_ne (Ne.symm same)).trans at_, done⟩
  inside := by
    intro d e a there inside
    rw [State.put, List.length_set]
    exact exclusive.inside there inside

theorem Exclusive.handlers (exclusive : Exclusive s) (calls : t.calls = s.calls)
    (known : ∀ {h b}, t.handlers h = some b → ∃ a, s.handlers h = some a ∧
      ∀ c, b.task = .inside c → a.task = .inside c) : Exclusive t where
  one := by
    rw [calls]
    exact exclusive.one
  spawned := by
    intro h there
    obtain ⟨b, there⟩ := Option.ne_none_iff_exists'.mp there
    obtain ⟨a, here, _⟩ := known there
    rw [calls]
    exact exclusive.spawned (by rw [here]; simp)
  inside := by
    intro h c b there inside
    obtain ⟨a, here, before⟩ := known there
    rw [calls]
    exact exclusive.inside here (before c inside)

theorem Exclusive.update (exclusive : Exclusive s) (here : s.handlers h = some a)
    (inside : ∀ c, b.task = .inside c → a.task = .inside c) :
    Exclusive { s with handlers := Function.update s.handlers h (some b) } := by
  apply exclusive.handlers (t := { s with handlers := Function.update s.handlers h (some b) }) rfl
  intro d b' there
  rcases update_get there with ⟨rfl, rfl⟩ | ⟨_, there⟩
  · exact ⟨a, here, inside⟩
  · exact ⟨b', there, fun _ same => same⟩

theorem Exclusive.modify (exclusive : Exclusive s) (f : Handler → Handler)
    (inside : ∀ a c, (f a).task = .inside c → a.task = .inside c) :
    Exclusive (s.modify h f) := by
  unfold State.modify
  cases here : s.handlers h with
  | none =>
    rw [Option.map_none, ← here, Function.update_eq_self]
    exact exclusive
  | some a => exact exclusive.update here (inside a)

theorem Exclusive.calls (exclusive : Exclusive s) (start : Start) :
    Exclusive { s with calls := s.calls ++ [start.call] } where
  one := by
    have idle : start.call.holdsTable ≠ true := by
      cases start <;> exact Bool.false_ne_true
    intro i j a b first second holdsA holdsB
    rcases append_get first with thereA | rfl
    · rcases append_get second with thereB | rfl
      · exact exclusive.one thereA thereB holdsA holdsB
      · exact absurd holdsB idle
    · exact absurd holdsA idle
  spawned := by
    intro d there
    obtain ⟨call, at_, done⟩ := exclusive.spawned there
    obtain ⟨range, _⟩ := List.getElem?_eq_some_iff.mp at_
    exact ⟨call, (List.getElem?_append_left range).trans at_, done⟩
  inside := by
    intro d e a there inside
    have range := exclusive.inside there inside
    rw [List.length_append]
    omega

theorem Exclusive.goes (exclusive : Exclusive s) (move : Goes s c t) : Exclusive t := by
  have same : ∀ {u : State}, u.calls = s.calls → u.handlers = s.handlers → Exclusive u := by
    intro u calls handlers
    apply exclusive.handlers calls
    intro h b there
    rw [handlers] at there
    exact ⟨b, there, fun _ same => same⟩
  cases move with
  | getsId call here next =>
    have counted : Exclusive { s with nextCallbackId := s.nextCallbackId + 1 } := same rfl rfl
    rcases next with rfl | rfl
    · exact counted.put here (fun holds => nomatch holds) (fun done => nomatch done)
    · exact counted.put here (fun holds => nomatch holds) (fun done => nomatch done)
  | getsRuntime rt here provides free =>
    have built : Exclusive (s.withRt rt) := same rfl rfl
    exact built.put here (fun holds => nomatch holds) (fun done => nomatch done)
  | spawns here =>
    constructor
    · intro i j a b first second holdsA holdsB
      rcases put_get first with ⟨rfl, rfl⟩ | ⟨_, thereA⟩
      · cases holdsA
      · rcases put_get second with ⟨rfl, rfl⟩ | ⟨_, thereB⟩
        · cases holdsB
        · exact exclusive.one thereA thereB holdsA holdsB
    · intro d there
      by_cases self : d = c
      · subst self
        obtain ⟨range, _⟩ := List.getElem?_eq_some_iff.mp here
        exact ⟨_, List.getElem?_set_self range, rfl⟩
      · have before : s.handlers d ≠ none := by
          unfold State.spawns State.put at there
          simpa only [Function.update_of_ne self] using there
        obtain ⟨call, at_, done⟩ := exclusive.spawned before
        exact ⟨call, (List.getElem?_set_ne (Ne.symm self)).trans at_, done⟩
    · intro d e a there inside
      refine Nat.lt_of_lt_of_eq ?_ List.length_set.symm
      rcases update_get there with ⟨rfl, rfl⟩ | ⟨_, there⟩
      · simp only at inside
        split at inside <;> cases inside
      · exact exclusive.inside there inside
  | @inserts id here free new =>
    have listed : Exclusive { s with waitTasks := s.waitTasks ++ [(id, c)] } := same rfl rfl
    exact (listed.modify _ (by exact fun _ _ same => same)).put here (fun holds => nomatch holds)
      (fun _ => rfl)
  | unknown here entry =>
    exact exclusive.put here (fun holds => nomatch holds) (fun done => nomatch done)
  | looksUp here free entry valid outside =>
    exact exclusive.put here (fun _ => Or.inr free) (fun done => nomatch done)
  | fails here => exact exclusive.put here (fun holds => nomatch holds) (fun done => nomatch done)
  | sends here =>
    exact (exclusive.modify _ (by exact fun _ _ same => same)).put here (fun holds => nomatch holds)
      (fun done => nomatch done)
  | getsHandle rt here provides free =>
    have built : Exclusive (s.withRt rt) := same rfl rfl
    exact built.put here (fun holds => nomatch holds) (fun done => nomatch done)
  | missing here free entry =>
    exact exclusive.put here (fun _ => Or.inr free) (fun done => nomatch done)
  | @removes id h here free entry outside =>
    have removed : Exclusive { s with waitTasks := s.without id } := same rfl rfl
    exact (removed.modify _ (by exact fun _ _ same => same)).put here (fun _ => Or.inr free)
      (fun done => nomatch done)
  | joins here => exact exclusive.put here (fun _ => Or.inl rfl) (fun done => nomatch done)
  | shutsDown here empty runtime outside =>
    have dropped : Exclusive { s with tokioRt := none } := same rfl rfl
    exact dropped.put here (fun _ => Or.inl rfl) (fun done => nomatch done)
  | keeps here kept =>
    exact exclusive.put here (fun holds => nomatch holds) (fun done => nomatch done)
  | drops here => exact exclusive.put here (fun holds => nomatch holds) (fun done => nomatch done)
  | crashes here panics => exact same rfl rfl

theorem loops_outside (a : Handler) : a.loops.task.outside = true := by
  unfold Handler.loops
  split <;> rfl

theorem hears_outside (heard : a.hears = some b) : b.task.outside = true := by
  unfold Handler.hears at heard
  split at heard
  · cases heard
    exact loops_outside _
  · split at heard <;> cases heard
    rfl

theorem acts_cases {gone : Bool} {act : TaskAct} (move : a.acts gone act = some b) :
    act = .returns .actionDeregister ∧ a.task = .calling ∧ b = { a with task := .deregisters } ∨
      act ≠ .returns .actionDeregister ∧ b.task.outside = true := by
  unfold Handler.acts at move
  split at move
  · split at move
    · cases move
    · split at move <;> cases move
      · exact Or.inr ⟨nofun, rfl⟩
      · exact Or.inr ⟨nofun, loops_outside a⟩
  · cases move
    exact Or.inr ⟨nofun, rfl⟩
  · cases move
    exact Or.inr ⟨nofun, loops_outside a⟩
  · cases move
    exact Or.inr ⟨nofun, rfl⟩
  · rename_i calling
    cases move
    exact Or.inl ⟨rfl, calling, rfl⟩
  · exact Or.inr ⟨nofun, hears_outside move⟩
  · exact Or.inr ⟨nofun, hears_outside move⟩
  · cases move
  · cases move
  · cases move
  · cases move
  · split at move <;> cases move
    exact Or.inr ⟨nofun, rfl⟩
  · cases move

theorem deregistersItself_calls (move : s.deregistersItself h = some t) :
    t.calls = s.calls ∧ s.locked = false := by
  unfold State.deregistersItself at move
  split at move
  · cases move
  · split at move
    · rename_i guard
      simp only [Option.some.injEq] at move
      subst move
      refine ⟨?_, guard.2⟩
      simp only [State.modify, State.dropsSender]
      split <;> rfl
    · cases move

theorem Exclusive.step {l : Label} (exclusive : Exclusive s) (move : next s l = some t) :
    Exclusive t := by
  unfold next at move
  split at move
  · cases move
  · cases l with
    | calls start =>
      cases move
      exact exclusive.calls start
    | callsInside h start =>
      obtain ⟨a, here, calling, rfl⟩ := callsInside_some move
      have called := exclusive.calls start
      refine ⟨called.one, ?_, ?_⟩
      · intro d there
        obtain ⟨b, there⟩ := Option.ne_none_iff_exists'.mp there
        rcases update_get there with ⟨rfl, _⟩ | ⟨_, there⟩
        · exact called.spawned (fun none_ => nomatch here.symm.trans none_)
        · exact called.spawned (fun none_ => nomatch there.symm.trans none_)
      · intro d e b there inside
        rcases update_get there with ⟨rfl, rfl⟩ | ⟨_, there⟩
        · cases inside
          simp
        · exact called.inside there inside
    | comesBack h =>
      obtain ⟨a, c, here, _, _, rfl⟩ := comesBack_some move
      exact exclusive.update here (fun _ inside => nomatch inside)
    | goes c => exact exclusive.goes (goes_cases move)
    | task h act =>
      simp only [State.task, Option.bind_eq_bind, Option.bind_eq_some_iff,
        Option.some.injEq] at move
      obtain ⟨a, here, b, acts, rfl⟩ := move
      apply exclusive.update here
      intro c inside
      rcases acts_cases acts with ⟨_, _, rfl⟩ | ⟨_, outside⟩
      · cases inside
      · rw [inside] at outside
        cases outside
    | deregistersItself h =>
      simp only [State.deregistersItself] at move
      split at move
      · cases move
      · rename_i a _
        split at move
        · have released : Exclusive (s.dropsSender (s.entry a.callbackId)) := by
            cases s.entry a.callbackId with
            | none => exact exclusive
            | some other => exact exclusive.modify _ fun _ _ same => same
          cases move
          apply Exclusive.modify
          · exact ⟨released.one, released.spawned, released.inside⟩
          · exact fun _ _ inside => nomatch inside
        · cases move

theorem exclusive_of_run {trace : List (State × Label)} (run : Runs trace s) : Exclusive s := by
  induction run with
  | nil first =>
    subst first
    constructor
    · intro i j a b there
      cases there
    · intro d there
      exact absurd rfl there
    · intro d e a there
      cases there
  | snoc before move ih => exact ih.step move

end Kept

section Begins

theorem mem_of_put {call other : Call} (calls : u.calls = s.calls)
    (member : other ∈ (u.put c call).calls) : other = call ∨ other ∈ s.calls := by
  rcases List.mem_or_eq_of_mem_set member with before | now
  · exact Or.inr (calls ▸ before)
  · exact Or.inl now

def Alone (s : State) (call : Call) : Prop :=
  ∀ other ∈ s.calls, other = call ∨ other.holdsTable = false

theorem alone_of_free {call : Call} (calls : u.calls = s.calls) (free : s.locked = false) :
    Alone (u.put c call) call := by
  intro other member
  rcases mem_of_put calls member with now | before
  · exact Or.inl now
  · exact Or.inr (Bool.eq_false_iff.mpr (List.any_eq_false.mp free other before))

theorem alone_of_holder (exclusive : Exclusive s) {before call : Call} (calls : u.calls = s.calls)
    (here : s.calls[c]? = some before) (holds : before.holdsTable = true) :
    Alone (u.put c call) call := by
  intro other member
  obtain ⟨d, at_⟩ := List.mem_iff_getElem?.mp member
  rcases put_get at_ with ⟨_, now⟩ | ⟨apart, there⟩
  · exact Or.inl now
  · rw [calls] at there
    refine Or.inr (Bool.eq_false_iff.mpr fun holding => apart ?_)
    exact exclusive.one there here holding holds

theorem not_deadlock_of_alone {call : Call} (alone : Alone s call)
    (quiet : ∀ h a, call.waitsFor h a = false) : ¬ TableDeadlock s := by
  rintro ⟨other, member, h, _, a, _, waits, _⟩
  rcases alone other member with rfl | free
  · rw [quiet h a] at waits
    cases waits
  · rw [holdsTable_of_waits waits] at free
    cases free

theorem deadlock_of_alone {before call : Call} (calls : u.calls = s.calls)
    (here : s.calls[c]? = some before) (alone : Alone (u.put c call) call)
    (outside : ∀ {h a}, u.handlers h = some a → a.task ≠ .inside c) :
    TableDeadlock (u.put c call) ↔ ∃ h < s.calls.length, ∃ a ∈ u.handlers h,
      call.waitsFor h a = true ∧ s.wantsTable a = true := by
  have length : (u.put c call).calls.length = s.calls.length := by
    rw [State.put, List.length_set, calls]
  constructor
  · rintro ⟨other, member, h, range, a, there, waits, wants⟩
    rw [length] at range
    rw [wants_elsewhere calls (outside there)] at wants
    rcases alone other member with rfl | free
    · exact ⟨h, range, a, there, waits, wants⟩
    · rw [holdsTable_of_waits waits] at free
      cases free
  · rintro ⟨h, range, a, there, waits, wants⟩
    obtain ⟨inside, _⟩ := List.getElem?_eq_some_iff.mp here
    rw [← calls] at inside
    refine ⟨call, List.mem_set inside call, h, length ▸ range, a, there, waits, ?_⟩
    rwa [wants_elsewhere calls (outside there)]

theorem deadlock_of_quiet (none_ : ¬ TableDeadlock s) {before call : Call}
    (calls : u.calls = s.calls) (here : s.calls[c]? = some before)
    (idle : before.holdsTable = false) (quiet : call.holdsTable = false)
    (kept : ∀ {h a}, s.handlers h = some a → u.handlers h = some a)
    (known : ∀ {h a}, u.handlers h = some a → a.task.outside = false → s.handlers h = some a) :
    TableDeadlock (u.put c call) ↔
      call.wantsTable = true ∧ ∃ h < s.calls.length, Inside s h c ∧ Awaited s h := by
  have length : (u.put c call).calls.length = s.calls.length := by
    rw [State.put, List.length_set, calls]
  constructor
  · rintro ⟨other, member, h, range, a, there, waits, wants⟩
    rw [length] at range
    have there := known there (not_outside_of_wants wants)
    have earlier : other ∈ s.calls := by
      rcases mem_of_put calls member with rfl | earlier
      · rw [holdsTable_of_waits waits] at quiet
        cases quiet
      · exact earlier
    by_cases inside : a.task = .inside c
    · rw [wants_inside calls here inside] at wants
      exact ⟨wants, h, range, ⟨a, there, inside⟩, other, earlier, a, there, waits⟩
    · rw [wants_elsewhere calls inside] at wants
      exact absurd ⟨other, earlier, h, range, a, there, waits, wants⟩ none_
  · rintro ⟨wants, h, range, ⟨a, there, inside⟩, other, member, b, same, waits⟩
    obtain rfl : a = b := Option.some.inj (there.symm.trans same)
    obtain ⟨i, at_⟩ := List.mem_iff_getElem?.mp member
    have apart : c ≠ i := by
      rintro rfl
      obtain rfl : before = other := Option.some.inj (here.symm.trans at_)
      rw [holdsTable_of_waits waits] at idle
      cases idle
    have still : (u.put c call).calls[i]? = some other :=
      (List.getElem?_set_ne apart).trans (calls ▸ at_)
    refine ⟨other, List.mem_of_getElem? still, h, length ▸ range, a, kept there, waits, ?_⟩
    rwa [wants_inside calls here inside]

end Begins

section Steps

theorem deadlock_goes (exclusive : Exclusive s) (none_ : ¬ TableDeadlock s) (move : Goes s c t) :
    TableDeadlock t ↔ ¬ TakesTurns s (.goes c) := by
  have harmless : ∀ {t : State}, ¬ TableDeadlock t → TakesTurns s (.goes c) →
      (TableDeadlock t ↔ ¬ TakesTurns s (.goes c)) :=
    fun no turns => iff_of_false no (not_not.mpr turns)
  have later : ∀ {u : State} {before call : Call}, u.calls = s.calls → u.handlers = s.handlers →
      s.calls[c]? = some before → before.holdsTable = false → call.holdsTable = false →
        call.wantsTable = false → ¬ TableDeadlock (u.put c call) := by
    intro u before call calls handlers here idle quiet unwanted deadlock
    have wants := ((deadlock_of_quiet none_ calls here idle quiet
      (fun there => by rwa [handlers]) (fun there _ => by rwa [handlers] at there)).mp deadlock).1
    rw [unwanted] at wants
    cases wants
  cases move with
  | getsId call here next =>
    have turns : TakesTurns s (.goes c) := by simp [TakesTurns, here]
    rcases next with rfl | rfl
    · exact harmless (later rfl rfl here rfl rfl rfl) turns
    · exact harmless (later rfl rfl here rfl rfl rfl) turns
  | getsRuntime rt here provides free =>
    exact harmless (later rfl rfl here rfl rfl rfl) (by simp [TakesTurns, here])
  | spawns here =>
    have new : s.handlers c = none := by
      by_contra there
      obtain ⟨call, at_, done⟩ := exclusive.spawned there
      rw [here] at at_
      cases at_
      cases done
    refine Iff.trans (deadlock_of_quiet none_ rfl here rfl rfl ?_ ?_) ?_
    · intro h a there
      have apart : h ≠ c := by
        rintro rfl
        rw [new] at there
        cases there
      exact (Function.update_of_ne apart ..).trans there
    · intro h a there within
      rcases update_get there with ⟨_, rfl⟩ | ⟨_, there⟩
      · simp only at within
        split at within <;> cases within
      · exact there
    · simp [TakesTurns, here, Call.wantsTable]
  | inserts here free new =>
    exact harmless (not_deadlock_of_alone (alone_of_free rfl free) fun _ _ => rfl)
      (by simp [TakesTurns, here])
  | unknown here entry =>
    exact harmless (later rfl rfl here rfl rfl rfl) (by simp [TakesTurns, here, entry])
  | @looksUp _ _ _ h here free entry valid outside =>
    have apart : ∀ {h a}, s.handlers h = some a → a.task ≠ .inside c :=
      fun there => not_inside_of_outside exclusive outside there
    rw [deadlock_of_alone rfl here (alone_of_free rfl free) apart]
    simp only [TakesTurns, here, valid, entry, outside, Option.isSome_some, Option.mem_def,
      Option.some.injEq, forall_eq', Classical.not_imp, not_forall, true_implies]
    constructor
    · rintro ⟨d, _, a, there, waits, wants⟩
      simp only [Call.waitsFor, Bool.and_eq_true, beq_iff_eq, Option.isSome_iff_ne_none] at waits
      obtain ⟨⟨rfl, signal⟩, _⟩ := waits
      exact ⟨a, there, wants, signal⟩
    · rintro ⟨a, there, wants, signal⟩
      refine ⟨h, range_of_handler exclusive there, a, there, ?_, wants⟩
      simp [Call.waitsFor, not_over_of_wants wants, Option.isSome_iff_ne_none, signal]
  | fails here =>
    exact harmless (not_deadlock_of_alone (alone_of_holder exclusive rfl here rfl) fun _ _ => rfl)
      (by simp [TakesTurns, here])
  | sends here =>
    exact harmless (not_deadlock_of_alone (alone_of_holder exclusive rfl here rfl) fun _ _ => rfl)
      (by simp [TakesTurns, here])
  | getsHandle rt here provides free =>
    refine Iff.trans (deadlock_of_quiet none_ rfl here rfl rfl id fun there _ => there) ?_
    simp [TakesTurns, here, Call.wantsTable]
  | missing here free entry =>
    exact harmless (not_deadlock_of_alone (alone_of_free rfl free) fun _ _ => rfl)
      (by simp [TakesTurns, here, entry])
  | @removes id h here free entry outside =>
    have apart : ∀ {d a}, (s.modify h fun handler =>
        { handler with aborted := true, deregistered := true }).handlers d = some a →
          a.task ≠ .inside c := by
      intro d a there
      by_cases same : d = h
      · subst same
        rw [modify_self] at there
        obtain ⟨b, before, rfl⟩ := Option.map_eq_some_iff.mp there
        exact fun inside => not_inside_of_outside exclusive outside before inside
      · rw [modify_other _ same] at there
        exact not_inside_of_outside exclusive outside there
    refine Iff.trans (deadlock_of_alone rfl here (alone_of_free rfl free) apart) ?_
    simp only [TakesTurns, here, entry, outside, Option.mem_def, Option.some.injEq, forall_eq',
      not_forall, Bool.not_eq_false, true_implies]
    constructor
    · rintro ⟨d, _, a, there, waits, wants⟩
      simp only [Call.waitsFor, Bool.and_eq_true, beq_iff_eq] at waits
      obtain ⟨rfl, _⟩ := waits
      obtain ⟨b, before, rfl⟩ := Option.map_eq_some_iff.mp ((modify_self _).symm.trans there)
      exact ⟨b, before, wants⟩
    · rintro ⟨a, there, wants⟩
      have range := range_of_handler exclusive there
      refine ⟨h, range, _, (modify_self _).trans
        (Option.map_eq_some_iff.mpr ⟨a, there, rfl⟩), ?_, wants⟩
      simp [Call.waitsFor, not_over_of_wants wants]
  | joins here =>
    exact harmless (not_deadlock_of_alone (alone_of_holder exclusive rfl here rfl) fun _ _ => rfl)
      (by simp [TakesTurns, here])
  | @shutsDown _ rt here empty runtime outside =>
    have apart : ∀ {h a}, s.handlers h = some a → a.task ≠ .inside c :=
      fun there => not_inside_of_outside exclusive outside there
    refine Iff.trans (deadlock_of_alone rfl here (alone_of_holder exclusive rfl here rfl) apart) ?_
    simp only [TakesTurns, here, empty, runtime, outside, Option.mem_def, Option.some.injEq,
      forall_eq', not_forall, Bool.not_eq_false, true_implies]
    constructor
    · rintro ⟨d, range, a, there, waits, wants⟩
      simp only [Call.waitsFor, Bool.and_eq_true, beq_iff_eq] at waits
      exact ⟨d, range, a, there, waits.1, wants⟩
    · rintro ⟨d, range, a, there, same, wants⟩
      refine ⟨d, range, a, there, ?_, wants⟩
      simp [Call.waitsFor, same, not_over_of_wants wants]
  | keeps here kept =>
    refine harmless (not_deadlock_of_alone (alone_of_holder exclusive rfl here rfl) fun _ _ => rfl)
      ?_
    simp only [TakesTurns, here]
    intro _ empty rt runtime
    exact absurd runtime (kept rt empty)
  | drops here =>
    exact harmless (not_deadlock_of_alone (alone_of_holder exclusive rfl here rfl) fun _ _ => rfl)
      (by simp [TakesTurns, here])
  | @crashes call here panics =>
    refine harmless none_ ?_
    simp only [TakesTurns, here]
    cases call with
    | looksUp id noBlock =>
      intro outside valid
      rcases panics with inside | invalid
      · exact absurd inside (Bool.eq_false_iff.mp outside)
      · rw [invalid] at valid
        cases valid
    | removes id => exact fun outside => absurd panics (Bool.eq_false_iff.mp outside)
    | checks foundHandler => exact fun outside => absurd panics (Bool.eq_false_iff.mp outside)
    | spawns startPaused id rt => exact panics.elim
    | getsHandle id => exact panics.elim
    | _ => trivial

end Steps

section Acts

theorem mem_of_calls {start : Start} {call : Call} (waits : call.waitsFor h a = true)
    (member : call ∈ s.calls ++ [start.call]) : call ∈ s.calls := by
  rcases List.mem_append.mp member with before | new
  · exact before
  · rw [List.mem_singleton.mp new] at waits
    cases start <;> cases waits

theorem deadlock_calls (exclusive : Exclusive s) (none_ : ¬ TableDeadlock s) (start : Start) :
    ¬ TableDeadlock { s with calls := s.calls ++ [start.call] } := by
  rintro ⟨call, member, h, _, a, here, waits, wants⟩
  refine none_ ⟨call, mem_of_calls waits member, h, range_of_handler exclusive here, a, here,
    waits, ?_⟩
  rw [← wants]
  exact (wants_of_calls (fun c range => List.getElem?_append_left range)
    (fun c inside => exclusive.inside here inside)).symm

theorem wants_appended {call : Call} (calls : t.calls = s.calls ++ [call])
    (inside : b.task = .inside s.calls.length) : t.wantsTable b = call.wantsTable := by
  simp [State.wantsTable, inside, calls]

theorem deadlock_callsInside (exclusive : Exclusive s) (none_ : ¬ TableDeadlock s) {start : Start}
    (move : s.callsInside h start = some t) :
    TableDeadlock t ↔ ¬ TakesTurns s (.callsInside h start) := by
  obtain ⟨a, here, calling, rfl⟩ := callsInside_some move
  have resumes : (∃ callbackId noBlock, start = .resumes callbackId noBlock) ↔
      start.call.wantsTable = true := by
    cases start <;> simp [Start.call, Call.wantsTable]
  have turns : ¬ TakesTurns s (.callsInside h start) ↔
      start.call.wantsTable = true ∧ Awaited s h := by
    rw [← resumes]
    cases start <;> simp [TakesTurns]
  have same : ∀ call : Call, call.waitsFor h { a with task := .inside s.calls.length } =
      call.waitsFor h a := fun call => waitsFor_congr rfl rfl (by rw [calling]; rfl)
  rw [turns]
  constructor
  · rintro ⟨call, member, d, range, b, there, waits, wants⟩
    have earlier := mem_of_calls waits member
    rcases update_get there with ⟨rfl, rfl⟩ | ⟨_, there⟩
    · have wants := (wants_appended (s := s) rfl rfl).symm.trans wants
      exact ⟨wants, call, earlier, a, here, (same call).symm.trans waits⟩
    · refine absurd ⟨call, earlier, d, range_of_handler exclusive there, b, there, waits, ?_⟩ none_
      rw [← wants]
      exact (wants_of_calls (fun c range => List.getElem?_append_left range)
        (fun c inside => exclusive.inside there inside)).symm
  · rintro ⟨wants, call, member, b, there, waits⟩
    obtain rfl : a = b := Option.some.inj (here.symm.trans there)
    refine ⟨call, List.mem_append.mpr (Or.inl member), h, ?_, _, Function.update_self ..,
      (same call).trans waits, ?_⟩
    · rw [List.length_append]
      exact Nat.lt_add_right _ (range_of_handler exclusive here)
    · exact (wants_appended (s := s) rfl rfl).trans wants

theorem deadlock_update (none_ : ¬ TableDeadlock s) (outside : b.task.outside = true) :
    ¬ TableDeadlock { s with handlers := Function.update s.handlers h (some b) } := by
  rintro ⟨call, member, d, range, a, there, waits, wants⟩
  rcases update_get there with ⟨rfl, rfl⟩ | ⟨_, there⟩
  · rw [not_outside_of_wants wants] at outside
    cases outside
  · exact none_ ⟨call, member, d, range, a, there, waits, wants⟩

theorem deadlock_task (exclusive : Exclusive s) (none_ : ¬ TableDeadlock s) {act : TaskAct}
    (move : s.task h act = some t) : TableDeadlock t ↔ ¬ TakesTurns s (.task h act) := by
  simp only [State.task, Option.bind_eq_bind, Option.bind_eq_some_iff, Option.some.injEq] at move
  obtain ⟨a, here, b, acts, rfl⟩ := move
  rcases acts_cases acts with ⟨rfl, calling, rfl⟩ | ⟨other, outside⟩
  · have same : ∀ call : Call, call.waitsFor h { a with task := .deregisters } =
        call.waitsFor h a := fun call => waitsFor_congr rfl rfl (by rw [calling]; rfl)
    simp only [TakesTurns, not_not]
    constructor
    · rintro ⟨call, member, d, range, b, there, waits, wants⟩
      rcases update_get there with ⟨rfl, rfl⟩ | ⟨_, there⟩
      · exact ⟨call, member, a, here, (same call).symm.trans waits⟩
      · exact absurd ⟨call, member, d, range, b, there, waits, wants⟩ none_
    · rintro ⟨call, member, b, there, waits⟩
      obtain rfl : a = b := Option.some.inj (here.symm.trans there)
      have range := range_of_handler exclusive here
      exact ⟨call, member, h, range, _, Function.update_self .., (same call).trans waits, rfl⟩
  · refine iff_of_false (deadlock_update none_ outside) (not_not.mpr ?_)
    unfold TakesTurns
    split
    · rename_i same
      cases same
      exact absurd rfl other
    · rename_i same
      cases same
    · rename_i same
      cases same
    · trivial

theorem deadlock_step {l : Label} (exclusive : Exclusive s) (none_ : ¬ TableDeadlock s)
    (move : next s l = some t) : TableDeadlock t ↔ ¬ TakesTurns s l := by
  unfold next at move
  split at move
  · cases move
  · cases l with
    | calls start =>
      cases move
      exact iff_of_false (deadlock_calls exclusive none_ start) (not_not.mpr trivial)
    | callsInside h start => exact deadlock_callsInside exclusive none_ move
    | comesBack h =>
      obtain ⟨a, c, here, _, _, rfl⟩ := comesBack_some move
      exact iff_of_false (deadlock_update none_ rfl) (not_not.mpr trivial)
    | goes c => exact deadlock_goes exclusive none_ (goes_cases move)
    | task h act => exact deadlock_task exclusive none_ move
    | deregistersItself h =>
      obtain ⟨calls, unlocked⟩ := deregistersItself_calls move
      refine iff_of_false ?_ (not_not.mpr trivial)
      rintro ⟨call, member, d, _, a, _, waits, _⟩
      rw [calls] at member
      exact not_waits_of_free unlocked member waits

end Acts

section Lasts

theorem acts_none {gone : Bool} (act : TaskAct) (within : a.task.outside = false) :
    a.acts gone act = none := by
  cases task : a.task with
  | inside c =>
    cases act with
    | returns action => cases action <;> simp [Handler.acts, task]
    | _ => simp [Handler.acts, task]
  | deregisters =>
    cases act with
    | returns action => cases action <;> simp [Handler.acts, task]
    | _ => simp [Handler.acts, task]
  | _ =>
    rw [task] at within
    cases within

theorem goes_none {call : Call} (there : s.calls[c]? = some call) (range : h < s.calls.length)
    (here : s.handlers h = some a) (waits : call.waitsFor h a = true) : s.goes c = none := by
  cases call with
  | sends d mode =>
    simp only [Call.waitsFor, Bool.and_eq_true, beq_iff_eq, Bool.not_eq_true',
      Option.isSome_iff_exists] at waits
    obtain ⟨⟨rfl, mode', signal⟩, alive⟩ := waits
    simp [State.goes, there, State.sends, here, alive, signal]
  | joins d =>
    simp only [Call.waitsFor, Bool.and_eq_true, beq_iff_eq, Bool.not_eq_true'] at waits
    obtain ⟨rfl, alive⟩ := waits
    simp only [State.goes, there, State.joins, here, Option.map_some]
    split
    · rename_i ended
      rw [Option.some.inj ended] at alive
      cases alive
    · rename_i ended
      rw [Option.some.inj ended] at alive
      cases alive
    · rfl
  | drops rt found =>
    simp only [Call.waitsFor, Bool.and_eq_true, beq_iff_eq, Bool.not_eq_true'] at waits
    obtain ⟨rfl, alive⟩ := waits
    have busy : s.idle a.runtime = false := by
      rw [State.idle, List.all_eq_false]
      exact ⟨h, List.mem_range.mpr range, by simp [here, alive]⟩
    simp [State.goes, there, busy]
  | _ => cases waits

theorem not_returned_of_wants {call : Call} (wants : call.wantsTable = true) :
    call.returned = false := by
  cases call <;> first | rfl | cases wants

theorem goes_none_of_locked {call : Call} (there : s.calls[c]? = some call)
    (wants : call.wantsTable = true) (locked : s.locked = true) : s.goes c = none := by
  cases call with
  | inserts id => simp [State.goes, there, State.inserts, locked]
  | looksUp id noBlock => simp [State.goes, there, State.looksUp, locked]
  | removes id => simp [State.goes, there, State.removes, locked]
  | _ => cases wants

/-- Nobody gets out of the deadlock. -/
theorem TableDeadlock.lasts {l : Label} (exclusive : Exclusive s) (deadlock : TableDeadlock s)
    (move : next s l = some t) : TableDeadlock t := by
  obtain ⟨call, member, h, range, a, here, waits, wants⟩ := deadlock
  obtain ⟨i, there⟩ := List.mem_iff_getElem?.mp member
  have locked : s.locked = true := List.any_eq_true.mpr ⟨call, member, holdsTable_of_waits waits⟩
  have busy : s.locked ≠ false := by simp [locked]
  have within := not_outside_of_wants wants
  unfold next at move
  split at move
  · cases move
  · cases l with
    | calls start =>
      cases move
      refine ⟨call, List.mem_append.mpr (Or.inl member), h, ?_, a, here, waits, ?_⟩
      · rw [List.length_append]
        exact Nat.lt_add_right _ range
      · rw [← wants]
        exact wants_of_calls (fun c range => List.getElem?_append_left range)
          (fun c inside => exclusive.inside here inside)
    | callsInside d start =>
      obtain ⟨b, there', calling, rfl⟩ := callsInside_some move
      have other : h ≠ d := by
        rintro rfl
        obtain rfl : a = b := Option.some.inj (here.symm.trans there')
        rw [calling] at within
        cases within
      refine ⟨call, List.mem_append.mpr (Or.inl member), h, ?_, a,
        (Function.update_of_ne other ..).trans here, waits, ?_⟩
      · rw [List.length_append]
        exact Nat.lt_add_right _ range
      · rw [← wants]
        exact wants_of_calls (fun c range => List.getElem?_append_left range)
          (fun c inside => exclusive.inside here inside)
    | comesBack d =>
      obtain ⟨b, c, there', inside, back, rfl⟩ := comesBack_some move
      have other : h ≠ d := by
        rintro rfl
        obtain rfl : a = b := Option.some.inj (here.symm.trans there')
        simp only [State.wantsTable, inside] at wants
        cases at_ : s.calls[c]? with
        | none => simp [at_] at wants
        | some call' =>
          rw [at_] at wants back
          exact absurd back (Bool.eq_false_iff.mp (not_returned_of_wants wants))
      exact ⟨call, member, h, range, a, (Function.update_of_ne other ..).trans here, waits, wants⟩
    | goes c =>
      have apart : c ≠ i := by
        rintro rfl
        simp only [goes_none there range here waits] at move
        cases move
      have elsewhere : a.task ≠ .inside c := by
        intro inside
        simp only [State.wantsTable, inside] at wants
        cases at_ : s.calls[c]? with
        | none =>
          rw [at_] at wants
          cases wants
        | some call' =>
          rw [at_] at wants
          simp only [goes_none_of_locked at_ wants locked] at move
          cases move
      have kept : ∀ {u : State} {other : Call} {b : Handler}, u.calls = s.calls →
          u.handlers h = some b → b.signal = a.signal → b.runtime = a.runtime → b.task = a.task →
            TableDeadlock (u.put c other) := by
        intro u other b calls there' signal runtime task
        have still : (u.put c other).calls[i]? = some call :=
          (List.getElem?_set_ne apart).trans (calls ▸ there)
        refine ⟨call, List.mem_of_getElem? still, h, ?_, b, there', ?_, ?_⟩
        · rwa [State.put, List.length_set, calls]
        · rwa [waitsFor_congr signal runtime (by rw [task])]
        · rw [wants_elsewhere calls (task ▸ elsewhere)]
          simpa only [State.wantsTable, task] using wants
      have holder : ∀ {before : Call}, s.calls[c]? = some before → before.holdsTable ≠ true :=
        fun at_ holds => apart (exclusive.one at_ there holds (holdsTable_of_waits waits))
      cases goes_cases move with
      | getsId other at_ next =>
        rcases next with rfl | rfl
        · exact kept rfl here rfl rfl rfl
        · exact kept rfl here rfl rfl rfl
      | getsRuntime rt at_ provides free => exact kept rfl here rfl rfl rfl
      | spawns at_ =>
        have other : h ≠ c := by
          rintro rfl
          obtain ⟨registration, there', done⟩ := exclusive.spawned (h := h) (by rw [here]; simp)
          rw [at_] at there'
          cases there'
          cases done
        exact kept rfl ((Function.update_of_ne other ..).trans here) rfl rfl rfl
      | inserts at_ free new => exact absurd free busy
      | unknown at_ entry => exact kept rfl here rfl rfl rfl
      | looksUp at_ free entry valid outside => exact absurd free busy
      | fails at_ => exact absurd rfl (holder at_)
      | sends at_ => exact absurd rfl (holder at_)
      | getsHandle rt at_ provides free => exact kept rfl here rfl rfl rfl
      | missing at_ free entry => exact absurd free busy
      | removes at_ free entry outside => exact absurd free busy
      | joins at_ => exact absurd rfl (holder at_)
      | shutsDown at_ empty runtime outside => exact absurd rfl (holder at_)
      | keeps at_ none_ => exact absurd rfl (holder at_)
      | drops at_ => exact absurd rfl (holder at_)
      | crashes at_ panics => exact ⟨call, member, h, range, a, here, waits, wants⟩
    | task d act =>
      simp only [State.task, Option.bind_eq_bind, Option.bind_eq_some_iff,
        Option.some.injEq] at move
      obtain ⟨b, there', b', acts, rfl⟩ := move
      have other : h ≠ d := by
        rintro rfl
        obtain rfl : a = b := Option.some.inj (here.symm.trans there')
        rw [acts_none act within] at acts
        cases acts
      exact ⟨call, member, h, range, a, (Function.update_of_ne other ..).trans here, waits, wants⟩
    | deregistersItself d => exact absurd (deregistersItself_calls move).2 busy

end Lasts

/-- The table cannot deadlock as long as the calls and the callbacks take turns, and the first
    step out of turn is one into a deadlock. -/
theorem no_table_deadlock_iff {trace : List (State × Label)} (run : Runs trace s) :
    Throughout (fun _ s => ¬ TableDeadlock s) trace s ↔ Meets TakesTurns trace := by
  have forward : ∀ {trace s}, Runs trace s → Meets TakesTurns trace → ¬ TableDeadlock s := by
    intro trace s run turns
    refine run_invariant (fun _ s => ¬ TableDeadlock s) ?_ ?_ run turns
    · rintro s rfl ⟨call, member, _⟩
      cases member
    · intro trace s l t run free turns move deadlock
      exact (deadlock_step (exclusive_of_run run) free move).mp deadlock turns
  constructor
  · intro holds
    refine meets_of_throughout ?_ run holds
    intro trace s l t run turns move out free
    exact free ((deadlock_step (exclusive_of_run run) (forward run turns) move).mpr out)
  · intro turns
    exact throughout_of_runs forward run turns

def callsBack : List Label :=
  [.calls (.registers false), .goes 0, .goes 0, .goes 0, .goes 0, .task 0 .polls, .task 0 .message]

/-- The handler pauses, is resumed and then deregisters itself. -/
theorem no_table_deadlock_resumed : ∃ trace s, Runs trace s ∧
    Throughout (fun _ s => ¬ TableDeadlock s) trace s ∧ s.waitTasks = [] ∧
      s.calls = [.registered 1, .resumed 0] := by
  obtain ⟨trace, s, run, turns, empty, calls⟩ := execute_run next init
    (callsBack ++ [.task 0 (.returns .actionPause), .calls (.resumes 1 0), .goes 1, .goes 1,
      .task 0 .hears, .task 0 .message, .task 0 (.returns .actionDeregister),
      .deregistersItself 0])
    (fun trace s => (∀ e ∈ trace, TakesTurns e.1 e.2) ∧ s.waitTasks = [] ∧
      s.calls = [.registered 1, .resumed 0]) (by decide +kernel)
  exact ⟨trace, s, run, (no_table_deadlock_iff run).mpr turns, empty, calls⟩

/-- The handler runs, is resumed twice, and its callback asks to deregister. -/
theorem table_deadlock : ∃ trace s, Runs trace s ∧ TableDeadlock s :=
  execute_run next init
    (callsBack ++ [.calls (.resumes 1 0), .goes 1, .goes 1, .calls (.resumes 1 0), .goes 2,
      .task 0 (.returns .actionDeregister)])
    (fun _ s => TableDeadlock s) (by decide +kernel)

/-- The callback asks to deregister while the handler is deregistered. -/
theorem table_deadlock_joined : ∃ trace s, Runs trace s ∧ TableDeadlock s :=
  execute_run next init
    (callsBack ++ [.calls (.deregisters 1), .goes 1, .goes 1,
      .task 0 (.returns .actionDeregister)])
    (fun _ s => TableDeadlock s) (by decide +kernel)

/-- The callback registers a handler of its own meanwhile. -/
theorem table_deadlock_inside : ∃ trace s, Runs trace s ∧ TableDeadlock s :=
  execute_run next init
    (callsBack ++ [.calls (.deregisters 1), .goes 1, .goes 1, .callsInside 0 (.registers false),
      .goes 2, .goes 2, .goes 2])
    (fun _ s => TableDeadlock s) (by decide +kernel)

/-- A handler that is not in the table yet asks to deregister while an unknown one is
    deregistered, which drops the runtime. -/
theorem table_deadlock_dropped : ∃ trace s, Runs trace s ∧ TableDeadlock s :=
  execute_run next init
    [.calls (.registers false), .goes 0, .goes 0, .goes 0, .task 0 .polls, .task 0 .message,
      .calls (.deregisters 2), .goes 1, .goes 1, .goes 1, .task 0 (.returns .actionDeregister)]
    (fun _ s => TableDeadlock s) (by decide +kernel)

end Capi
