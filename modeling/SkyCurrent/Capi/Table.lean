import SkyCurrent.Capi.Steps

/- Whether LMQ_WAIT_TASKS lists exactly the handlers whose tasks run. -/
namespace Capi

open Runs

/-- The handler has been registered and not deregistered, and its task is alive on the runtime
    that is stored. -/
def Handler.InService (handler : Handler) (tokioRt : Option Nat) : Prop :=
  handler.registered = true ∧ handler.deregisteredItself = false ∧
    handler.deregistered = false ∧ handler.task.isOver = false ∧ tokioRt = some handler.runtime

instance (handler : Handler) (tokioRt : Option Nat) : Decidable (handler.InService tokioRt) :=
  inferInstanceAs (Decidable (_ ∧ _))

def Consistent (s : State) : Prop :=
  ∀ callbackId, (∃ h, (callbackId, h) ∈ s.waitTasks) ↔
    ∃ h < s.calls.length, ∃ handler ∈ s.handlers h,
      handler.callbackId = callbackId ∧ handler.InService s.tokioRt

def Quiet (s : State) : Prop :=
  (∀ call ∈ s.calls, call.returned = true) ∧
    ∀ h < s.calls.length, ∀ handler ∈ s.handlers h, handler.task ≠ .deregisters

instance (s : State) : Decidable (Quiet s) :=
  inferInstanceAs (Decidable (_ ∧ _))

/-- A handler deregisters itself once it has its entry, and whoever drops the runtime, as the
    table is empty, does so while nobody is registering a handler. -/
def Undisturbed (s : State) : Label → Prop
  | .goes c => ∀ foundHandler, s.calls[c]? = some (.checks foundHandler) →
      s.waitTasks = [] → s.registering = false
  | .deregistersItself h => ∀ handler ∈ s.handlers h, (handler.callbackId, h) ∈ s.waitTasks ∧
      (s.without handler.callbackId = [] → s.registering = false)
  | _ => True

instance (s : State) : (l : Label) → Decidable (Undisturbed s l)
  | .goes c => inferInstanceAs (Decidable (∀ foundHandler,
      s.calls[c]? = some (.checks foundHandler) → s.waitTasks = [] → s.registering = false))
  | .deregistersItself h => inferInstanceAs (Decidable (∀ handler ∈ s.handlers h,
      (handler.callbackId, h) ∈ s.waitTasks ∧
        (s.without handler.callbackId = [] → s.registering = false)))
  | .calls _ => isTrue trivial
  | .callsInside _ _ => isTrue trivial
  | .comesBack _ => isTrue trivial
  | .task _ _ => isTrue trivial

variable {s t : State} {c h : Nat}

structure Handler.Serves (handler : Handler) (tokioRt : Option Nat) : Prop where
  runtime : tokioRt = some handler.runtime
  alive : handler.task.isOver = false
  kept : handler.deregistered = false
  keptItself : handler.deregisteredItself = false
  notAborted : handler.aborted = false
  sender : handler.senderGone = false

structure Sound (s : State) : Prop where
  unique : ∀ {id h h'}, (id, h) ∈ s.waitTasks → (id, h') ∈ s.waitTasks → h = h'
  entries : ∀ {id h}, (id, h) ∈ s.waitTasks → s.calls[h]? = some (.registered id) ∧
    ∃ handler, s.handlers h = some handler ∧ handler.callbackId = id ∧
      handler.registered = true ∧ handler.Serves s.tokioRt
  complete : ∀ {h handler}, s.handlers h = some handler → handler.registered = true →
    handler.deregistered = false → handler.deregisteredItself = false →
      (handler.callbackId, h) ∈ s.waitTasks
  handle : ∀ {c : Nat} {startPaused id rt},
    s.calls[c]? = some (.spawns startPaused id rt) → s.tokioRt = some rt
  pending : ∀ {c : Nat} {id}, s.calls[c]? = some (.inserts id) →
    ∃ handler, s.handlers c = some handler ∧ handler.callbackId = id ∧
      handler.registered = false ∧ handler.Serves s.tokioRt

theorem Sound.init : Sound init where
  unique := fun member => nomatch member
  entries := fun member => nomatch member
  complete := fun here => nomatch here
  handle := fun here => nomatch here
  pending := fun here => nomatch here

theorem Sound.consistent (sound : Sound s) : Consistent s := by
  intro callbackId
  constructor
  · rintro ⟨h, member⟩
    obtain ⟨call, handler, here, same, registered, serves⟩ := sound.entries member
    obtain ⟨range, _⟩ := List.getElem?_eq_some_iff.mp call
    exact ⟨h, range, handler, here, same, registered, serves.keptItself, serves.kept,
      serves.alive, serves.runtime⟩
  · rintro ⟨h, _, handler, here, rfl, registered, keptItself, kept, _, _⟩
    exact ⟨h, sound.complete here registered kept keptItself⟩

section Calls

theorem Sound.goesTo (sound : Sound s) {before call : Call} (here : s.calls[c]? = some before)
    (under : before.returned = false)
    (handle : ∀ {startPaused id rt}, call = .spawns startPaused id rt → s.tokioRt = some rt)
    (pending : ∀ {id}, call = .inserts id → ∃ handler, s.handlers c = some handler ∧
      handler.callbackId = id ∧ handler.registered = false ∧ handler.Serves s.tokioRt) :
    Sound (s.put c call) where
  unique := sound.unique
  entries := by
    intro id h member
    obtain ⟨there, handler⟩ := sound.entries member
    have other : c ≠ h := by
      rintro rfl
      rw [here] at there
      cases there
      cases under
    exact ⟨(List.getElem?_set_ne other).trans there, handler⟩
  complete := sound.complete
  handle := by
    intro d startPaused id rt there
    rcases put_get there with ⟨rfl, same⟩ | ⟨_, there⟩
    · exact handle same.symm
    · exact sound.handle there
  pending := by
    intro d id there
    rcases put_get there with ⟨rfl, same⟩ | ⟨_, there⟩
    · exact pending same.symm
    · exact sound.pending there

theorem Sound.put (sound : Sound s) {before call : Call} (here : s.calls[c]? = some before)
    (under : before.returned = false) (elsewhere : call.registering = false) :
    Sound (s.put c call) := by
  apply sound.goesTo here under
  · rintro startPaused id rt rfl
    cases elsewhere
  · rintro id rfl
    cases elsewhere

theorem Sound.calls (sound : Sound s) (start : Start) :
    Sound { s with calls := s.calls ++ [start.call] } where
  unique := sound.unique
  entries := by
    intro id h member
    obtain ⟨there, handler⟩ := sound.entries member
    obtain ⟨range, _⟩ := List.getElem?_eq_some_iff.mp there
    exact ⟨(List.getElem?_append_left range).trans there, handler⟩
  complete := sound.complete
  handle := by
    intro d startPaused id rt there
    rcases append_get there with earlier | new
    · exact sound.handle earlier
    · cases start <;> cases new
  pending := by
    intro d id there
    rcases append_get there with earlier | new
    · exact sound.pending earlier
    · cases start <;> cases new

end Calls

section Handlers

variable {a b : Handler}

structure Handler.Keeps (tokioRt : Option Nat) (a b : Handler) : Prop where
  callbackId : b.callbackId = a.callbackId
  registered : b.registered = a.registered
  deregistered : b.deregistered = a.deregistered
  deregisteredItself : b.deregisteredItself = a.deregisteredItself
  serves : a.Serves tokioRt → b.Serves tokioRt

theorem Sound.replace (sound : Sound s) (here : s.handlers h = some a)
    (keeps : a.Keeps s.tokioRt b) :
    Sound { s with handlers := Function.update s.handlers h (some b) } where
  unique := sound.unique
  entries := by
    intro id d member
    obtain ⟨call, handler, there, same, registered, serves⟩ := sound.entries member
    by_cases self : d = h
    · subst self
      obtain rfl : a = handler := Option.some.inj (here.symm.trans there)
      exact ⟨call, b, Function.update_self .., keeps.callbackId.trans same,
        keeps.registered.trans registered, keeps.serves serves⟩
    · exact ⟨call, handler, (Function.update_of_ne self ..).trans there, same, registered, serves⟩
  complete := by
    intro d handler there registered kept keptItself
    rcases update_get there with ⟨rfl, rfl⟩ | ⟨_, there⟩
    · rw [keeps.callbackId]
      exact sound.complete here (keeps.registered.symm.trans registered)
        (keeps.deregistered.symm.trans kept) (keeps.deregisteredItself.symm.trans keptItself)
    · exact sound.complete there registered kept keptItself
  handle := sound.handle
  pending := by
    intro d id waits
    obtain ⟨handler, there, same, unregistered, serves⟩ := sound.pending waits
    by_cases self : d = h
    · subst self
      obtain rfl : a = handler := Option.some.inj (here.symm.trans there)
      exact ⟨b, Function.update_self .., keeps.callbackId.trans same,
        keeps.registered.trans unregistered, keeps.serves serves⟩
    · exact ⟨handler, (Function.update_of_ne self ..).trans there, same, unregistered, serves⟩

theorem Sound.modify (sound : Sound s) {f : Handler → Handler}
    (keeps : ∀ a : Handler, a.Keeps s.tokioRt (f a)) : Sound (s.modify h f) := by
  unfold State.modify
  cases here : s.handlers h with
  | none =>
    rw [Option.map_none, ← here, Function.update_eq_self]
    exact sound
  | some a => exact sound.replace here (keeps a)

theorem Handler.Keeps.trans {tokioRt : Option Nat} {d : Handler} (first : a.Keeps tokioRt b)
    (second : b.Keeps tokioRt d) : a.Keeps tokioRt d where
  callbackId := second.callbackId.trans first.callbackId
  registered := second.registered.trans first.registered
  deregistered := second.deregistered.trans first.deregistered
  deregisteredItself := second.deregisteredItself.trans first.deregisteredItself
  serves := fun serves => second.serves (first.serves serves)

theorem moved_keeps (tokioRt : Option Nat) {task : Task} (alive : task.isOver = false) :
    a.Keeps tokioRt { a with task := task } :=
  ⟨rfl, rfl, rfl, rfl, fun ⟨runtime, _, kept, keptItself, notAborted, sender⟩ =>
    ⟨runtime, alive, kept, keptItself, notAborted, sender⟩⟩

theorem loops_keeps (tokioRt : Option Nat) : a.Keeps tokioRt a.loops := by
  unfold Handler.loops
  split
  · exact ⟨rfl, rfl, rfl, rfl, fun ⟨runtime, _, kept, keptItself, notAborted, sender⟩ =>
      ⟨runtime, rfl, kept, keptItself, notAborted, sender⟩⟩
  · exact ⟨rfl, rfl, rfl, rfl, fun ⟨runtime, _, kept, keptItself, notAborted, sender⟩ =>
      ⟨runtime, rfl, kept, keptItself, notAborted, sender⟩⟩

theorem acts_keeps {tokioRt : Option Nat} {act : TaskAct}
    (move : a.acts (tokioRt != some a.runtime) act = some b) : a.Keeps tokioRt b := by
  have moves : ∀ task : Task, task.isOver = false → a.Keeps tokioRt { a with task := task } :=
    fun _ alive => moved_keeps tokioRt alive
  have ends : a.aborted = true ∨ tokioRt ≠ some a.runtime ∨ a.senderGone = true →
      a.Keeps tokioRt { a with task := .ended false } := by
    intro done
    refine ⟨rfl, rfl, rfl, rfl, fun serves => ?_⟩
    rcases done with aborted | gone | senderGone
    · exact absurd aborted (Bool.eq_false_iff.mp serves.notAborted)
    · exact absurd serves.runtime gone
    · exact absurd senderGone (Bool.eq_false_iff.mp serves.sender)
  have hears : a.hears = some b → a.Keeps tokioRt b := by
    intro heard
    unfold Handler.hears at heard
    split at heard
    · rename_i mode signal
      cases heard
      have heeded : a.Keeps tokioRt { a with signal := none, resumeMode := mode } :=
        ⟨rfl, rfl, rfl, rfl, fun ⟨runtime, alive, kept, keptItself, notAborted, sender⟩ =>
          ⟨runtime, alive, kept, keptItself, notAborted, sender⟩⟩
      exact heeded.trans (loops_keeps tokioRt)
    · split at heard <;> cases heard
      rename_i senderGone
      exact ends (Or.inr (Or.inr senderGone))
  unfold Handler.acts at move
  split at move
  · split at move
    · cases move
    · split at move <;> cases move
      · exact moves _ rfl
      · exact loops_keeps tokioRt
  · cases move
    exact moves _ rfl
  · cases move
    exact loops_keeps tokioRt
  · cases move
    exact moves _ rfl
  · cases move
    exact moves _ rfl
  · exact hears move
  · exact hears move
  · cases move
  · cases move
  · cases move
  · cases move
  · split at move <;> cases move
    rename_i done
    rcases Bool.or_eq_true_iff.mp done with aborted | gone
    · exact ends (Or.inl aborted)
    · exact ends (Or.inr (Or.inl (bne_iff_ne.mp gone)))
  · cases move

theorem Sound.task (sound : Sound s) {act : TaskAct} (move : s.task h act = some t) : Sound t := by
  simp only [State.task, Option.bind_eq_bind, Option.bind_eq_some_iff, Option.some.injEq] at move
  obtain ⟨a, here, b, acts, rfl⟩ := move
  exact sound.replace here (acts_keeps acts)

end Handlers

section Removal

theorem Sound.remove (sound : Sound s) {id : UInt64} (entry : (id, h) ∈ s.waitTasks) (b : Handler)
    (marked : b.deregistered = true ∨ b.deregisteredItself = true) :
    Sound { s with
      waitTasks := s.without id
      handlers := Function.update s.handlers h (some b) } := by
  obtain ⟨_, a, here, rfl, registered, _⟩ := sound.entries entry
  constructor
  · intro id d d' member member'
    exact sound.unique (mem_without.mp member).1 (mem_without.mp member').1
  · intro id d member
    obtain ⟨member, other⟩ := mem_without.mp member
    obtain ⟨call, handler, there, rfl, rest⟩ := sound.entries member
    have apart : d ≠ h := by
      rintro rfl
      obtain rfl : a = handler := Option.some.inj (here.symm.trans there)
      exact other rfl
    exact ⟨call, handler, (Function.update_of_ne apart ..).trans there, rfl, rest⟩
  · intro d handler there registered kept keptItself
    rcases update_get there with ⟨rfl, rfl⟩ | ⟨apart, there⟩
    · rcases marked with deregistered | deregisteredItself
      · exact absurd deregistered (Bool.eq_false_iff.mp kept)
      · exact absurd deregisteredItself (Bool.eq_false_iff.mp keptItself)
    · have member := sound.complete there registered kept keptItself
      refine mem_without.mpr ⟨member, fun same => apart ?_⟩
      exact sound.unique (same ▸ member) entry
  · exact sound.handle
  · intro d id waits
    obtain ⟨handler, there, same, unregistered, serves⟩ := sound.pending waits
    have apart : d ≠ h := by
      rintro rfl
      obtain rfl : a = handler := Option.some.inj (here.symm.trans there)
      rw [registered] at unregistered
      cases unregistered
    exact ⟨handler, (Function.update_of_ne apart ..).trans there, same, unregistered, serves⟩

theorem Sound.shutDown (sound : Sound s) (empty : s.waitTasks = [])
    (nobody : s.registering = false) : Sound { s with tokioRt := none } := by
  have nobody : ∀ {d : Nat} {call : Call}, s.calls[d]? = some call → call.registering = false :=
    fun there => Bool.eq_false_iff.mpr (List.any_eq_false.mp nobody _ (List.mem_of_getElem? there))
  constructor
  · exact sound.unique
  · intro id d member
    have member : (id, d) ∈ s.waitTasks := member
    rw [empty] at member
    cases member
  · exact sound.complete
  · intro d startPaused id rt there
    cases nobody there
  · intro d id there
    cases nobody there

theorem Sound.withRt (sound : Sound s) {rt : Nat} (provides : s.Provides rt) :
    Sound (s.withRt rt) := by
  have serves : ∀ {handler : Handler}, handler.Serves s.tokioRt → handler.Serves (some rt) := by
    intro handler serves
    rcases provides with here | ⟨none_, _⟩
    · exact { serves with runtime := here.symm.trans serves.runtime }
    · have runtime := serves.runtime
      rw [none_] at runtime
      cases runtime
  constructor
  · exact sound.unique
  · intro id d member
    obtain ⟨call, handler, there, same, registered, serves'⟩ := sound.entries member
    exact ⟨call, handler, there, same, registered, serves serves'⟩
  · exact sound.complete
  · intro d startPaused id rt' there
    have before := sound.handle there
    rcases provides with here | ⟨none_, _⟩
    · exact here.symm.trans before
    · rw [none_] at before
      cases before
  · intro d id there
    obtain ⟨handler, there, same, unregistered, serves'⟩ := sound.pending there
    exact ⟨handler, there, same, unregistered, serves serves'⟩

end Removal

section Registration

theorem Sound.getsRuntime (sound : Sound s) {startPaused : Bool} {id : UInt64} {rt : Nat}
    (here : s.calls[c]? = some (.getsRuntime startPaused id)) (provides : s.Provides rt) :
    Sound ((s.withRt rt).put c (.spawns startPaused id rt)) := by
  apply (sound.withRt provides).goesTo here rfl
  · rintro _ _ rt' same
    cases same
    rfl
  · rintro id same
    cases same

theorem Sound.notListed (sound : Sound s) {before : Call} (here : s.calls[c]? = some before)
    (under : before.returned = false) (id : UInt64) : (id, c) ∉ s.waitTasks := by
  intro member
  have there := (sound.entries member).1
  rw [here] at there
  cases there
  cases under

theorem Sound.spawns (sound : Sound s) {startPaused : Bool} {id : UInt64} {rt : Nat}
    (here : s.calls[c]? = some (.spawns startPaused id rt)) :
    Sound (s.spawns c startPaused id rt) := by
  have runtime := sound.handle here
  unfold State.spawns
  simp only [if_pos runtime]
  generalize new : Handler.mk id startPaused rt .spawned .resumeWait none false false false false
    false = handler
  have spawned : Sound { s with handlers := Function.update s.handlers c (some handler) } := by
    constructor
    · exact sound.unique
    · intro id d member
      obtain ⟨call, other, there, rest⟩ := sound.entries member
      have apart : d ≠ c := by
        rintro rfl
        exact sound.notListed here rfl id member
      exact ⟨call, other, (Function.update_of_ne apart ..).trans there, rest⟩
    · intro d other there registered kept keptItself
      rcases update_get there with ⟨rfl, rfl⟩ | ⟨_, there⟩
      · rw [← new] at registered
        cases registered
      · exact sound.complete there registered kept keptItself
    · exact sound.handle
    · intro d id there
      obtain ⟨other, there', rest⟩ := sound.pending there
      have apart : d ≠ c := by
        rintro rfl
        rw [here] at there
        cases there
      exact ⟨other, (Function.update_of_ne apart ..).trans there', rest⟩
  apply spawned.goesTo here rfl
  · rintro _ _ _ same
    cases same
  · rintro _ same
    cases same
    subst new
    exact ⟨_, Function.update_self .., rfl, rfl, ⟨runtime, rfl, rfl, rfl, rfl, rfl⟩⟩

theorem Sound.inserts (sound : Sound s) {id : UInt64} (here : s.calls[c]? = some (.inserts id))
    (new : s.entry id = none) :
    Sound (({ s with waitTasks := s.waitTasks ++ [(id, c)] }.modify c
      fun handler => { handler with registered := true }).put c (.registered id)) := by
  obtain ⟨a, there, rfl, unregistered, serves⟩ := sound.pending here
  obtain ⟨range, _⟩ := List.getElem?_eq_some_iff.mp here
  have absent := entry_none_iff.mp new
  have listed : ∀ {id d}, (id, d) ∈ s.waitTasks ++ [(a.callbackId, c)] →
      (id, d) ∈ s.waitTasks ∨ id = a.callbackId ∧ d = c := by
    intro id d member
    rcases List.mem_append.mp member with before | last
    · exact Or.inl before
    · cases List.mem_singleton.mp last
      exact Or.inr ⟨rfl, rfl⟩
  simp only [State.modify, there, Option.map_some]
  constructor
  · intro id d d' member member'
    rcases listed member with before | ⟨rfl, rfl⟩
    · rcases listed member' with before' | ⟨rfl, rfl⟩
      · exact sound.unique before before'
      · exact absurd before (absent d)
    · rcases listed member' with before' | ⟨_, rfl⟩
      · exact absurd before' (absent d')
      · rfl
  · intro id d member
    rcases listed member with before | ⟨rfl, rfl⟩
    · obtain ⟨call, handler, there', rest⟩ := sound.entries before
      have apart : d ≠ c := by
        rintro rfl
        exact sound.notListed here rfl id before
      exact ⟨(List.getElem?_set_ne apart.symm).trans call, handler,
        (Function.update_of_ne apart ..).trans there', rest⟩
    · exact ⟨List.getElem?_set_self range, _, Function.update_self .., rfl, rfl,
        { serves with }⟩
  · intro d handler there' registered kept keptItself
    apply List.mem_append.mpr
    rcases update_get there' with ⟨rfl, rfl⟩ | ⟨_, there'⟩
    · exact Or.inr (List.mem_singleton.mpr rfl)
    · exact Or.inl (sound.complete there' registered kept keptItself)
  · intro d startPaused id rt there'
    rcases put_get there' with ⟨rfl, same⟩ | ⟨_, there'⟩
    · cases same
    · exact sound.handle there'
  · intro d id there'
    rcases put_get there' with ⟨rfl, same⟩ | ⟨apart, there'⟩
    · cases same
    · obtain ⟨handler, there', rest⟩ := sound.pending there'
      exact ⟨handler, (Function.update_of_ne apart ..).trans there', rest⟩

end Registration

theorem Sound.goes (sound : Sound s) (undisturbed : Undisturbed s (.goes c)) (move : Goes s c t) :
    Sound t := by
  cases move with
  | getsId call here next =>
    have counted : Sound { s with nextCallbackId := s.nextCallbackId + 1 } :=
      ⟨sound.unique, sound.entries, sound.complete, sound.handle, sound.pending⟩
    rcases next with rfl | rfl
    · exact counted.put here rfl rfl
    · exact counted.put here rfl rfl
  | getsRuntime rt here provides free => exact sound.getsRuntime here provides
  | spawns here => exact sound.spawns here
  | inserts here free new => exact sound.inserts here new
  | unknown here entry => exact sound.put here rfl rfl
  | looksUp here free entry valid outside => exact sound.put here rfl rfl
  | fails here => exact sound.put here rfl rfl
  | @sends h mode here =>
    have signalled : Sound (s.modify h fun handler => { handler with signal := some mode }) :=
      sound.modify fun a => ⟨rfl, rfl, rfl, rfl, fun serves => { serves with }⟩
    exact signalled.put here rfl rfl
  | getsHandle rt here provides free => exact (sound.withRt provides).put here rfl rfl
  | missing here free entry => exact sound.put here rfl rfl
  | removes here free entry outside =>
    have entry := mem_of_entry entry
    obtain ⟨_, a, there, _⟩ := sound.entries entry
    have removed := sound.remove entry { a with aborted := true, deregistered := true } (Or.inl rfl)
    simp only [State.modify, there, Option.map_some]
    exact removed.put here rfl rfl
  | joins here => exact sound.put here rfl rfl
  | shutsDown here empty runtime outside =>
    exact (sound.shutDown empty (undisturbed _ here empty)).put here rfl rfl
  | keeps here kept => exact sound.put here rfl rfl
  | drops here => exact sound.put here rfl rfl
  | crashes here panics =>
    exact ⟨sound.unique, sound.entries, sound.complete, sound.handle, sound.pending⟩

theorem Sound.deregistersItself (sound : Sound s)
    (undisturbed : Undisturbed s (.deregistersItself h))
    (move : s.deregistersItself h = some t) : Sound t := by
  unfold State.deregistersItself at move
  split at move
  · cases move
  · rename_i a there
    obtain ⟨entry, last⟩ := undisturbed a there
    have found : s.entry a.callbackId = some h := by
      cases found : s.entry a.callbackId with
      | none => exact absurd entry (entry_none_iff.mp found h)
      | some other => rw [sound.unique (mem_of_entry found) entry]
    split at move
    · rw [found] at move
      simp only [State.dropsSender, State.modify, there, Option.map_some, Function.update_self,
        Function.update_idem, Option.some.injEq] at move
      subst move
      have removed := sound.remove entry { a with
        senderGone := true
        task := .ended ((s.without a.callbackId).isEmpty && s.tokioRt.isSome)
        deregisteredItself := true } (Or.inr rfl)
      cases empty : (s.without a.callbackId).isEmpty with
      | true =>
        rw [empty] at removed
        exact removed.shutDown (List.isEmpty_iff.mp empty) (last (List.isEmpty_iff.mp empty))
      | false =>
        rw [empty] at removed
        exact removed
    · cases move

theorem Sound.step {l : Label} (sound : Sound s) (undisturbed : Undisturbed s l)
    (move : next s l = some t) : Sound t := by
  unfold next at move
  split at move
  · cases move
  · cases l with
    | calls start =>
      cases move
      exact sound.calls start
    | callsInside h start =>
      obtain ⟨a, here, calling, rfl⟩ := callsInside_some move
      exact (sound.calls start).replace here (moved_keeps s.tokioRt rfl)
    | comesBack h =>
      obtain ⟨a, c, here, _, _, rfl⟩ := comesBack_some move
      exact sound.replace here (moved_keeps s.tokioRt rfl)
    | goes c => exact sound.goes undisturbed (goes_cases move)
    | task h act => exact sound.task move
    | deregistersItself h => exact sound.deregistersItself undisturbed move

theorem sound_of_run {trace : List (State × Label)} (run : Runs trace s)
    (undisturbed : Meets Undisturbed trace) : Sound s := by
  apply run_invariant (fun _ s => Sound s) _ _ run undisturbed
  · rintro s rfl
    exact .init
  · intro _ _ _ _ _ sound undisturbed move
    exact sound.step undisturbed move

/-- The table lists the handlers in service, as long as no handler deregisters itself before it
    is in the table and no runtime is dropped under a registration. -/
theorem table_consistent {trace : List (State × Label)} (run : Runs trace s)
    (undisturbed : Meets Undisturbed trace) :
    Throughout (fun _ s => Quiet s → Consistent s) trace s := by
  apply throughout_of_runs _ run undisturbed
  intro trace s run undisturbed _
  exact (sound_of_run run undisturbed).consistent

def registersOne : List Label :=
  [.calls (.registers false), .goes 0, .goes 0, .goes 0]

def deregistersAtOnce : List Label :=
  [.task 0 .polls, .task 0 .message, .task 0 (.returns .actionDeregister), .deregistersItself 0]

/-- It has its entry by then. -/
theorem table_consistent_at_once : ∃ trace s, Runs trace s ∧
    Throughout (fun _ s => Quiet s → Consistent s) trace s ∧ Quiet s ∧ s.waitTasks = [] := by
  obtain ⟨trace, s, run, undisturbed, quiet, empty⟩ := execute_run next init
    (registersOne ++ [.goes 0] ++ deregistersAtOnce)
    (fun trace s => (∀ e ∈ trace, Undisturbed e.1 e.2) ∧ Quiet s ∧ s.waitTasks = [])
    (by decide +kernel)
  exact ⟨trace, s, run, table_consistent run undisturbed, quiet, empty⟩

/-- It has not, and gets one afterwards. -/
theorem table_stale_entry : ∃ trace s, Runs trace s ∧ Quiet s ∧ ¬ Consistent s := by
  obtain ⟨trace, s, run, quiet, entry, none_⟩ := execute_run next init
    (registersOne ++ deregistersAtOnce ++ [.goes 0])
    (fun _ s => Quiet s ∧ (1, 0) ∈ s.waitTasks ∧
      ¬ ∃ h < s.calls.length, ∃ handler ∈ s.handlers h, handler.InService s.tokioRt)
    (by decide +kernel)
  refine ⟨trace, s, run, quiet, fun consistent => none_ ?_⟩
  obtain ⟨h, range, handler, there, _, inService⟩ := (consistent 1).mp ⟨0, entry⟩
  exact ⟨h, range, handler, there, inService⟩

end Capi
