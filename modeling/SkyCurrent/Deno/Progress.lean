import SkyCurrent.Base.Simulation
import SkyCurrent.Deno.Promises

/- What comes of a promise that is pending, and of free. The event loop and the task of the handler
   are enough to settle the promise; free waits for that task in their stead. -/
namespace Deno.EventLoop

open Capi (ResumeMode Task TaskAct Handler)
open Runs

def Label.byItself : Label → Bool
  | .task _ _ _ => true
  | .callback _ => true
  | .timer _ => true
  | _ => false

def Resolved (c p : Nat) (s : State) : Prop :=
  ∃ m promise message, s.consumers[c]? = some m ∧ m.promises[p]? = some promise ∧
    promise.settled = .fulfilled message

abbrev Comes (goal : State → Prop) (s : State) : Prop :=
  Leads (fun s l t => next s l = some t) (fun l => l.byItself = true) goal s

section Task

variable {m : MessageConsumer}

theorem task_calls (task : m.handler.task = .next) (message : Nat) :
    m.task .message (some message) = some { m with
      handler := { m.handler with task := .calling }
      message := some (some message)
      called := m.called ++ [some message] } := by
  simp [MessageConsumer.task, Handler.acts, task]

theorem task_pauses (task : m.handler.task = .calling) (returned : m.message = none) :
    m.task (.returns .actionPause) none =
      some { m with handler := { m.handler with task := .paused } } := by
  simp [MessageConsumer.task, Handler.acts, task, returned]

theorem task_listens (task : m.handler.task = .startsPaused ∨ m.handler.task = .paused) :
    m.handler.acts false .hears = m.handler.hears := by
  rcases task with task | task <;> simp [Handler.acts, task]

theorem task_waits (task : m.handler.task = .startsPaused ∨ m.handler.task = .paused)
    (signal : m.handler.signal = some .resumeWait) :
    m.task .hears none = some { m with handler := { m.handler with
      signal := none, resumeMode := .resumeWait, task := .next } } := by
  simp [MessageConsumer.task, task_listens task, Handler.hears, signal, Handler.loops]

theorem task_tries (task : m.handler.task = .startsPaused ∨ m.handler.task = .paused)
    (signal : m.handler.signal = some .resumeTry) :
    m.task .hears none = some { m with
      handler := { m.handler with signal := none, resumeMode := .resumeTry, task := .calling }
      message := some none
      called := m.called ++ [none] } := by
  simp [MessageConsumer.task, task_listens task, Handler.hears, signal, Handler.loops]

end Task

section Promise

variable {s : State} {trace : List (State × Label)} {c p : Nat} {m : MessageConsumer}

structure Pends (s : State) (c p : Nat) (m : MessageConsumer) : Prop where
  free : s.thread = .free
  here : s.consumers[c]? = some m
  resolve : m.resolve = some p
  inside : p < m.promises.length

theorem Pends.timer (pends : Pends s c p m) {message : Option Nat}
    (due : message ∈ timersOf s.timers c) : Comes (Resolved c p) s := by
  obtain ⟨⟨c', message'⟩, member, same⟩ := List.mem_map.mp due
  obtain ⟨there, mine⟩ := List.mem_filter.mp member
  obtain rfl : c' = c := by simpa using mine
  obtain ⟨k, place⟩ := List.mem_iff_getElem?.mp there
  have move : next s (.timer k) = some { s.put c'
      { m.settle p (.fulfilled message') with resolve := none } with
      timers := s.timers.eraseIdx k } := by
    simp [next, pends.free, State.timer, place, pends.here, pends.resolve]
  have inside := pends.inside
  have settled : (m.settle p (.fulfilled message')).promises[p]? =
      some { m.promises[p] with settled := .fulfilled message' } := by
    simp [MessageConsumer.settle, inside]
  refine Leads.after (Leads.here ?_) move rfl
  exact ⟨{ m.settle p (.fulfilled message') with resolve := none }, _, message',
    by simp [State.put, set_get pends.here], settled, rfl⟩

theorem Pends.callback (pends : Pends s c p m) (calls : m.message.isSome = true) :
    Comes (Resolved c p) s := by
  obtain ⟨message, message_⟩ := Option.isSome_iff_exists.mp calls
  have move : next s (.callback c) = some { s.put c { m with message := none } with
      timers := s.timers ++ [(c, message)] } := by
    simp [next, pends.free, State.callback, pends.here, message_]
  have pends' : Pends { s.put c { m with message := none } with
      timers := s.timers ++ [(c, message)] } c p { m with message := none } :=
    ⟨pends.free, by simp [State.put, set_get pends.here], pends.resolve, pends.inside⟩
  have due : message ∈ timersOf (s.timers ++ [(c, message)]) c := by
    simp [timersOf_append]
  exact (pends'.timer due).after move rfl

theorem Pends.acts (pends : Pends s c p m) {m' : MessageConsumer} {act : TaskAct}
    {got : Option Nat} (move : m.task act got = some m') (resolve : m'.resolve = m.resolve)
    (promises : m'.promises = m.promises)
    (after : ∀ t, Pends t c p m' → Comes (Resolved c p) t) : Comes (Resolved c p) s := by
  have step : next s (.task c act got) = some (s.put c m') := by
    simp [next, pends.free, pends.here, move]
  have pends' : Pends (s.put c m') c p m' :=
    ⟨pends.free, by simp [State.put, set_get pends.here], resolve.trans pends.resolve,
      promises ▸ pends.inside⟩
  exact (after _ pends').after step rfl

theorem Pends.next (pends : Pends s c p m) (task : m.handler.task = .next) :
    Comes (Resolved c p) s := by
  exact pends.acts (task_calls task 0) rfl rfl fun t after => after.callback rfl

theorem Pends.listens (pends : Pends s c p m) {mode : ResumeMode}
    (signal : m.handler.signal = some mode)
    (task : m.handler.task = .startsPaused ∨ m.handler.task = .paused) :
    Comes (Resolved c p) s := by
  cases mode with
  | resumeWait => exact pends.acts (task_waits task signal) rfl rfl fun t after => after.next rfl
  | resumeTry => exact pends.acts (task_tries task signal) rfl rfl fun t after => after.callback rfl

theorem Pends.signalled (pends : Pends s c p m) (steady : Steady m)
    (live : m.handler.aborted = false) {mode : ResumeMode}
    (signal : m.handler.signal = some mode) : Comes (Resolved c p) s := by
  cases task : m.handler.task with
  | spawned =>
    have move : m.task .polls none =
        some { m with handler := { m.handler with task := .startsPaused } } := by
      simp [MessageConsumer.task, Handler.acts, task, live, steady.startPaused]
    exact pends.acts move rfl rfl fun t after => after.listens signal (Or.inl rfl)
  | startsPaused => exact pends.listens signal (Or.inl task)
  | next => exact pends.next task
  | calling =>
    cases message : m.message with
    | some message' => exact pends.callback (by simp [message])
    | none =>
      exact pends.acts (task_pauses task message) rfl rfl
        fun t after => after.listens signal (Or.inr rfl)
  | paused => exact pends.listens signal (Or.inr task)
  | inside d => exact absurd task (steady.stays.1.2 d)
  | deregisters => exact absurd task steady.stays.1.1
  | ended panicked =>
    cases panicked
    · exact absurd task (steady.runs live).2
    · exact absurd task steady.stays.2

end Promise

section Free

variable {s t : State} {trace : List (State × Label)} {c : Nat} {m : MessageConsumer}

/-- The thread is in lmq_deregister_handler for the consumer, and never comes out of it. -/
def Hangs (c : Nat) (s : State) : Prop :=
  s.thread = .joins c ∧ ∀ ls t, Path (fun s l t => next s l = some t) s ls t → t.thread = .joins c

def MessageConsumer.owes (m : MessageConsumer) : Prop :=
  m.message.isSome = true ∨ m.asked [] ≠ [] ∧ m.handler.task ≠ .spawned

structure Deadlock (s : State) (c : Nat) (m : MessageConsumer) : Prop where
  sound : Sound s
  joins : s.thread = .joins c
  here : s.consumers[c]? = some m
  calls : m.message.isSome = true

theorem Deadlock.step {l : Label} (deadlock : Deadlock s c m) (move : EventLoop.next s l = some t) :
    Deadlock t c m := by
  have ⟨sound, joins, here, calls⟩ := deadlock
  have steady := sound.steady m (List.mem_of_getElem? here)
  have task := steady.calls calls
  cases l with
  | returns =>
    simp only [EventLoop.next, joins] at move
    obtain ⟨m', there, rest⟩ := Option.bind_eq_some_iff.mp move
    obtain rfl := Option.some.inj (there.symm.trans here)
    simp [task] at rest
  | task c' act got =>
    have sound' := sound.step move
    simp only [EventLoop.next] at move
    split at move
    · cases move
    · obtain ⟨m', there, rest⟩ := Option.bind_eq_some_iff.mp move
      obtain ⟨m'', acts, same⟩ := Option.bind_eq_some_iff.mp rest
      cases same
      by_cases mine : c' = c
      · subst mine
        obtain rfl := Option.some.inj (there.symm.trans here)
        exfalso
        cases task_acts steady acts with
        | starts other => rw [task] at other; cases other
        | waits other => rw [task] at other; simp at other
        | tries got other => rw [task] at other; simp at other
        | calls got other => rw [task] at other; cases other
        | pauses _ returned => rw [returned] at calls; cases calls
        | dropped _ apart => exact apart task
      · refine ⟨sound', joins, ?_, calls⟩
        simp [State.put, set_get there, Ne.symm mine, here]
  | _ => simp [EventLoop.next, joins] at move

theorem Deadlock.hangs (deadlock : Deadlock s c m) : Hangs c s := by
  refine ⟨deadlock.joins, ?_⟩
  intro ls t path
  have kept := path.keeps (Deadlock · c m) (fun _ _ _ held move => held.step move) deadlock
  exact kept.joins

structure Joining (s : State) (c : Nat) (m : MessageConsumer) : Prop where
  sound : Sound s
  joins : s.thread = .joins c
  here : s.consumers[c]? = some m

theorem Joining.task (joining : Joining s c m) {m' : MessageConsumer} {act : TaskAct}
    {got : Option Nat} (move : m.task act got = some m') :
    ∃ t, EventLoop.next s (.task c act got) = some t ∧ Joining t c m' := by
  have step : EventLoop.next s (.task c act got) = some (s.put c m') := by
    simp [EventLoop.next, joining.joins, joining.here, move]
  refine ⟨s.put c m', step, joining.sound.step step, joining.joins, ?_⟩
  simp [State.put, set_get joining.here]

abbrev MayHang (c : Nat) (s : State) : Prop :=
  Leads (fun s l t => EventLoop.next s l = some t) (fun _ => True) (Hangs c) s

theorem Joining.calls (joining : Joining s c m) (calls : m.message.isSome = true) :
    MayHang c s :=
  Leads.here (Deadlock.hangs ⟨joining.sound, joining.joins, joining.here, calls⟩)

theorem Joining.next (joining : Joining s c m) (task : m.handler.task = .next) :
    MayHang c s := by
  obtain ⟨t, step, after⟩ := joining.task (task_calls task 0)
  exact (after.calls rfl).after step trivial

theorem Joining.listens (joining : Joining s c m) {mode : ResumeMode}
    (signal : m.handler.signal = some mode)
    (task : m.handler.task = .startsPaused ∨ m.handler.task = .paused) : MayHang c s := by
  cases mode with
  | resumeWait =>
    obtain ⟨t, step, after⟩ := joining.task (task_waits task signal)
    exact (after.next rfl).after step trivial
  | resumeTry =>
    obtain ⟨t, step, after⟩ := joining.task (task_tries task signal)
    exact (after.calls rfl).after step trivial

theorem Joining.owes (joining : Joining s c m) (owes : m.owes)
    (goes : m.handler.task ≠ .ended false) : MayHang c s := by
  have steady := joining.sound.steady m (List.mem_of_getElem? joining.here)
  rcases owes with calls | ⟨asked, polled⟩
  · exact joining.calls calls
  · cases task : m.handler.task with
    | spawned => exact absurd task polled
    | next => exact joining.next task
    | inside d => exact absurd task (steady.stays.1.2 d)
    | deregisters => exact absurd task steady.stays.1.1
    | ended panicked =>
      cases panicked
      · exact absurd task goes
      · exact absurd task steady.stays.2
    | _ =>
      obtain ⟨mode, signal⟩ : ∃ mode, m.handler.signal = some mode := by
        cases signal : m.handler.signal with
        | some mode => exact ⟨mode, rfl⟩
        | none => simp [MessageConsumer.asked, signal, task] at asked
      first
        | exact joining.listens signal (Or.inl task)
        | exact joining.listens signal (Or.inr task)
        | cases message : m.message with
          | some message' => exact joining.calls (by simp [message])
          | none =>
            obtain ⟨t, step, after⟩ := joining.task (task_pauses task message)
            exact (after.listens signal (Or.inr rfl)).after step trivial

structure Quiet (m : MessageConsumer) : Prop where
  aborted : m.handler.aborted = true
  silent : m.message = none
  nothing : m.asked [] = [] ∨ m.handler.task = .spawned ∨ m.handler.task = .ended false

theorem Quiet.task (quiet : Quiet m) {m' : MessageConsumer} (acts : Acts m m') : Quiet m' := by
  have ⟨aborted, silent, nothing⟩ := quiet
  have apart : ∀ mode, m.handler.signal = some mode →
      m.handler.task = .startsPaused ∨ m.handler.task = .paused → False := by
    intro mode signal task
    rcases nothing with none_ | other | other
    · simp [MessageConsumer.asked, signal] at none_
    · rw [other] at task
      simp at task
    · rw [other] at task
      simp at task
  cases acts with
  | starts _ live => rw [aborted] at live; cases live
  | waits task signal => exact absurd task (apart _ signal)
  | tries got task signal => exact absurd task (apart _ signal)
  | calls got task =>
    rcases nothing with none_ | other | other
    · simp [MessageConsumer.asked, task] at none_
    · rw [task] at other
      cases other
    · rw [task] at other
      cases other
  | pauses task returned =>
    refine ⟨aborted, silent, Or.inl ?_⟩
    rcases nothing with none_ | other | other
    · simpa [MessageConsumer.asked, task] using none_
    · rw [task] at other
      cases other
    · rw [task] at other
      cases other
  | dropped _ apart => exact ⟨aborted, silent, Or.inr (Or.inr rfl)⟩

theorem Joining.returns (joining : Joining s c m) (ended : m.handler.task = .ended false) :
    ∃ t, EventLoop.next s .returns = some t ∧ t.thread = .free := by
  refine ⟨{ s.put c { m with
      callbackId := none
      underlyingConsumer := false
      callback := false } with thread := .free }, ?_, rfl⟩
  simp [EventLoop.next, joining.joins, State.joined, joining.here, ended]

theorem Hangs.after {l : Label} (hangs : Hangs c s) (move : EventLoop.next s l = some t) :
    Hangs c t := by
  refine ⟨hangs.2 [l] t (Path.single move), ?_⟩
  intro ls u path
  exact hangs.2 (l :: ls) u (.cons move path)

theorem Joining.drops (joining : Joining s c m) (aborted : m.handler.aborted = true)
    (task : m.handler.task ∈ [Task.spawned, .startsPaused, .next, .paused]) : ¬ Hangs c s := by
  intro hangs
  have move : m.task .dropped none =
      some { m with handler := { m.handler with task := .ended false } } := by
    simp only [List.mem_cons, List.not_mem_nil, or_false] at task
    rcases task with task | task | task | task <;>
      simp [MessageConsumer.task, Handler.acts, task, aborted]
  obtain ⟨t, step, after⟩ := joining.task move
  obtain ⟨u, step', free⟩ := after.returns rfl
  have stays := ((hangs.after step).after step').1
  rw [free] at stays
  cases stays

theorem Joining.quiet (joining : Joining s c m) (quiet : Quiet m) : ¬ Hangs c s := by
  have steady := joining.sound.steady m (List.mem_of_getElem? joining.here)
  cases task : m.handler.task with
  | calling =>
    intro hangs
    obtain ⟨t, step, after⟩ := joining.task (task_pauses task quiet.silent)
    exact after.drops quiet.aborted (by simp) (hangs.after step)
  | inside d => exact absurd task (steady.stays.1.2 d)
  | deregisters => exact absurd task steady.stays.1.1
  | ended panicked =>
    cases panicked
    · intro hangs
      obtain ⟨t, step, free⟩ := joining.returns task
      have stays := (hangs.after step).1
      rw [free] at stays
      cases stays
    · exact absurd task steady.stays.2
  | _ => exact joining.drops quiet.aborted (by simp [task])

structure Returns (c : Nat) (s : State) : Prop where
  sound : Sound s
  state : ∃ m, s.consumers[c]? = some m ∧
    (m.callbackId = none ∧ s.thread ≠ .joins c ∨ s.thread = .joins c ∧ Quiet m)

theorem Sound.freed (sound : Sound s) {l : Label} (here : s.consumers[c]? = some m)
    (freed : m.callbackId = none) (apart : s.thread ≠ .joins c)
    (move : EventLoop.next s l = some t) :
    t.thread ≠ .joins c ∧ ∃ m', t.consumers[c]? = some m' ∧ m'.callbackId = none := by
  have puts : ∀ {c' m' m''}, s.consumers[c']? = some m' →
      (m'.callbackId = none → m''.callbackId = none) →
      ∃ m, (s.consumers.set c' m'')[c]? = some m ∧ m.callbackId = none := by
    intro c' m' m'' there keeps
    rw [set_get there]
    by_cases mine : c = c'
    · subst mine
      obtain rfl := Option.some.inj (there.symm.trans here)
      exact ⟨m'', by simp, keeps freed⟩
    · exact ⟨m, by rw [if_neg mine, here], freed⟩
  cases l with
  | creates callbackId rt =>
    simp only [EventLoop.next] at move
    split at move <;> cases move
    have inside := (List.getElem?_eq_some_iff.mp here).1
    exact ⟨apart, m, by rw [List.getElem?_append_left inside, here], freed⟩
  | proceeds c' mode =>
    simp only [EventLoop.next] at move
    split at move
    · obtain ⟨m', there, rest⟩ := Option.bind_eq_some_iff.mp move
      split at rest
      · cases rest
        exact ⟨apart, m, here, freed⟩
      · split at rest <;> cases rest
        · exact ⟨by simp, puts there id⟩
        · exact ⟨apart, puts there id⟩
    · cases move
  | frees c' =>
    simp only [EventLoop.next] at move
    split at move
    · obtain ⟨m', there, rest⟩ := Option.bind_eq_some_iff.mp move
      split at rest <;> cases rest
      · rename_i some_
        refine ⟨?_, puts there id⟩
        rintro same
        obtain rfl := Thread.joins.inj same
        obtain rfl := Option.some.inj (there.symm.trans here)
        rw [freed] at some_
        cases some_
      · exact ⟨apart, m, here, freed⟩
    · cases move
  | returns =>
    simp only [EventLoop.next] at move
    split at move
    · obtain ⟨m', there, rest⟩ := Option.bind_eq_some_iff.mp move
      split at rest
      · cases rest
        exact ⟨by simp, puts there id⟩
      · split at rest <;> cases rest
        exact ⟨by simp, puts there id⟩
    · obtain ⟨m', there, rest⟩ := Option.bind_eq_some_iff.mp move
      split at rest <;> cases rest
      · exact ⟨by simp, puts there fun _ => rfl⟩
      · exact ⟨by simp, m, here, freed⟩
    · cases move
  | task c' act got =>
    simp only [EventLoop.next] at move
    split at move
    · cases move
    · obtain ⟨m', there, rest⟩ := Option.bind_eq_some_iff.mp move
      obtain ⟨m'', acts, same⟩ := Option.bind_eq_some_iff.mp rest
      cases same
      have keeps : m''.callbackId = m'.callbackId := by
        cases task_acts (sound.steady m' (List.mem_of_getElem? there)) acts <;> rfl
      exact ⟨apart, puts there fun gone => keeps.trans gone⟩
  | callback c' =>
    simp only [EventLoop.next] at move
    split at move
    · obtain ⟨m', there, rest⟩ := Option.bind_eq_some_iff.mp move
      obtain ⟨message, calls, rest⟩ := Option.bind_eq_some_iff.mp rest
      cases rest
      exact ⟨apart, puts there id⟩
    · cases move
  | timer k =>
    simp only [EventLoop.next] at move
    split at move
    · obtain ⟨⟨c', message⟩, due, rest⟩ := Option.bind_eq_some_iff.mp move
      obtain ⟨m', there, rest⟩ := Option.bind_eq_some_iff.mp rest
      split at rest <;> cases rest
      · exact ⟨apart, puts there id⟩
      · exact ⟨by simp, m, here, freed⟩
    · cases move

theorem Returns.step {l : Label} (returns : Returns c s) (move : EventLoop.next s l = some t) :
    Returns c t := by
  obtain ⟨sound, m, here, ⟨freed, apart⟩ | ⟨joins, quiet⟩⟩ := returns
  · obtain ⟨apart', m', here', freed'⟩ := sound.freed here freed apart move
    exact ⟨sound.step move, m', here', Or.inl ⟨freed', apart'⟩⟩
  · refine ⟨sound.step move, ?_⟩
    cases l with
    | returns =>
      simp only [EventLoop.next, joins] at move
      obtain ⟨m', there, rest⟩ := Option.bind_eq_some_iff.mp move
      obtain rfl := Option.some.inj (there.symm.trans here)
      split at rest <;> cases rest
      · refine ⟨{ m' with callbackId := none, underlyingConsumer := false, callback := false },
          ?_, Or.inl ⟨rfl, by simp⟩⟩
        simp [State.put, set_get here]
      · rename_i panicked
        exact absurd panicked (sound.steady m' (List.mem_of_getElem? here)).stays.2
    | task c' act got =>
      simp only [EventLoop.next] at move
      split at move
      · cases move
      · obtain ⟨m', there, rest⟩ := Option.bind_eq_some_iff.mp move
        obtain ⟨m'', acts, same⟩ := Option.bind_eq_some_iff.mp rest
        cases same
        by_cases mine : c' = c
        · subst mine
          obtain rfl := Option.some.inj (there.symm.trans here)
          have acts' := task_acts (sound.steady m' (List.mem_of_getElem? here)) acts
          exact ⟨m'', by simp [State.put, set_get here], Or.inr ⟨joins, quiet.task acts'⟩⟩
        · exact ⟨m, by simp [State.put, set_get there, Ne.symm mine, here],
            Or.inr ⟨joins, quiet⟩⟩
    | _ => simp [EventLoop.next, joins] at move

theorem Awaits.owed {timers : List (Option Nat)} (awaits : Awaits m [] timers)
    (none_ : m.resolve = none) : ¬ m.owes := by
  cases awaits with
  | settled _ ended values_ asked given =>
    rintro (calls | ⟨some_, _⟩)
    · have silent := (List.append_eq_nil_iff.mp given).2
      cases message : m.message with
      | none => simp [message] at calls
      | some message' => simp [message] at silent
    · exact some_ asked
  | pending before mode last => rw [last] at none_; cases none_
  | stale before mode last => rw [last] at none_; cases none_

end Free

end Deno.EventLoop
