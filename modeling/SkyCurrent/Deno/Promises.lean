import SkyCurrent.Deno.EventLoop

/- One promise at a time. A promise that is pending is owed one message, which is on its way from
   the resume channel over the task and its callback to a timer, and in one place only. -/
namespace Deno.EventLoop

open Capi (ResumeMode Task TaskAct Handler)
open Runs

def Promise.value (promise : Promise) : Option (Option Nat) :=
  match promise.settled with
  | .fulfilled message => some message
  | _ => none

def values (promises : List Promise) : List (Option Nat) := promises.filterMap Promise.value

def timersOf (timers : List (Nat × Option Nat)) (c : Nat) : List (Option Nat) :=
  (timers.filter fun timer => timer.1 = c).map Prod.snd

def Thread.resuming (thread : Thread) (c : Nat) : List ResumeMode :=
  match thread with
  | .resumes c' mode => if c' = c then [mode] else []
  | _ => []

namespace MessageConsumer

def asked (m : MessageConsumer) (resuming : List ResumeMode) : List ResumeMode :=
  resuming ++ m.handler.signal.toList ++ if m.handler.task = .next then [.resumeWait] else []

def given (m : MessageConsumer) (timers : List (Option Nat)) : List (Option Nat) :=
  timers ++ m.message.toList

end MessageConsumer

structure Promise.Over (promise : Promise) (callbackId : Option UInt64) : Prop where
  settled : promise.settled ≠ .pending
  rejected : promise.settled = .rejected → callbackId = none
  null : promise.settled = .fulfilled none → promise.mode = .resumeTry

/-- What the promises of a consumer have come to: all are settled; the last one is pending, and
    is owed a message while the handler goes on; or the last one was rejected, after free, and its
    resolve is still kept. -/
inductive Awaits (m : MessageConsumer) (resuming : List ResumeMode)
    (timers : List (Option Nat)) : Prop where
  | settled (none_ : m.resolve = none) (ended : ∀ promise ∈ m.promises, promise.Over m.callbackId)
      (values_ : values m.promises = m.called) (asked : m.asked resuming = [])
      (given : m.given timers = [])
  | pending (before : List Promise) (mode : ResumeMode) (last : m.resolve = some before.length)
      (promises : m.promises = before ++ [⟨mode, .pending⟩])
      (ended : ∀ promise ∈ before, promise.Over m.callbackId)
      (values_ : values before ++ m.given timers = m.called)
      (asked : ∀ mode' ∈ m.asked resuming, mode' = mode)
      (given : none ∈ m.given timers → mode = .resumeTry)
      (once : (m.asked resuming).length + (m.given timers).length ≤ 1)
      (owed : m.handler.aborted = false →
        (m.asked resuming).length + (m.given timers).length = 1)
  | stale (before : List Promise) (mode : ResumeMode) (last : m.resolve = some before.length)
      (promises : m.promises = before ++ [⟨mode, .rejected⟩]) (freed : m.callbackId = none)
      (ended : ∀ promise ∈ before, promise.Over m.callbackId)
      (values_ : values before = m.called) (asked : m.asked resuming = [])
      (given : m.given timers = [])

/-- A handler that was registered paused and is told to pause after every message. -/
structure Steady (m : MessageConsumer) : Prop where
  startPaused : m.handler.startPaused = true
  sender : m.handler.senderGone = false
  stays : (m.handler.task ≠ .deregisters ∧ ∀ d, m.handler.task ≠ .inside d) ∧
    m.handler.task ≠ .ended true
  calls : m.message.isSome = true → m.handler.task = .calling
  waits : m.handler.task = .next → m.handler.resumeMode = .resumeWait
  runs : m.handler.aborted = false → m.callbackId.isSome = true ∧ m.handler.task ≠ .ended false
  ended : m.callbackId = none → m.handler.aborted = true ∧ m.handler.task = .ended false

structure Sound (s : State) : Prop where
  thread : s.thread ≠ .crashed
  steady : ∀ m ∈ s.consumers, Steady m
  awaits : ∀ (c : Nat) m, s.consumers[c]? = some m →
    Awaits m (s.thread.resuming c) (timersOf s.timers c)
  -- whom the thread and the timers are busy with
  resumes : ∀ c mode, s.thread = .resumes c mode →
    ∃ m, s.consumers[c]? = some m ∧ m.handler.aborted = false
  aborted : ∀ (c : Nat) m, s.consumers[c]? = some m → m.handler.aborted = true →
    m.callbackId = none ∨ s.thread = .joins c
  timers : ∀ timer ∈ s.timers, timer.1 < s.consumers.length

section Task

variable {m m' : MessageConsumer}

inductive Acts (m : MessageConsumer) : MessageConsumer → Prop where
  | starts (task : m.handler.task = .spawned) (live : m.handler.aborted = false) :
      Acts m { m with handler := { m.handler with task := .startsPaused } }
  | waits (task : m.handler.task = .startsPaused ∨ m.handler.task = .paused)
      (signal : m.handler.signal = some .resumeWait) :
      Acts m { m with handler := { m.handler with
        signal := none, resumeMode := .resumeWait, task := .next } }
  | tries (got : Option Nat) (task : m.handler.task = .startsPaused ∨ m.handler.task = .paused)
      (signal : m.handler.signal = some .resumeTry) :
      Acts m { m with
        handler := { m.handler with signal := none, resumeMode := .resumeTry, task := .calling }
        message := some got
        called := m.called ++ [got] }
  | calls (got : Nat) (task : m.handler.task = .next) :
      Acts m { m with
        handler := { m.handler with task := .calling }
        message := some (some got)
        called := m.called ++ [some got] }
  | pauses (task : m.handler.task = .calling) (returned : m.message = none) :
      Acts m { m with handler := { m.handler with task := .paused } }
  | dropped (aborted : m.handler.aborted = true) (apart : m.handler.task ≠ .calling) :
      Acts m { m with handler := { m.handler with task := .ended false } }

theorem hears_cases {handler : Handler} (sender : m.handler.senderGone = false)
    (hears : m.handler.hears = some handler) :
    m.handler.signal = some .resumeWait ∧ handler = { m.handler with
        signal := none, resumeMode := .resumeWait, task := .next } ∨
      m.handler.signal = some .resumeTry ∧ handler = { m.handler with
        signal := none, resumeMode := .resumeTry, task := .calling } := by
  unfold Handler.hears at hears
  split at hears
  · rename_i mode signal
    cases hears
    cases mode with
    | resumeWait => exact Or.inl ⟨signal, rfl⟩
    | resumeTry => exact Or.inr ⟨signal, rfl⟩
  · simp [sender] at hears

theorem task_acts (steady : Steady m) {act : TaskAct} {got : Option Nat}
    (move : m.task act got = some m') : Acts m m' := by
  unfold MessageConsumer.task at move
  cases act with
  | returns action =>
    simp only [if_true] at move
    split at move
    · rename_i pause
      obtain ⟨handler, acts, same⟩ := Option.bind_eq_some_iff.mp move
      cases same
      obtain ⟨rfl⟩ := pause.1
      cases task : m.handler.task with
      | calling =>
        simp only [Handler.acts, task, Option.some.injEq] at acts
        subst acts
        exact .pauses task pause.2
      | _ => simp [Handler.acts, task] at acts
    · cases move
  | polls =>
    simp only [Bool.false_eq_true, if_false] at move
    obtain ⟨handler, acts, rest⟩ := Option.bind_eq_some_iff.mp move
    cases task : m.handler.task with
    | spawned =>
      simp only [Handler.acts, task] at acts
      split at acts
      · cases acts
      · rename_i live
        rw [if_pos steady.startPaused] at acts
        cases acts
        simp only [reduceCtorEq, if_false, Option.some.injEq] at rest
        subst rest
        exact .starts task (by simpa using live)
    | _ => simp [Handler.acts, task] at acts
  | message =>
    simp only [Bool.false_eq_true, if_false] at move
    obtain ⟨handler, acts, rest⟩ := Option.bind_eq_some_iff.mp move
    cases task : m.handler.task with
    | next =>
      simp only [Handler.acts, task, Option.some.injEq] at acts
      subst acts
      simp only [if_true] at rest
      split at rest
      · cases rest
      · rename_i some_
        cases rest
        cases got with
        | none => exact absurd ⟨steady.waits task, rfl⟩ some_
        | some got => exact .calls got task
    | _ => simp [Handler.acts, task] at acts
  | hears =>
    simp only [Bool.false_eq_true, if_false] at move
    obtain ⟨handler, acts, rest⟩ := Option.bind_eq_some_iff.mp move
    have listens : (m.handler.task = .startsPaused ∨ m.handler.task = .paused) ∧
        m.handler.hears = some handler := by
      cases task : m.handler.task with
      | startsPaused =>
        simp only [Handler.acts, task] at acts
        exact ⟨Or.inl rfl, acts⟩
      | paused =>
        simp only [Handler.acts, task] at acts
        exact ⟨Or.inr rfl, acts⟩
      | _ => simp [Handler.acts, task] at acts
    rcases hears_cases steady.sender listens.2 with ⟨signal, rfl⟩ | ⟨signal, rfl⟩
    · simp only [reduceCtorEq, if_false, Option.some.injEq] at rest
      subst rest
      exact .waits listens.1 signal
    · simp only [if_true, reduceCtorEq, false_and, if_false, Option.some.injEq] at rest
      subst rest
      exact .tries got listens.1 signal
  | dropped =>
    simp only [Bool.false_eq_true, if_false] at move
    obtain ⟨handler, acts, rest⟩ := Option.bind_eq_some_iff.mp move
    have drops : m.handler.aborted = true ∧ m.handler.task ≠ .calling ∧
        handler = { m.handler with task := .ended false } := by
      cases task : m.handler.task with
      | calling => simp [Handler.acts, task] at acts
      | inside d => simp [Handler.acts, task] at acts
      | deregisters => simp [Handler.acts, task] at acts
      | ended panicked => simp [Handler.acts, task] at acts
      | _ =>
        simp only [Handler.acts, task, Bool.or_false] at acts
        split at acts <;> cases acts
        rename_i aborted
        exact ⟨aborted, by simp, rfl⟩
    obtain ⟨aborted, apart, rfl⟩ := drops
    simp only [reduceCtorEq, if_false, Option.some.injEq] at rest
    subst rest
    exact .dropped aborted apart

end Task

section Awaits

variable {m m' : MessageConsumer} {resuming resuming' : List ResumeMode}
  {timers timers' : List (Option Nat)}

theorem Promise.Over.freed {promise : Promise} {callbackId callbackId' : Option UInt64}
    (ended : promise.Over callbackId) (stays : callbackId' = callbackId ∨ callbackId' = none) :
    promise.Over callbackId' := by
  refine ⟨ended.settled, ?_, ended.null⟩
  intro rejected
  rcases stays with same | freed
  · rw [same]
    exact ended.rejected rejected
  · exact freed

theorem Awaits.moves (awaits : Awaits m resuming timers) (resolve : m'.resolve = m.resolve)
    (promises : m'.promises = m.promises) (called : m'.called = m.called)
    (stays : m'.callbackId = m.callbackId ∨ m'.callbackId = none)
    (asked : (m'.asked resuming').Sublist (m.asked resuming))
    (given : m'.given timers' = m.given timers)
    (live : m'.handler.aborted = false →
      m.handler.aborted = false ∧ m'.asked resuming' = m.asked resuming) :
    Awaits m' resuming' timers' := by
  cases awaits with
  | settled none_ ended values_ asked_ given_ =>
    refine .settled (resolve.trans none_) ?_ ?_ ?_ (given.trans given_)
    · rw [promises]
      intro promise member
      exact (ended promise member).freed stays
    · rw [promises, called]
      exact values_
    · rw [asked_] at asked
      exact List.sublist_nil.mp asked
  | pending before mode last promises_ ended values_ asked_ given_ once owed =>
    refine .pending before mode (resolve.trans last) (promises.trans promises_) ?_ ?_ ?_ ?_ ?_ ?_
    · intro promise member
      exact (ended promise member).freed stays
    · rw [given, called]
      exact values_
    · intro mode' member
      exact asked_ mode' (asked.subset member)
    · rw [given]
      exact given_
    · have fewer := asked.length_le
      rw [given]
      omega
    · intro alive
      obtain ⟨before_, same⟩ := live alive
      rw [given, same]
      exact owed before_
  | stale before mode last promises_ freed ended values_ asked_ given_ =>
    have freed' : m'.callbackId = none := by
      rcases stays with same | gone
      · exact same.trans freed
      · exact gone
    refine .stale before mode (resolve.trans last) (promises.trans promises_) freed' ?_ ?_ ?_
      (given.trans given_)
    · intro promise member
      exact (ended promise member).freed stays
    · rw [called]
      exact values_
    · rw [asked_] at asked
      exact List.sublist_nil.mp asked

theorem Awaits.gets (awaits : Awaits m resuming timers) (mode : ResumeMode) {got : Option Nat}
    (resolve : m'.resolve = m.resolve) (promises : m'.promises = m.promises)
    (called : m'.called = m.called ++ [got]) (stays : m'.callbackId = m.callbackId)
    (aborted : m'.handler.aborted = m.handler.aborted)
    (asked : m.asked resuming = m'.asked resuming ++ [mode])
    (given : m'.given timers = m.given timers ++ [got]) (some_ : got = none → mode = .resumeTry) :
    Awaits m' resuming timers := by
  cases awaits with
  | settled none_ ended values_ asked_ given_ =>
    rw [asked_] at asked
    simp at asked
  | pending before mode' last promises_ ended values_ asked_ given_ once owed =>
    have same : mode = mode' := asked_ mode (by simp [asked])
    have count : (m'.asked resuming).length + (m'.given timers).length =
        (m.asked resuming).length + (m.given timers).length := by
      rw [asked, given, List.length_append, List.length_append]
      simp only [List.length_singleton]
      omega
    refine .pending before mode' (resolve.trans last) (promises.trans promises_) ?_ ?_ ?_ ?_ ?_ ?_
    · rw [stays]
      exact ended
    · rw [given, called, ← List.append_assoc, values_]
    · intro mode'' member
      exact asked_ mode'' (asked ▸ List.mem_append_left _ member)
    · intro null
      rw [given, List.mem_append, List.mem_singleton] at null
      rcases null with before_ | now
      · exact given_ before_
      · exact same ▸ some_ now.symm
    · omega
    · intro alive
      rw [count]
      exact owed (aborted ▸ alive)
  | stale before mode' last promises_ freed ended values_ asked_ given_ =>
    rw [asked_] at asked
    simp at asked

theorem Awaits.task (awaits : Awaits m resuming timers) (steady : Steady m) (acts : Acts m m') :
    Awaits m' resuming timers := by
  have silent : m.handler.task ≠ .calling → m.message = none := by
    intro apart
    cases message : m.message with
    | none => rfl
    | some got => exact absurd (steady.calls (by simp [message])) apart
  cases acts with
  | starts task live =>
    refine awaits.moves rfl rfl rfl (Or.inl rfl) ?_ rfl ?_
    · simp [MessageConsumer.asked, task]
    · intro alive
      exact ⟨alive, by simp [MessageConsumer.asked, task]⟩
  | waits task signal =>
    have same : m.asked resuming = resuming ++ [.resumeWait] := by
      rcases task with task | task <;> simp [MessageConsumer.asked, task, signal]
    refine awaits.moves rfl rfl rfl (Or.inl rfl) ?_ rfl ?_
    · rw [same]
      simp [MessageConsumer.asked]
    · intro alive
      rw [same]
      exact ⟨alive, by simp [MessageConsumer.asked]⟩
  | tries got task signal =>
    have none_ : m.message = none := silent (by rcases task with task | task <;> simp [task])
    refine awaits.gets .resumeTry rfl rfl rfl rfl rfl ?_ ?_ (fun _ => rfl)
    · rcases task with task | task <;> simp [MessageConsumer.asked, task, signal]
    · simp [MessageConsumer.given, none_]
  | calls got task =>
    have none_ : m.message = none := silent (by simp [task])
    refine awaits.gets .resumeWait rfl rfl rfl rfl rfl ?_ ?_ (by simp)
    · simp [MessageConsumer.asked, task]
    · simp [MessageConsumer.given, none_]
  | pauses task returned =>
    refine awaits.moves rfl rfl rfl (Or.inl rfl) ?_ rfl ?_
    · simp [MessageConsumer.asked, task]
    · intro alive
      exact ⟨alive, by simp [MessageConsumer.asked, task]⟩
  | dropped aborted apart =>
    refine awaits.moves rfl rfl rfl (Or.inl rfl) ?_ rfl ?_
    · simp [MessageConsumer.asked]
    · intro alive
      rw [aborted] at alive
      cases alive

theorem Steady.task (steady : Steady m) (acts : Acts m m') : Steady m' := by
  obtain ⟨startPaused, sender, stays, calls, waits, runs, ended⟩ := steady
  have silent : m.handler.task ≠ .calling → m.message.isSome = true → False := by
    intro apart some_
    exact apart (calls some_)
  cases acts with
  | starts task live =>
    refine ⟨startPaused, sender, by simp, ?_, by simp, ?_, ?_⟩
    · intro some_
      exact absurd some_ (silent (by simp [task]))
    · intro alive
      exact ⟨(runs alive).1, by simp⟩
    · intro freed
      rw [(ended freed).2] at task
      cases task
  | waits task signal =>
    refine ⟨startPaused, sender, by simp, ?_, fun _ => rfl, ?_, ?_⟩
    · intro some_
      exact absurd some_ (silent (by rcases task with task | task <;> simp [task]))
    · intro alive
      exact ⟨(runs alive).1, by simp⟩
    · intro freed
      rw [(ended freed).2] at task
      simp at task
  | tries got task signal =>
    refine ⟨startPaused, sender, by simp, fun _ => rfl, by simp, ?_, ?_⟩
    · intro alive
      exact ⟨(runs alive).1, by simp⟩
    · intro freed
      rw [(ended freed).2] at task
      simp at task
  | calls got task =>
    refine ⟨startPaused, sender, by simp, fun _ => rfl, by simp, ?_, ?_⟩
    · intro alive
      exact ⟨(runs alive).1, by simp⟩
    · intro freed
      rw [(ended freed).2] at task
      cases task
  | pauses task returned =>
    refine ⟨startPaused, sender, by simp, ?_, by simp, ?_, ?_⟩
    · intro some_
      rw [returned] at some_
      cases some_
    · intro alive
      exact ⟨(runs alive).1, by simp⟩
    · intro freed
      rw [(ended freed).2] at task
      cases task
  | dropped aborted apart =>
    refine ⟨startPaused, sender, by simp, ?_, by simp, ?_, ?_⟩
    · intro some_
      exact absurd some_ (silent apart)
    · intro alive
      rw [aborted] at alive
      cases alive
    · intro freed
      exact ⟨aborted, rfl⟩

end Awaits

section State

variable {s : State} {m m' : MessageConsumer} {c : Nat}

theorem set_get {consumers : List MessageConsumer} (here : consumers[c]? = some m) (c' : Nat) :
    (consumers.set c m')[c']? = if c' = c then some m' else consumers[c']? := by
  have inside := (List.getElem?_eq_some_iff.mp here).1
  rw [List.getElem?_set]
  by_cases same : c' = c
  · simp [same, inside]
  · simp [same, Ne.symm same]

theorem Sound.changes (sound : Sound s) (here : s.consumers[c]? = some m) (m' : MessageConsumer)
    (timers : List (Nat × Option Nat)) (thread : Thread) (alive : thread ≠ .crashed)
    (steady : Steady m')
    (awaits : Awaits m' (thread.resuming c) (timersOf timers c))
    (others : ∀ c', c' ≠ c → thread.resuming c' = s.thread.resuming c' ∧
      timersOf timers c' = timersOf s.timers c')
    (resumes : ∀ c' mode, thread = .resumes c' mode → c' = c ∧ m'.handler.aborted = false ∨
      c' ≠ c ∧ s.thread = .resumes c' mode)
    (aborted : m'.handler.aborted = true → m'.callbackId = none ∨ thread = .joins c)
    (joins : ∀ c', c' ≠ c → s.thread = .joins c' → thread = .joins c')
    (timers_ : ∀ timer ∈ timers, timer.1 = c ∨ timer ∈ s.timers) :
    Sound { s.put c m' with timers := timers, thread := thread } := by
  have inside := (List.getElem?_eq_some_iff.mp here).1
  refine ⟨alive, ?_, ?_, ?_, ?_, ?_⟩
  · intro other member
    rcases List.mem_or_eq_of_mem_set member with before | rfl
    · exact sound.steady other before
    · exact steady
  · intro c' other there
    simp only [State.put, set_get here] at there
    by_cases same : c' = c
    · rw [if_pos same] at there
      cases there
      rw [same]
      exact awaits
    · rw [if_neg same] at there
      obtain ⟨resuming, waiting⟩ := others c' same
      rw [resuming, waiting]
      exact sound.awaits c' other there
  · intro c' mode busy
    rcases resumes c' mode busy with ⟨rfl, live⟩ | ⟨apart, before⟩
    · exact ⟨m', by simp [State.put, set_get here], live⟩
    · obtain ⟨other, there, live⟩ := sound.resumes c' mode before
      exact ⟨other, by simp [State.put, set_get here, apart, there], live⟩
  · intro c' other there gone
    simp only [State.put, set_get here] at there
    by_cases same : c' = c
    · rw [if_pos same] at there
      cases there
      rw [same]
      exact aborted gone
    · rw [if_neg same] at there
      rcases sound.aborted c' other there gone with freed | busy
      · exact Or.inl freed
      · exact Or.inr (joins c' same busy)
  · intro timer member
    change timer.1 < (s.consumers.set c m').length
    rw [List.length_set]
    rcases timers_ timer member with rfl | before
    · exact inside
    · exact sound.timers timer before

@[simp] theorem resuming_free : Thread.resuming .free c = [] := rfl

@[simp] theorem resuming_joins (c' : Nat) : Thread.resuming (.joins c') c = [] := rfl

theorem resuming_resumes (c' : Nat) (mode : ResumeMode) :
    Thread.resuming (.resumes c' mode) c = if c' = c then [mode] else [] := rfl

theorem timersOf_append (timers : List (Nat × Option Nat)) (timer : Nat × Option Nat) (c' : Nat) :
    timersOf (timers ++ [timer]) c' =
      timersOf timers c' ++ if timer.1 = c' then [timer.2] else [] := by
  by_cases same : timer.1 = c'
  · simp [timersOf, same]
  · simp [timersOf, same]

theorem timersOf_erase {timers : List (Nat × Option Nat)} {k : Nat} {message : Option Nat}
    (here : timers[k]? = some (c, message)) :
    (∃ before after, timersOf timers c = before ++ message :: after ∧
      timersOf (timers.eraseIdx k) c = before ++ after) ∧
    ∀ c', c' ≠ c → timersOf (timers.eraseIdx k) c' = timersOf timers c' := by
  obtain ⟨inside, there⟩ := List.getElem?_eq_some_iff.mp here
  have split : timers = timers.take k ++ (c, message) :: timers.drop (k + 1) := by
    rw [← there, ← List.drop_eq_getElem_cons inside, List.take_append_drop]
  have erased : timers.eraseIdx k = timers.take k ++ timers.drop (k + 1) :=
    List.eraseIdx_eq_take_drop_succ ..
  refine ⟨⟨timersOf (timers.take k) c, timersOf (timers.drop (k + 1)) c, ?_, ?_⟩, ?_⟩
  · have whole := congrArg (timersOf · c) split
    simpa [timersOf] using whole
  · rw [erased]
    simp [timersOf]
  · intro c' apart
    have whole := congrArg (timersOf · c') split
    rw [erased]
    simpa [timersOf, Ne.symm apart] using whole.symm

end State

section Settle

variable {m : MessageConsumer} {timers timers' : List (Option Nat)}

theorem modify_last {α : Type} (f : α → α) (before : List α) (x : α) :
    (before ++ [x]).modify before.length f = before ++ [f x] := by
  induction before with
  | nil => rfl
  | cons y before ih => simp [List.modify_succ_cons, ih]

theorem values_append (before : List Promise) (promise : Promise) :
    values (before ++ [promise]) = values before ++ promise.value.toList := by
  simp only [values, List.filterMap_append]
  cases value : promise.value <;> simp [value]

theorem Awaits.promise (awaits : Awaits m [] timers) (none_ : m.resolve = none)
    (mode : ResumeMode) : Awaits (m.promise mode) [mode] timers := by
  cases awaits with
  | settled _ ended values_ asked given =>
    have asked' : (m.promise mode).asked [mode] = [mode] := by
      have same : (m.promise mode).asked [mode] = [mode] ++ m.asked [] := rfl
      rw [same, asked, List.append_nil]
    have given' : (m.promise mode).given timers = [] := given
    refine .pending m.promises mode rfl rfl ended ?_ ?_ ?_ ?_ ?_
    · rw [given', List.append_nil]
      exact values_
    · intro mode' member
      rw [asked'] at member
      exact List.mem_singleton.mp member
    · intro null
      rw [given'] at null
      cases null
    · rw [asked', given']
      exact Nat.le_refl 1
    · intro alive
      rw [asked', given']
      rfl
  | pending before mode' last => rw [last] at none_; cases none_
  | stale before mode' last => rw [last] at none_; cases none_

theorem Awaits.reject (awaits : Awaits m [] timers) (none_ : m.resolve = none)
    (freed : m.callbackId = none) (mode : ResumeMode) :
    Awaits (m.promise mode).reject [] timers := by
  have promises : (m.promise mode).reject.promises = m.promises ++ [⟨mode, .rejected⟩] := by
    have last : (m.promise mode).promises.length - 1 = m.promises.length := by
      simp [MessageConsumer.promise]
    rw [MessageConsumer.reject, last]
    exact modify_last _ m.promises _
  cases awaits with
  | settled _ ended values_ asked given =>
    exact .stale m.promises mode rfl promises freed ended values_ asked given
  | pending before mode' last => rw [last] at none_; cases none_
  | stale before mode' last => rw [last] at none_; cases none_

theorem Awaits.fulfill (awaits : Awaits m [] timers) {before after : List (Option Nat)}
    {message : Option Nat} (split : timers = before ++ message :: after)
    (rest : timers' = before ++ after) :
    ∃ p, m.resolve = some p ∧
      Awaits { m.settle p (.fulfilled message) with resolve := none } [] timers' := by
  cases awaits with
  | settled _ ended values_ asked given =>
    simp [MessageConsumer.given, split] at given
  | stale done mode last promises freed ended values_ asked given =>
    simp [MessageConsumer.given, split] at given
  | pending done mode last promises ended values_ asked given once owed =>
    have lengths : (m.asked []).length + (before.length + (1 + after.length) +
        m.message.toList.length) ≤ 1 := by
      simp only [MessageConsumer.given, split, List.length_append, List.length_cons] at once
      omega
    have empty : m.asked [] = [] ∧ before = [] ∧ after = [] ∧ m.message.toList = [] := by
      refine ⟨?_, ?_, ?_, ?_⟩ <;> apply List.eq_nil_of_length_eq_zero <;> omega
    obtain ⟨asked', rfl, rfl, silent⟩ := empty
    simp only [List.nil_append] at split rest
    have settled : (m.settle done.length (.fulfilled message)).promises =
        done ++ [⟨mode, .fulfilled message⟩] := by
      rw [MessageConsumer.settle, promises]
      exact modify_last _ done _
    refine ⟨done.length, last, .settled rfl ?_ ?_ asked' ?_⟩
    · intro promise member
      change promise ∈ (m.settle done.length (.fulfilled message)).promises at member
      rw [settled, List.mem_append, List.mem_singleton] at member
      rcases member with earlier | rfl
      · exact ended promise earlier
      · refine ⟨by simp, by simp, ?_⟩
        intro null
        cases null
        exact given (by simp [MessageConsumer.given, split])
    · change values (m.settle done.length (.fulfilled message)).promises = m.called
      rw [settled, values_append, ← values_, MessageConsumer.given, split, silent]
      rfl
    · rw [MessageConsumer.given, rest]
      exact silent

end Settle

section Steps

variable {s t : State} {trace : List (State × Label)} {c : Nat} {m : MessageConsumer}

theorem Sound.live (sound : Sound s) (free : s.thread = .free) (here : s.consumers[c]? = some m)
    (some_ : m.callbackId.isSome = true) : m.handler.aborted = false := by
  by_contra aborted
  rcases sound.aborted c m here (by simpa using aborted) with freed | joins
  · rw [freed] at some_
    cases some_
  · rw [free] at joins
    cases joins

theorem steady_new (callbackId : UInt64) (rt : Nat) : Steady (.new callbackId rt) := by
  constructor <;> simp [MessageConsumer.new]

theorem Sound.creates (sound : Sound s) (free : s.thread = .free) (callbackId : UInt64)
    (rt : Nat) : Sound { s with consumers := s.consumers ++ [.new callbackId rt] } := by
  have get : ∀ (c : Nat) m, (s.consumers ++ [MessageConsumer.new callbackId rt])[c]? = some m →
      s.consumers[c]? = some m ∨ c = s.consumers.length ∧ m = .new callbackId rt := by
    intro c m there
    rw [List.getElem?_append] at there
    split at there
    · exact Or.inl there
    · rename_i beyond
      obtain ⟨inside, same⟩ := List.getElem?_eq_some_iff.mp there
      simp only [List.length_singleton] at inside
      refine Or.inr ⟨by omega, ?_⟩
      rw [← same, List.getElem_singleton]
  refine ⟨sound.thread, ?_, ?_, ?_, ?_, ?_⟩
  · intro m member
    rcases List.mem_append.mp member with before | new
    · exact sound.steady m before
    · rw [List.mem_singleton.mp new]
      exact steady_new callbackId rt
  · intro c m there
    rcases get c m there with before | ⟨rfl, rfl⟩
    · exact sound.awaits c m before
    · have nothing : timersOf s.timers s.consumers.length = [] := by
        simp only [timersOf, List.map_eq_nil_iff, List.filter_eq_nil_iff, decide_eq_true_eq]
        intro timer member same
        have inside := sound.timers timer member
        omega
      rw [nothing, free]
      exact .settled rfl (by simp [MessageConsumer.new]) rfl rfl rfl
  · intro c mode busy
    rw [free] at busy
    cases busy
  · intro c m there aborted
    rcases get c m there with before | ⟨rfl, rfl⟩
    · exact sound.aborted c m before aborted
    · cases aborted
  · intro timer member
    have inside := sound.timers timer member
    simp only [List.length_append]
    omega

theorem Sound.proceeds (sound : Sound s) (free : s.thread = .free) {mode : ResumeMode}
    (move : s.proceed c mode = some t) : Sound t := by
  obtain ⟨m, here, rest⟩ := Option.bind_eq_some_iff.mp move
  have steady := sound.steady m (List.mem_of_getElem? here)
  have awaits := sound.awaits c m here
  rw [free, resuming_free] at awaits
  split at rest
  · cases rest
    exact sound
  · rename_i none_
    have none_ : m.resolve = none := Option.not_isSome_iff_eq_none.mp none_
    split at rest
    · rename_i some_
      cases rest
      have live := sound.live free here some_
      have busy := awaits.promise none_ mode
      refine sound.changes here _ _ _ (by simp) ?_ ?_ ?_ ?_ ?_ ?_ ?_
      · exact ⟨steady.startPaused, steady.sender, steady.stays, steady.calls, steady.waits,
          steady.runs, steady.ended⟩
      · rw [resuming_resumes, if_pos rfl]
        exact busy
      · intro c' apart
        rw [resuming_resumes, if_neg (Ne.symm apart), free]
        exact ⟨rfl, rfl⟩
      · intro c' mode' same
        cases same
        exact Or.inl ⟨rfl, live⟩
      · intro aborted
        exact absurd aborted (by simp [MessageConsumer.promise, live])
      · intro c' _ joins
        rw [free] at joins
        cases joins
      · intro timer member
        exact Or.inr member
    · rename_i some_
      cases rest
      have freed : m.callbackId = none := Option.not_isSome_iff_eq_none.mp some_
      refine sound.changes here (m.promise mode).reject s.timers s.thread sound.thread ?_ ?_
        (fun _ _ => ⟨rfl, rfl⟩) ?_ ?_ ?_ ?_
      · exact ⟨steady.startPaused, steady.sender, steady.stays, steady.calls, steady.waits,
          steady.runs, steady.ended⟩
      · rw [free]
        exact awaits.reject none_ freed mode
      · intro c' mode' busy
        rw [free] at busy
        cases busy
      · intro aborted
        exact Or.inl freed
      · intro c' _ joins
        exact joins
      · intro timer member
        exact Or.inr member

theorem Sound.room (sound : Sound s) {mode : ResumeMode} (busy : s.thread = .resumes c mode)
    (here : s.consumers[c]? = some m) :
    m.handler.aborted = false ∧ m.handler.task.isOver = false ∧ m.handler.signal = none := by
  obtain ⟨m', there, live⟩ := sound.resumes c mode busy
  obtain rfl := Option.some.inj (there.symm.trans here)
  have steady := sound.steady m' (List.mem_of_getElem? here)
  refine ⟨live, ?_, ?_⟩
  · cases task : m'.handler.task with
    | ended panicked =>
      cases panicked
      · exact absurd task (steady.runs live).2
      · exact absurd task steady.stays.2
    | _ => rfl
  · have awaits := sound.awaits c m' here
    rw [busy, resuming_resumes, if_pos rfl] at awaits
    cases awaits with
    | settled none_ ended values_ asked => simp [MessageConsumer.asked] at asked
    | stale before mode' last promises freed ended values_ asked =>
      simp [MessageConsumer.asked] at asked
    | pending before mode' last promises ended values_ asked given once =>
      simp only [MessageConsumer.asked, List.length_append, List.length_singleton] at once
      cases signal : m'.handler.signal with
      | none => rfl
      | some mode'' =>
        simp only [signal, Option.toList_some, List.length_singleton] at once
        omega

theorem Sound.resumed (sound : Sound s) {mode : ResumeMode} (busy : s.thread = .resumes c mode)
    (move : s.resumed c mode = some t) : Sound t := by
  obtain ⟨m, here, rest⟩ := Option.bind_eq_some_iff.mp move
  obtain ⟨live, runs, room⟩ := sound.room busy here
  have steady := sound.steady m (List.mem_of_getElem? here)
  have awaits := sound.awaits c m here
  rw [busy, resuming_resumes, if_pos rfl] at awaits
  simp only [runs, room, Option.isSome_none, Bool.false_eq_true, if_false,
    Option.some.injEq] at rest
  subst rest
  have asked : ({ m with handler := { m.handler with signal := some mode } } :
      MessageConsumer).asked [] = m.asked [mode] := by
    simp [MessageConsumer.asked, room]
  refine sound.changes here _ s.timers .free (by simp) ?_ ?_ ?_ ?_ ?_ ?_ ?_
  · exact ⟨steady.startPaused, steady.sender, steady.stays, steady.calls, steady.waits,
      steady.runs, steady.ended⟩
  · refine awaits.moves rfl rfl rfl (Or.inl rfl) ?_ rfl ?_
    · rw [resuming_free, asked]
    · intro alive
      rw [resuming_free]
      exact ⟨live, asked⟩
  · intro c' apart
    rw [busy, resuming_resumes, if_neg (Ne.symm apart)]
    exact ⟨rfl, rfl⟩
  · intro c' mode' none_
    cases none_
  · intro aborted
    rw [live] at aborted
    cases aborted
  · intro c' _ joins
    rw [busy] at joins
    cases joins
  · intro timer member
    exact Or.inr member

theorem Sound.frees (sound : Sound s) (free : s.thread = .free) (move : s.free c = some t) :
    Sound t := by
  obtain ⟨m, here, rest⟩ := Option.bind_eq_some_iff.mp move
  have steady := sound.steady m (List.mem_of_getElem? here)
  have awaits := sound.awaits c m here
  split at rest
  · rename_i some_
    cases rest
    refine sound.changes here _ s.timers (.joins c) (by simp) ?_ ?_ ?_ ?_ ?_ ?_ ?_
    · refine ⟨steady.startPaused, steady.sender, steady.stays, steady.calls, steady.waits, ?_, ?_⟩
      · intro alive
        cases alive
      · intro freed
        exact ⟨rfl, (steady.ended freed).2⟩
    · rw [free] at awaits
      refine awaits.moves rfl rfl rfl (Or.inl rfl) (List.Sublist.refl _) rfl ?_
      intro alive
      cases alive
    · intro c' _
      rw [free]
      exact ⟨rfl, rfl⟩
    · intro c' mode none_
      cases none_
    · intro _
      exact Or.inr rfl
    · intro c' _ joins
      rw [free] at joins
      cases joins
    · intro timer member
      exact Or.inr member
  · cases rest
    exact sound

theorem Sound.joined (sound : Sound s) (busy : s.thread = .joins c)
    (move : s.joined c = some t) : Sound t := by
  obtain ⟨m, here, rest⟩ := Option.bind_eq_some_iff.mp move
  have steady := sound.steady m (List.mem_of_getElem? here)
  have awaits := sound.awaits c m here
  split at rest
  · rename_i ended
    cases rest
    have gone : m.handler.aborted = true := by
      by_contra alive
      exact (steady.runs (by simpa using alive)).2 ended
    refine sound.changes here _ s.timers .free (by simp) ?_ ?_ ?_ ?_ ?_ ?_ ?_
    · refine ⟨steady.startPaused, steady.sender, steady.stays, steady.calls, steady.waits, ?_, ?_⟩
      · intro alive
        rw [gone] at alive
        cases alive
      · intro _
        exact ⟨gone, ended⟩
    · rw [busy] at awaits
      refine awaits.moves rfl rfl rfl (Or.inr rfl) (List.Sublist.refl _) rfl ?_
      intro alive
      exact ⟨alive, rfl⟩
    · intro c' _
      rw [busy]
      exact ⟨rfl, rfl⟩
    · intro c' mode none_
      cases none_
    · intro _
      exact Or.inl rfl
    · intro c' apart joins
      rw [busy, Thread.joins.injEq] at joins
      exact absurd joins.symm apart
    · intro timer member
      exact Or.inr member
  · rename_i panicked
    exact absurd panicked steady.stays.2
  · cases rest

theorem Sound.task (sound : Sound s) (here : s.consumers[c]? = some m) {act : TaskAct}
    {got : Option Nat} {m' : MessageConsumer} (move : m.task act got = some m') :
    Sound (s.put c m') := by
  have steady := sound.steady m (List.mem_of_getElem? here)
  have acts := task_acts steady move
  have same : m'.callbackId = m.callbackId ∧ m'.handler.aborted = m.handler.aborted := by
    cases acts <;> exact ⟨rfl, rfl⟩
  refine sound.changes here m' s.timers s.thread sound.thread (steady.task acts)
    ((sound.awaits c m here).task steady acts) (fun _ _ => ⟨rfl, rfl⟩) ?_ ?_ ?_ ?_
  · intro c' mode busy
    by_cases this : c' = c
    · subst this
      obtain ⟨m'', there, live⟩ := sound.resumes c' mode busy
      obtain rfl := Option.some.inj (there.symm.trans here)
      exact Or.inl ⟨rfl, same.2.trans live⟩
    · exact Or.inr ⟨this, busy⟩
  · rw [same.1, same.2]
    exact sound.aborted c m here
  · intro c' _ joins
    exact joins
  · intro timer member
    exact Or.inr member

theorem Sound.callback (sound : Sound s) (free : s.thread = .free)
    (move : s.callback c = some t) : Sound t := by
  obtain ⟨m, here, rest⟩ := Option.bind_eq_some_iff.mp move
  obtain ⟨message, calls, rest⟩ := Option.bind_eq_some_iff.mp rest
  cases rest
  have steady := sound.steady m (List.mem_of_getElem? here)
  refine sound.changes here _ _ s.thread sound.thread ?_ ?_ ?_ ?_ ?_ ?_ ?_
  · refine ⟨steady.startPaused, steady.sender, steady.stays, ?_, steady.waits, steady.runs,
      steady.ended⟩
    intro none_
    cases none_
  · refine (sound.awaits c m here).moves rfl rfl rfl (Or.inl rfl) (List.Sublist.refl _) ?_ ?_
    · simp [MessageConsumer.given, timersOf_append, calls]
    · intro alive
      exact ⟨alive, rfl⟩
  · intro c' apart
    refine ⟨rfl, ?_⟩
    rw [timersOf_append, if_neg (Ne.symm apart), List.append_nil]
  · intro c' mode busy
    rw [free] at busy
    cases busy
  · exact sound.aborted c m here
  · intro c' _ joins
    exact joins
  · intro timer member
    rcases List.mem_append.mp member with before | new
    · exact Or.inr before
    · rw [List.mem_singleton.mp new]
      exact Or.inl rfl

theorem Sound.timer (sound : Sound s) (free : s.thread = .free) {k : Nat}
    (move : s.timer k = some t) : Sound t := by
  obtain ⟨⟨c, message⟩, due, rest⟩ := Option.bind_eq_some_iff.mp move
  obtain ⟨m, here, rest⟩ := Option.bind_eq_some_iff.mp rest
  obtain ⟨⟨before, after, split, erased⟩, others⟩ := timersOf_erase due
  have steady := sound.steady m (List.mem_of_getElem? here)
  have awaits := sound.awaits c m here
  rw [free, resuming_free] at awaits
  obtain ⟨p, resolve, settled⟩ := awaits.fulfill split erased
  simp only [resolve, Option.some.injEq] at rest
  subst rest
  refine sound.changes here _ _ s.thread sound.thread ?_ ?_ ?_ ?_ ?_ ?_ ?_
  · exact ⟨steady.startPaused, steady.sender, steady.stays, steady.calls, steady.waits,
      steady.runs, steady.ended⟩
  · rw [free]
    exact settled
  · intro c' apart
    exact ⟨rfl, others c' apart⟩
  · intro c' mode busy
    rw [free] at busy
    cases busy
  · exact sound.aborted c m here
  · intro c' _ joins
    exact joins
  · intro timer member
    exact Or.inr (List.mem_of_mem_eraseIdx member)

theorem Sound.step (sound : Sound s) {l : Label} (move : next s l = some t) : Sound t := by
  cases l with
  | creates callbackId rt =>
    simp only [next] at move
    split at move <;> cases move
    rename_i allowed
    exact sound.creates allowed.1 callbackId rt
  | proceeds c mode =>
    simp only [next] at move
    split at move
    · rename_i free
      exact sound.proceeds free move
    · cases move
  | frees c =>
    simp only [next] at move
    split at move
    · rename_i free
      exact sound.frees free move
    · cases move
  | returns =>
    simp only [next] at move
    split at move
    · rename_i busy
      exact sound.resumed busy move
    · rename_i busy
      exact sound.joined busy move
    · cases move
  | task c act got =>
    simp only [next] at move
    split at move
    · cases move
    · obtain ⟨m, here, rest⟩ := Option.bind_eq_some_iff.mp move
      obtain ⟨m', acts, same⟩ := Option.bind_eq_some_iff.mp rest
      cases same
      exact sound.task here acts
  | callback c =>
    simp only [next] at move
    split at move
    · rename_i free
      exact sound.callback free move
    · cases move
  | timer k =>
    simp only [next] at move
    split at move
    · rename_i free
      exact sound.timer free move
    · cases move

theorem sound_of_run (run : LoopRun trace s) : Sound s := by
  refine reachable_invariant Sound ?_ (fun s l t sound move => sound.step move) ⟨trace, run⟩
  rintro s rfl
  refine ⟨by simp [init], by simp [init], by simp [init], by simp [init], by simp [init], ?_⟩
  intro timer member
  cases member

/-- No timer is without a promise, and no resumption finds the channel full or its handler gone. The
    promises of a consumer are resolved with what its handler has got, all of it and in its order;
    the last one at most is pending. -/
structure InTurn (s : State) : Prop where
  caught : s.thread ≠ .crashed
  room : ∀ c mode, s.thread = .resumes c mode → ∃ t m, next s .returns = some t ∧
    t.thread = .free ∧ t.consumers[c]? = some m ∧ m.handler.signal = some mode
  order : ∀ (c : Nat) m, s.consumers[c]? = some m →
    values m.promises ++ m.given (timersOf s.timers c) = m.called
  one : ∀ (c : Nat) m, s.consumers[c]? = some m → ∀ (i : Nat) promise,
    m.promises[i]? = some promise → promise.settled = .pending →
    m.resolve = some i ∧ i + 1 = m.promises.length
  /-- None is rejected before free, and only one of try_next gets null. -/
  ends : ∀ m ∈ s.consumers, ∀ promise ∈ m.promises,
    (promise.settled = .rejected → m.callbackId = none) ∧
      (promise.settled = .fulfilled none → promise.mode = .resumeTry)

theorem Awaits.order {resuming : List ResumeMode} {timers : List (Option Nat)}
    (awaits : Awaits m resuming timers) : values m.promises ++ m.given timers = m.called := by
  cases awaits with
  | settled none_ ended values_ asked given => rw [given, List.append_nil, values_]
  | pending before mode last promises ended values_ =>
    rw [promises, values_append]
    simpa [Promise.value] using values_
  | stale before mode last promises freed ended values_ asked given =>
    rw [promises, values_append, given]
    simpa [Promise.value] using values_

theorem Awaits.one {resuming : List ResumeMode} {timers : List (Option Nat)}
    (awaits : Awaits m resuming timers) {i : Nat} {promise : Promise}
    (there : m.promises[i]? = some promise) (open_ : promise.settled = .pending) :
    m.resolve = some i ∧ i + 1 = m.promises.length := by
  cases awaits with
  | settled none_ ended => exact absurd open_ (ended promise (List.mem_of_getElem? there)).settled
  | pending before mode last promises ended =>
    rw [promises] at there ⊢
    rw [List.getElem?_append] at there
    split at there
    · exact absurd open_ (ended promise (List.mem_of_getElem? there)).settled
    · rename_i beyond
      have inside := (List.getElem?_eq_some_iff.mp there).1
      simp only [List.length_singleton] at inside
      have place : i = before.length := by omega
      rw [place]
      exact ⟨last, by simp⟩
  | stale before mode last promises freed ended =>
    rw [promises, List.getElem?_append] at there
    split at there
    · exact absurd open_ (ended promise (List.mem_of_getElem? there)).settled
    · rw [List.mem_singleton.mp (List.mem_of_getElem? there)] at open_
      cases open_

theorem Awaits.ends {resuming : List ResumeMode} {timers : List (Option Nat)}
    (awaits : Awaits m resuming timers) {promise : Promise} (member : promise ∈ m.promises) :
    (promise.settled = .rejected → m.callbackId = none) ∧
      (promise.settled = .fulfilled none → promise.mode = .resumeTry) := by
  cases awaits with
  | settled none_ ended => exact ⟨(ended promise member).rejected, (ended promise member).null⟩
  | pending before mode last promises ended =>
    rw [promises, List.mem_append, List.mem_singleton] at member
    rcases member with earlier | rfl
    · exact ⟨(ended promise earlier).rejected, (ended promise earlier).null⟩
    · exact ⟨by simp, by simp⟩
  | stale before mode last promises freed ended =>
    refine ⟨fun _ => freed, ?_⟩
    rw [promises, List.mem_append, List.mem_singleton] at member
    rcases member with earlier | rfl
    · exact (ended promise earlier).null
    · simp

/-- However the program, the event loop and the tasks of the handlers take turns. -/
theorem promises_in_turn (run : LoopRun trace s) : InTurn s := by
  have sound := sound_of_run run
  refine ⟨sound.thread, ?_, ?_, ?_, ?_⟩
  · intro c mode busy
    obtain ⟨m, here, _⟩ := sound.resumes c mode busy
    obtain ⟨live, runs, room⟩ := sound.room busy here
    refine ⟨{ s.put c { m with handler := { m.handler with signal := some mode } } with
      thread := .free }, { m with handler := { m.handler with signal := some mode } }, ?_, rfl,
      ?_, rfl⟩
    · simp [next, busy, State.resumed, here, runs, room]
    · simp [State.put, set_get here]
  · intro c m here
    exact (sound.awaits c m here).order
  · intro c m here i promise there open_
    exact (sound.awaits c m here).one there open_
  · intro m member promise there
    obtain ⟨c, here⟩ := List.mem_iff_getElem?.mp member
    exact (sound.awaits c m here).ends there

/-- A consumer with a message, a null and a promise that is pending when it is freed, and one
    that a second consumer has got meanwhile. -/
theorem promises_in_turn_two_consumers : ∃ trace s, LoopRun trace s ∧
    s.consumers.map (fun m => m.promises.map Promise.settled) =
      [[.fulfilled (some 5), .fulfilled none, .pending], [.fulfilled (some 6)]] ∧
    InTurn s := by
  obtain ⟨trace, s, run, promises⟩ := execute_run next init
    [.creates 1 0, .creates 2 0, .proceeds 0 .resumeWait, .returns, .task 0 .polls none,
      .task 0 .hears none, .proceeds 1 .resumeWait, .returns, .task 0 .message (some 5),
      .callback 0, .task 1 .polls none, .task 1 .hears none, .timer 0, .proceeds 0 .resumeTry,
      .returns, .task 0 (.returns .actionPause) none, .task 1 .message (some 6),
      .task 0 .hears none, .callback 1, .callback 0, .timer 1, .timer 0,
      .proceeds 0 .resumeWait, .returns, .frees 0,
      .task 0 (.returns .actionPause) none, .task 0 .dropped none, .returns]
    (fun _ s => s.consumers.map (fun m => m.promises.map Promise.settled) =
      [[.fulfilled (some 5), .fulfilled none, .pending], [.fulfilled (some 6)]])
    (by decide +kernel)
  exact ⟨trace, s, run, promises, promises_in_turn run⟩

end Steps

end Deno.EventLoop
