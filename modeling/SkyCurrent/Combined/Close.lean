import SkyCurrent.Combined.Steps

/- close of backing/combined.rs, called by a task of the executor that runs the receiver task as
   well. The receiver task takes its steps on a worker thread of the executor and gives the
   thread up at its await points only; close keeps its thread until it returns. -/
namespace Combined

open Runs

inductive Closing where
  | notCalled
  | sendsClose
  | takesRecvSender
  | sendsSignal
  | awaitsSignal
  | joinsRecvThread
  | sendsSendClose
  | takesSendSender
  | joinsSendThread
  | resetsLocks
  | resetsReceiver
  | resetsBacking
  | returned
  deriving DecidableEq, Repr

inductive SendControl where
  | shutdownSignal
  | close
  deriving DecidableEq, Repr

structure Process where
  base : State
  /-- The receiver task is on a worker thread. -/
  running : Bool
  closing : Closing
  /-- IOX2_RECV_SENDER_TX and IOX2_SEND_SENDER_TX are still there. -/
  recvSender : Bool
  sendSender : Bool
  /-- How many calls of the channel come before Close. -/
  recvClose : Option Nat
  sendControl : Option (SendControl × Nat)
  signalReply : Bool
  recvExited : Bool
  sendExited : Bool
  /-- WAIT_STREAM_RECEIVER is still there. -/
  receiver : Bool

def Process.init : Process where
  base := Combined.init
  running := false
  closing := .notCalled
  recvSender := true
  sendSender := true
  recvClose := none
  sendControl := none
  signalReply := false
  recvExited := false
  sendExited := false
  receiver := true

def Closing.underWay : Closing → Bool
  | .notCalled => false
  | .returned => false
  | _ => true

def Process.busy (p : Process) : Nat :=
  p.running.toNat + p.closing.underWay.toNat

section ReceiverTask

/-- The lock of WAIT_STREAM_RECEIVER is held in wait_stream from before select! on, and by
    wait_stream_drain. -/
def Pc.holdsReceiver : Pc → Bool
  | .drain => true
  | .select => true
  | .drainAfterWait => true
  | _ => false

def Pc.holdsBacking : Pc → Bool
  | .drain => true
  | .tries _ => true
  | .tryRecvReply _ => true
  | .sendCopy _ _ => true
  | .sendStream _ _ => true
  | .sendStreamReply _ _ => true
  | _ => false

/-- A call of an actor that is gone fails, and the task panics. So does a wait without the
    channel. -/
def Process.fails (p : Process) : Process :=
  { p with base := p.base.fails .backingCrashedOrNotStarted }

def State.asksIox2 (s : State) (left : Nat) : Bool :=
  left != 0 && s.currentBacking == some .iox2 && !s.waitStreamLocks .iox2

def Process.recvGone (p : Process) : Bool := !p.recvSender || p.recvExited

def Process.sendGone (p : Process) : Bool := !p.sendSender || p.sendExited

def Process.calls (p : Process) (gone : Bool) : Option Process :=
  if gone then some p.fails else p.base.proceeds.map fun s => { p with base := s }

def Process.proceeds (p : Process) : Option Process :=
  if p.running then
    match p.base.pc with
    | .drain => p.calls (!p.receiver)
    | .tries left => p.calls (p.base.asksIox2 left && p.recvGone)
    | .sendStream _ _ => p.calls p.sendGone
    | .waitStream => p.calls (!p.base.waitStreamLocks .iox2 && p.recvGone || !p.receiver)
    | _ => p.calls false
  else none

def Process.wakes (p : Process) (backing : Backing) : Option Process :=
  if p.running then (p.base.wakes backing).map fun s => { p with base := s } else none

def Process.hearsExit (p : Process) : Option Process :=
  if p.running ∧ p.base.pc = .select ∧ p.recvExited ∧ p.base.waitStreamReceiver = [] then
    some { p with base := { p.base with subscription := none, pc := .drainAfterWait } }
  else none

/-- Where the task may give up its thread: asleep before the next call, in yield_now, in select!
    with nothing to hear in any branch, or for good. -/
def Process.pending (p : Process) : Bool :=
  match p.base.pc with
  | .betweenCalls => true
  | .tryRecvStream => true
  | .select =>
    p.base.waitStreamReceiver.isEmpty && p.base.subscription == some [] && !p.recvExited
  | .panicked => true
  | _ => false

def Process.suspends (p : Process) : Option Process :=
  if p.running && p.pending then some { p with running := false } else none

def Process.resumes (workers : Nat) (p : Process) : Option Process :=
  if p.running = false ∧ p.busy < workers then some { p with running := true } else none

end ReceiverTask

section Actors

def Process.recvActor (shouldCollect : List UInt8 → Bool) (p : Process) (act : RecvAct) :
    Option Process :=
  if p.recvExited ∨ p.recvClose = some 0 then none
  else
    (p.base.recvActor shouldCollect act).map fun s =>
      { p with base := s, recvClose := p.recvClose.map (· - 1) }

/-- The receive actor executes Close. The calls behind it are dropped, and with them the
    sender of the reply the task may wait for. -/
def Process.recvExits (p : Process) : Option Process :=
  if p.recvClose = some 0 ∧ p.recvExited = false then
    some { p with
      recvExited := true
      base := { p.base with
        recvCalls := []
        tryRecvReply :=
          if .tryRecvStream ∈ p.base.recvCalls then some (.error .backingCrashedOrNotStarted)
          else p.base.tryRecvReply } }
  else none

def Process.sendActor (p : Process) (act : SendAct) : Option Process :=
  match act with
  | .takes identification =>
    if p.sendExited ∨ p.sendControl.map (·.2) = some 0 then none
    else
      (p.base.sendActor (.takes identification)).map fun s =>
        { p with base := s, sendControl := p.sendControl.map fun (control, n) => (control, n - 1) }
  | act => (p.base.sendActor act).map fun s => { p with base := s }

def Process.sendControls (p : Process) : Option Process :=
  match p.base.sending, p.sendControl with
  | none, some (.shutdownSignal, 0) =>
    some { p with
      base := { p.base with listener := true }
      sendControl := none
      signalReply := true }
  | none, some (.close, 0) =>
    if p.sendExited then none
    else
      some { p with
        sendExited := true
        base := { p.base with
          sendCalls := []
          sendStreamReply :=
            if p.base.sendCalls.any (·.forwarded) then some (.error .backingCrashedOrNotStarted)
            else p.base.sendStreamReply } }
  | _, _ => none

end Actors

/-- A step of close. An actor is called while its channel has room, a sender taken while nobody
    is in a call with it, a thread joined when its actor has exited, and a lock taken while the
    receiver task does not hold it. -/
def Process.close (workers : Nat) (p : Process) : Option Process :=
  match p.closing with
  | .notCalled => if p.busy < workers then some { p with closing := .sendsClose } else none
  | .sendsClose =>
    if p.base.recvCalls.length < channelCapacity then
      some { p with recvClose := some p.base.recvCalls.length, closing := .takesRecvSender }
    else none
  | .takesRecvSender =>
    match p.base.pc with
    | .tryRecvReply _ => none
    | _ => some { p with recvSender := false, closing := .sendsSignal }
  | .sendsSignal =>
    if p.base.sendCalls.length < channelCapacity then
      some { p with
        sendControl := some (.shutdownSignal, p.base.sendCalls.length), closing := .awaitsSignal }
    else none
  | .awaitsSignal =>
    if p.signalReply then some { p with signalReply := false, closing := .joinsRecvThread }
    else none
  | .joinsRecvThread => if p.recvExited then some { p with closing := .sendsSendClose } else none
  | .sendsSendClose =>
    if p.base.sendCalls.length < channelCapacity then
      some { p with
        sendControl := some (.close, p.base.sendCalls.length), closing := .takesSendSender }
    else none
  | .takesSendSender =>
    match p.base.pc with
    | .sendStreamReply _ _ => none
    | _ =>
      if p.base.sendCalls.isEmpty && p.base.sending.isNone then
        some { p with sendSender := false, closing := .joinsSendThread }
      else none
  | .joinsSendThread => if p.sendExited then some { p with closing := .resetsLocks } else none
  | .resetsLocks =>
    some { p with
      base := { p.base with waitStreamLocks := fun _ => false }, closing := .resetsReceiver }
  | .resetsReceiver =>
    if p.base.pc.holdsReceiver then none
    else
      some { p with
        base := { p.base with waitStreamReceiver := [] }
        receiver := false
        closing := .resetsBacking }
  | .resetsBacking =>
    if p.base.pc.holdsBacking then none
    else
      some { p with
        base := { p.base with currentBacking := none, entered := p.base.now }
        closing := .returned }
  | .returned => none

inductive CloseLabel where
  | of (l : Label)
  | hearsExit
  | suspends
  | resumes
  | recvExits
  | sendControls
  | close

def Process.steps (shouldCollect : List UInt8 → Bool) (workers : Nat) (p : Process) (l : Label) :
    Option Process :=
  let goesOn := (Combined.next shouldCollect p.base l).map fun s => { p with base := s }
  match l with
  | .proceeds => p.proceeds
  | .wakes backing => p.wakes backing
  | .recvActor act => p.recvActor shouldCollect act
  | .sendActor act => p.sendActor act
  | .queues _ _ => if p.sendGone then none else goesOn
  | .client _ _ => if p.busy < workers then goesOn else none
  | .passes _ => goesOn
  | .mesh _ => goesOn

def Process.next (shouldCollect : List UInt8 → Bool) (workers : Nat) (p : Process) :
    CloseLabel → Option Process
  | .of l => p.steps shouldCollect workers l
  | .hearsExit => p.hearsExit
  | .suspends => p.suspends
  | .resumes => p.resumes workers
  | .recvExits => p.recvExits
  | .sendControls => p.sendControls
  | .close => p.close workers

abbrev ClosingRuns (shouldCollect : List UInt8 → Bool) (workers : Nat) :=
  Run (· = Process.init) (fun p l q => Process.next shouldCollect workers p l = some q)

/-- close waits for the lock the receiver task holds while it is suspended in wait_stream, and no
    thread is left to resume it. -/
structure ClosingDeadlock (workers : Nat) (p : Process) : Prop where
  waits : p.closing = .resetsReceiver
  parked : p.base.pc = .select
  suspended : p.running = false
  occupied : workers ≤ p.busy

/-- close is called with a second worker thread, or while the task is not in wait_stream. -/
def NotParked (workers : Nat) (p : Process) (l : CloseLabel) : Prop :=
  match l, p.closing with
  | .close, .notCalled => 2 ≤ workers ∨ p.base.pc ≠ .select
  | _, _ => True

theorem closingDeadlock_iff (workers : Nat) (p : Process) : ClosingDeadlock workers p ↔
    p.closing = .resetsReceiver ∧ p.base.pc = .select ∧ p.running = false ∧ workers ≤ p.busy :=
  ⟨fun ⟨waits, parked, suspended, occupied⟩ => ⟨waits, parked, suspended, occupied⟩,
    fun ⟨waits, parked, suspended, occupied⟩ => ⟨waits, parked, suspended, occupied⟩⟩

instance (workers : Nat) (p : Process) : Decidable (ClosingDeadlock workers p) :=
  decidable_of_iff _ (closingDeadlock_iff workers p).symm

instance (workers : Nat) (p : Process) : DecidablePred (NotParked workers p) := by
  intro l
  unfold NotParked
  split <;> infer_instance

variable {shouldCollect : List UInt8 → Bool} {workers : Nat} {p q : Process}

inductive ProcessStep (workers : Nat) (p q : Process) : CloseLabel → Prop where
  | task {l : CloseLabel} (other : l ≠ .close) (running : p.running = true)
      (same : q.running = true) (closing : q.closing = p.closing) : ProcessStep workers p q l
  | around {l : CloseLabel} (other : l ≠ .close) (running : q.running = p.running)
      (closing : q.closing = p.closing) (pc : q.base.pc = p.base.pc) : ProcessStep workers p q l
  | suspends (running : p.running = true) (same : q.running = false)
      (closing : q.closing = p.closing) (pc : q.base.pc = p.base.pc) :
      ProcessStep workers p q .suspends
  | resumes (running : p.running = false) (free : p.busy < workers) (same : q.running = true)
      (closing : q.closing = p.closing) (pc : q.base.pc = p.base.pc) :
      ProcessStep workers p q .resumes
  | calls (running : q.running = p.running) (pc : q.base.pc = p.base.pc)
      (called : p.closing = .notCalled) (free : p.busy < workers)
      (closing : q.closing = .sendsClose) : ProcessStep workers p q .close
  | goesOn (running : q.running = p.running) (pc : q.base.pc = p.base.pc)
      (underWay : p.closing.underWay = true) (later : q.closing ≠ .notCalled) :
      ProcessStep workers p q .close

theorem calls_frame {gone : Bool} (move : p.calls gone = some q) :
    q.running = p.running ∧ q.closing = p.closing := by
  unfold Process.calls at move
  split at move
  · cases move
    exact ⟨rfl, rfl⟩
  · obtain ⟨s, _, rfl⟩ := Option.map_eq_some_iff.mp move
    exact ⟨rfl, rfl⟩

theorem task_proceeds {l : Label} (move : p.proceeds = some q) :
    ProcessStep workers p q (.of l) := by
  unfold Process.proceeds at move
  split at move
  · rename_i running
    have frame : q.running = p.running ∧ q.closing = p.closing := by
      split at move
      all_goals exact calls_frame move
    exact .task (by simp) running (frame.1.trans running) frame.2
  · cases move

theorem close_cases (move : p.close workers = some q) : ProcessStep workers p q .close := by
  unfold Process.close at move
  split at move
  · rename_i called
    split at move <;> cases move
    rename_i free
    exact .calls rfl rfl called free rfl
  all_goals rename_i here
  all_goals first
    | (cases move; done)
    | (cases move; exact .goesOn rfl rfl (by rw [here]; rfl) (by simp))
    | (split at move <;> cases move; exact .goesOn rfl rfl (by rw [here]; rfl) (by simp))
    | (split at move
       · cases move
       · split at move <;> cases move
         exact .goesOn rfl rfl (by rw [here]; rfl) (by simp))

theorem recvActor_pc {s t : State} {act : RecvAct}
    (move : s.recvActor shouldCollect act = some t) : t.pc = s.pc := by
  cases recvActor_cases move with
  | page reply calls less frame => rw [frame]
  | wait reply calls iox2 frame => rw [frame]

theorem sendActor_process {act : SendAct} (move : p.sendActor act = some q) :
    q.running = p.running ∧ q.closing = p.closing ∧ q.base.pc = p.base.pc := by
  unfold Process.sendActor at move
  split at move
  · split at move
    · cases move
    · obtain ⟨s, moved, rfl⟩ := Option.map_eq_some_iff.mp move
      exact ⟨rfl, rfl, by rw [sendActor_frame moved]⟩
  · obtain ⟨s, moved, rfl⟩ := Option.map_eq_some_iff.mp move
    exact ⟨rfl, rfl, by rw [sendActor_frame moved]⟩

theorem process_cases {l : CloseLabel} (move : Process.next shouldCollect workers p l = some q) :
    ProcessStep workers p q l := by
  cases l with
  | of l =>
    cases l with
    | proceeds => exact task_proceeds move
    | wakes backing =>
      simp only [Process.next, Process.steps, Process.wakes] at move
      split at move
      · rename_i running
        obtain ⟨s, _, rfl⟩ := Option.map_eq_some_iff.mp move
        exact .task (by simp) running running rfl
      · cases move
    | recvActor act =>
      simp only [Process.next, Process.steps, Process.recvActor] at move
      split at move
      · cases move
      · obtain ⟨s, moved, rfl⟩ := Option.map_eq_some_iff.mp move
        exact .around (by simp) rfl rfl (recvActor_pc moved)
    | sendActor act =>
      obtain ⟨running, closing, pc⟩ := sendActor_process move
      exact .around (by simp) running closing pc
    | queues payload headerSize =>
      simp only [Process.next, Process.steps] at move
      split at move
      · cases move
      · obtain ⟨s, moved, rfl⟩ := Option.map_eq_some_iff.mp move
        exact .around (by simp) rfl rfl (by rw [queues_frame moved])
    | client c act =>
      simp only [Process.next, Process.steps] at move
      split at move
      · obtain ⟨s, moved, rfl⟩ := Option.map_eq_some_iff.mp move
        exact .around (by simp) rfl rfl (by rw [client_frame moved])
      · cases move
    | passes time =>
      cases move
      exact .around (by simp) rfl rfl rfl
    | mesh act =>
      obtain ⟨s, moved, rfl⟩ := Option.map_eq_some_iff.mp move
      exact .around (by simp) rfl rfl (by rw [mesh_frame moved])
  | hearsExit =>
    simp only [Process.next, Process.hearsExit] at move
    split at move <;> cases move
    rename_i guard
    exact .task (by simp) guard.1 guard.1 rfl
  | suspends =>
    simp only [Process.next, Process.suspends] at move
    split at move <;> cases move
    rename_i guard
    exact .suspends (Bool.and_eq_true_iff.mp guard).1 rfl rfl rfl
  | resumes =>
    simp only [Process.next, Process.resumes] at move
    split at move <;> cases move
    rename_i guard
    exact .resumes guard.1 guard.2 rfl rfl rfl
  | recvExits =>
    simp only [Process.next, Process.recvExits] at move
    split at move <;> cases move
    exact .around (by simp) rfl rfl rfl
  | sendControls =>
    simp only [Process.next, Process.sendControls] at move
    split at move
    · cases move
      exact .around (by simp) rfl rfl rfl
    · split at move <;> cases move
      exact .around (by simp) rfl rfl rfl
    · cases move
  | close => exact close_cases move

structure Process.Whole (p : Process) : Prop where
  recvSender : p.recvSender = true
  sendSender : p.sendSender = true
  recvClose : p.recvClose = none
  sendControl : p.sendControl = none
  recvExited : p.recvExited = false
  sendExited : p.sendExited = false
  receiver : p.receiver = true

theorem Process.Whole.proceeds (whole : p.Whole) (move : p.proceeds = some q) :
    ∃ s, p.base.proceeds = some s ∧ q = { p with base := s } := by
  have calls : ∀ gone, gone = false → p.calls gone = some q →
      ∃ s, p.base.proceeds = some s ∧ q = { p with base := s } := by
    rintro gone rfl move
    obtain ⟨s, moved, same⟩ := Option.map_eq_some_iff.mp move
    exact ⟨s, moved, same.symm⟩
  have recv : p.recvGone = false := by
    simp [Process.recvGone, whole.recvSender, whole.recvExited]
  have send : p.sendGone = false := by
    simp [Process.sendGone, whole.sendSender, whole.sendExited]
  unfold Process.proceeds at move
  split at move
  · split at move
    · exact calls _ (by simp [whole.receiver]) move
    · exact calls _ (by simp [recv]) move
    · exact calls _ send move
    · exact calls _ (by simp [recv, whole.receiver]) move
    · exact calls _ rfl move
  · cases move

theorem Process.Whole.same (whole : p.Whole) (base : State) (running : Bool) :
    Process.Whole { p with base, running } :=
  ⟨whole.recvSender, whole.sendSender, whole.recvClose, whole.sendControl, whole.recvExited,
    whole.sendExited, whole.receiver⟩

theorem Process.Whole.steps {l : Label} (whole : p.Whole)
    (move : Process.next shouldCollect workers p (.of l) = some q) :
    ∃ s, Combined.next shouldCollect p.base l = some s ∧ q = { p with base := s } := by
  cases l with
  | proceeds => exact whole.proceeds move
  | wakes backing =>
    simp only [Process.next, Process.steps, Process.wakes] at move
    split at move
    · obtain ⟨s, moved, same⟩ := Option.map_eq_some_iff.mp move
      exact ⟨s, moved, same.symm⟩
    · cases move
  | recvActor act =>
    simp only [Process.next, Process.steps, Process.recvActor] at move
    split at move
    · cases move
    · obtain ⟨s, moved, same⟩ := Option.map_eq_some_iff.mp move
      rw [whole.recvClose, Option.map_none, ← whole.recvClose] at same
      exact ⟨s, moved, same.symm⟩
  | sendActor act =>
    simp only [Process.next, Process.steps] at move
    unfold Process.sendActor at move
    split at move
    · split at move
      · cases move
      · obtain ⟨s, moved, same⟩ := Option.map_eq_some_iff.mp move
        rw [whole.sendControl, Option.map_none, ← whole.sendControl] at same
        exact ⟨s, moved, same.symm⟩
    · obtain ⟨s, moved, same⟩ := Option.map_eq_some_iff.mp move
      exact ⟨s, moved, same.symm⟩
  | queues payload headerSize =>
    simp only [Process.next, Process.steps] at move
    split at move
    · cases move
    · obtain ⟨s, moved, same⟩ := Option.map_eq_some_iff.mp move
      exact ⟨s, moved, same.symm⟩
  | client c act =>
    simp only [Process.next, Process.steps] at move
    split at move
    · obtain ⟨s, moved, same⟩ := Option.map_eq_some_iff.mp move
      exact ⟨s, moved, same.symm⟩
    · cases move
  | passes time =>
    cases move
    exact ⟨_, rfl, rfl⟩
  | mesh act =>
    obtain ⟨s, moved, same⟩ := Option.map_eq_some_iff.mp move
    exact ⟨s, moved, same.symm⟩

theorem Process.Whole.step {l : CloseLabel} (whole : p.Whole)
    (move : Process.next shouldCollect workers p l = some q) (called : q.closing = .notCalled) :
    q.Whole ∧ (q.base = p.base ∨ ∃ l, Combined.next shouldCollect p.base l = some q.base) := by
  cases l with
  | of l =>
    obtain ⟨s, moved, rfl⟩ := whole.steps move
    exact ⟨whole.same s p.running, Or.inr ⟨l, moved⟩⟩
  | hearsExit =>
    simp [Process.next, Process.hearsExit, whole.recvExited] at move
  | suspends =>
    simp only [Process.next, Process.suspends] at move
    split at move <;> cases move
    exact ⟨whole.same p.base false, Or.inl rfl⟩
  | resumes =>
    simp only [Process.next, Process.resumes] at move
    split at move <;> cases move
    exact ⟨whole.same p.base true, Or.inl rfl⟩
  | recvExits => simp [Process.next, Process.recvExits, whole.recvClose] at move
  | sendControls =>
    simp only [Process.next, Process.sendControls] at move
    split at move
    · rename_i control
      simp [whole.sendControl] at control
    · rename_i control
      simp [whole.sendControl] at control
    · cases move
  | close =>
    cases close_cases move with
    | task other => exact absurd rfl other
    | around other => exact absurd rfl other
    | calls _ _ _ _ closing =>
      rw [closing] at called
      cases called
    | goesOn _ _ _ later => exact absurd called later

theorem notCalled_before {l : CloseLabel} (move : Process.next shouldCollect workers p l = some q)
    (called : q.closing = .notCalled) : p.closing = .notCalled := by
  cases process_cases move with
  | task _ _ _ closing => exact closing ▸ called
  | around _ _ closing _ => exact closing ▸ called
  | suspends _ _ closing _ => exact closing ▸ called
  | resumes _ _ _ closing _ => exact closing ▸ called
  | calls _ _ _ _ closing =>
    rw [closing] at called
    cases called
  | goesOn _ _ _ later => exact absurd called later

theorem runs_before_close {trace : List (Process × CloseLabel)}
    (run : ClosingRuns shouldCollect workers trace p) (called : p.closing = .notCalled) :
    p.Whole ∧ ∃ steps, Runs shouldCollect steps p.base := by
  induction run with
  | nil first =>
    subst first
    exact ⟨⟨rfl, rfl, rfl, rfl, rfl, rfl, rfl⟩, [], .nil rfl⟩
  | snoc before move ih =>
    obtain ⟨whole, steps, run⟩ := ih (notCalled_before move called)
    obtain ⟨whole', same | ⟨l, moved⟩⟩ := whole.step move called
    · exact ⟨whole', steps, same ▸ run⟩
    · exact ⟨whole', _, run.snoc moved⟩

/-- While close is under way: with one thread only, the task stays where it was at the call,
    suspended, and in wait_stream exactly if the call was made outside the condition. -/
structure Occupied (workers : Nat) (trace : List (Process × CloseLabel)) (p : Process) : Prop where
  busy : p.busy ≤ workers
  before : p.closing = .notCalled → Meets (NotParked workers) trace
  alone : p.closing.underWay = true → workers ≤ 1 → p.running = false ∧
    (p.base.pc = .select ↔ ¬ Meets (NotParked workers) trace)
  others : 2 ≤ workers → Meets (NotParked workers) trace

theorem notParked_of_ne {l : CloseLabel} (other : l ≠ .close) : NotParked workers p l := by
  unfold NotParked
  split
  · exact absurd rfl other
  · trivial

theorem notParked_of_called {l : CloseLabel} (called : p.closing ≠ .notCalled) :
    NotParked workers p l := by
  unfold NotParked
  split
  · rename_i here
    exact absurd here called
  · trivial

theorem Occupied.step {trace : List (Process × CloseLabel)} {l : CloseLabel}
    (occupied : Occupied workers trace p) (move : Process.next shouldCollect workers p l = some q) :
    Occupied workers (trace ++ [(p, l)]) q := by
  obtain ⟨busy, before, alone, others⟩ := occupied
  have same : NotParked workers p l →
      (Meets (NotParked workers) (trace ++ [(p, l)]) ↔ Meets (NotParked workers) trace) := by
    intro meets
    rw [meets_snoc, and_iff_left meets]
  unfold Process.busy at busy
  cases process_cases move with
  | task other running still closing =>
    rw [running] at busy
    have meets := same (notParked_of_ne other)
    constructor
    · rwa [Process.busy, still, closing]
    · rwa [meets, closing]
    · intro underWay one
      rw [closing] at underWay
      rw [underWay] at busy
      exact absurd (busy.trans one) (by decide)
    · rwa [meets]
  | around other running closing pc =>
    have meets := same (notParked_of_ne other)
    constructor
    · rwa [Process.busy, running, closing]
    · rwa [meets, closing]
    · rwa [closing, running, pc, meets]
    · rwa [meets]
  | suspends running still closing pc =>
    have meets := same (notParked_of_ne (by simp))
    rw [running] at busy
    constructor
    · rw [Process.busy, still, closing]
      exact (Nat.add_le_add_right (Nat.zero_le _) _).trans busy
    · rwa [meets, closing]
    · intro underWay one
      rw [closing] at underWay
      rw [underWay] at busy
      exact absurd (busy.trans one) (by decide)
    · rwa [meets]
  | resumes suspended free running closing pc =>
    have meets := same (notParked_of_ne (by simp))
    rw [Process.busy, suspended] at free
    constructor
    · rw [Process.busy, running, closing, Nat.add_comm]
      simpa [Nat.succ_le_iff] using free
    · rwa [meets, closing]
    · intro underWay one
      rw [closing] at underWay
      rw [underWay] at free
      exact absurd (free.trans_le one) (by decide)
    · rwa [meets]
  | calls running pc called free closing =>
    rw [Process.busy, called] at free
    have meets := before called
    constructor
    · rw [Process.busy, running, closing]
      exact free
    · intro notYet
      rw [closing] at notYet
      cases notYet
    · intro _ one
      have asleep : p.running = false := by
        cases running : p.running with
        | false => rfl
        | true =>
          rw [running] at free
          exact absurd (free.trans_le one) (by decide)
      have few : ¬ 2 ≤ workers := by
        omega
      refine ⟨running.trans asleep, ?_⟩
      rw [meets_snoc, and_iff_right meets, pc]
      simp [NotParked, called, few]
    · intro many
      rw [meets_snoc]
      refine ⟨meets, ?_⟩
      simp [NotParked, called, many]
  | goesOn running pc underWay later =>
    have called : p.closing ≠ .notCalled := by
      intro notYet
      rw [notYet] at underWay
      cases underWay
    have meets := same (notParked_of_called called)
    rw [underWay] at busy
    constructor
    · rw [Process.busy, running]
      exact (Nat.add_le_add_left (Bool.toNat_le _) _).trans busy
    · exact fun notYet => absurd notYet later
    · rw [running, pc, meets]
      exact fun _ => alone underWay
    · rwa [meets]

theorem occupied_of_run {trace : List (Process × CloseLabel)}
    (run : ClosingRuns shouldCollect workers trace p) : Occupied workers trace p := by
  induction run with
  | nil first =>
    subst first
    constructor
    · exact Nat.zero_le _
    · exact fun _ => meets_nil _
    · intro underWay
      cases underWay
    · exact fun _ => meets_nil _
  | snoc before move ih => exact ih.step move

/-- Nobody gets out of it. -/
theorem ClosingDeadlock.lasts {l : CloseLabel} (deadlock : ClosingDeadlock workers p)
    (move : Process.next shouldCollect workers p l = some q) : ClosingDeadlock workers q := by
  obtain ⟨waits, parked, suspended, occupied⟩ := deadlock
  cases process_cases move with
  | task other running still closing =>
    rw [suspended] at running
    cases running
  | around other running closing pc =>
    refine ⟨closing.trans waits, pc.trans parked, running.trans suspended, ?_⟩
    rwa [Process.busy, running, closing]
  | suspends running still closing pc =>
    rw [suspended] at running
    cases running
  | resumes suspended free running closing pc => exact absurd occupied (Nat.not_le.mpr free)
  | calls running pc called free closing =>
    rw [waits] at called
    cases called
  | goesOn running pc underWay later =>
    simp [Process.next, Process.close, waits, parked, Pc.holdsReceiver] at move

def parks : List CloseLabel :=
  .resumes :: looks.map .of ++ [.of .proceeds, .of .proceeds, .suspends]

def closes : List CloseLabel :=
  [.close, .close, .close, .close, .sendControls, .close, .of (.recvActor .answers), .recvExits,
    .close, .close, .close, .sendControls, .close, .close]

/-- close does not block itself unless it takes the only thread from a task that is suspended in
    wait_stream; then it does when it comes to the lock. -/
theorem close_deadlocks_iff {trace : List (Process × CloseLabel)}
    (run : ClosingRuns shouldCollect workers trace p) :
    (Meets (NotParked workers) trace →
      Throughout (fun _ p => ¬ ClosingDeadlock workers p) trace p) ∧
    (p.closing = .resetsReceiver →
      (ClosingDeadlock workers p ↔ ¬ Meets (NotParked workers) trace)) := by
  have apart : ∀ {trace p}, ClosingRuns shouldCollect workers trace p →
      ClosingDeadlock workers p → ¬ Meets (NotParked workers) trace := by
    intro trace p run deadlock
    have one : workers ≤ 1 := by
      have occupied := deadlock.occupied
      rw [Process.busy, deadlock.suspended, deadlock.waits] at occupied
      exact occupied
    have underWay : p.closing.underWay = true := by
      rw [deadlock.waits]
      rfl
    exact ((occupied_of_run run).alone underWay one).2.mp deadlock.parked
  constructor
  · intro meets
    refine throughout_of_runs ?_ run meets
    intro trace p run meets deadlock
    exact apart run deadlock meets
  · intro waits
    refine ⟨apart run, fun outside => ?_⟩
    obtain ⟨busy, _, alone, others⟩ := occupied_of_run run
    have one : workers ≤ 1 := by
      by_contra many
      exact outside (others (Nat.lt_of_not_le many))
    obtain ⟨suspended, parked⟩ := alone (by rw [waits]; rfl) one
    refine ⟨waits, parked.mpr outside, suspended, ?_⟩
    rw [Process.busy, suspended, waits]
    exact one

/-- A second thread resumes the task, and close returns. -/
theorem closes_with_two_threads : ∃ trace p, ClosingRuns (fun _ => true) 2 trace p ∧
    Throughout (fun _ p => ¬ ClosingDeadlock 2 p) trace p ∧ p.closing = .returned := by
  obtain ⟨trace, p, run, meets, returned⟩ := execute_run (Process.next (fun _ => true) 2)
    Process.init
    (parks ++ closes ++ [.resumes, .of (.wakes .iox2), .of .proceeds, .close, .close])
    (fun trace p => (∀ e ∈ trace, NotParked 2 e.1 e.2) ∧ p.closing = .returned) (by decide +kernel)
  exact ⟨trace, p, run, (close_deadlocks_iff run).1 meets, returned⟩

/-- The only thread is in close, and the task it waits for needs it. -/
theorem close_deadlocks : ∃ trace p, ClosingRuns (fun _ => true) 1 trace p ∧
    ClosingDeadlock 1 p :=
  execute_run (Process.next (fun _ => true) 1) Process.init (parks ++ closes)
    (fun _ p => ClosingDeadlock 1 p) (by decide +kernel)

end Combined
