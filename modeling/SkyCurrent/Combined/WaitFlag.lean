import SkyCurrent.Combined.Steps

/- WAIT_STREAM_LOCKS against the WaitStream requests that are under way. A reply that is an
   error is taken out of WAIT_STREAM_RECEIVER before the flag is looked at, so the flag stays
   set when the request it stands for is over. -/
namespace Combined

open Runs

variable {shouldCollect : List UInt8 → Bool} {s t : State}

/-- WaitStream requests that are queued, executed, or answered but not yet consumed. -/
def State.unconsumed (s : State) : Nat :=
  s.recvCalls.count .waitStream + s.waitStreamReceiver.length

def State.consumes (s : State) : Label → Option (Except IpcError Backing)
  | .proceeds =>
    if s.pc = .drain ∨ s.pc = .drainAfterWait then s.waitStreamReceiver.head? else none
  | .wakes .iox2 => if s.pc = .select then s.waitStreamReceiver.head? else none
  | _ => none

structure TellsTruth (s : State) : Prop where
  flag : s.pc = .betweenCalls → (s.waitStreamLocks .iox2 = true ↔ s.unconsumed = 1)
  /-- No backing is left out whose wait is over. -/
  excluded : s.pc = .betweenCalls → ∀ backing, s.waitStreamLocks backing = true →
    backing = .iox2 ∧ s.unconsumed = 1
  /-- A backing that is asked for a page is not asked to wait. -/
  asked : ∀ left, s.pc = .tryRecvReply left → .waitStream ∉ s.recvCalls

inductive WaitMove (s : State) (l : Label) (t : State) : Prop where
  | elsewhere (locks : t.waitStreamLocks = s.waitStreamLocks)
      (replies : t.waitStreamReceiver = s.waitStreamReceiver)
      (calls : t.recvCalls = s.recvCalls)
      (asks : ∀ left, t.pc = .tryRecvReply left → s.pc = .tryRecvReply left)
      (stays : s.pc = .panicked → t.pc = .panicked)
  | asksForPage (free : s.waitStreamLocks .iox2 = false)
      (locks : t.waitStreamLocks = s.waitStreamLocks)
      (replies : t.waitStreamReceiver = s.waitStreamReceiver)
      (calls : t.recvCalls = s.recvCalls ++ [.tryRecvStream]) (runs : s.pc ≠ .panicked)
  | asksToWait (free : s.waitStreamLocks .iox2 = false)
      (locks : t.waitStreamLocks = Function.update s.waitStreamLocks .iox2 true)
      (replies : t.waitStreamReceiver = s.waitStreamReceiver)
      (calls : t.recvCalls = s.recvCalls ++ [.waitStream]) (pc : t.pc = .select)
  | hearsOk (backing : Backing) (consumed : s.consumes l = some (.ok backing))
      (locks : t.waitStreamLocks = Function.update s.waitStreamLocks backing false)
      (replies : s.waitStreamReceiver = .ok backing :: t.waitStreamReceiver)
      (calls : t.recvCalls = s.recvCalls) (asks : ∀ left, t.pc ≠ .tryRecvReply left)
  | hearsError (error : IpcError) (consumed : s.consumes l = some (.error error))
      (locks : t.waitStreamLocks = s.waitStreamLocks)
      (replies : s.waitStreamReceiver = .error error :: t.waitStreamReceiver)
      (calls : t.recvCalls = s.recvCalls)
      (pc : t.pc = if error.receiverRetries then .betweenCalls else .panicked)
  | givesPage (calls : s.recvCalls = .tryRecvStream :: t.recvCalls)
      (locks : t.waitStreamLocks = s.waitStreamLocks)
      (replies : t.waitStreamReceiver = s.waitStreamReceiver) (pc : t.pc = s.pc)
  | answers (reply : Except IpcError Backing)
      (calls : s.recvCalls = .waitStream :: t.recvCalls)
      (locks : t.waitStreamLocks = s.waitStreamLocks)
      (replies : t.waitStreamReceiver = s.waitStreamReceiver ++ [reply])
      (iox2 : reply = .ok .iox2 ∨ reply = .error .iox2ListenerWaitError ∨
        reply = .error .interruptSignalReceivedError)
      (pc : t.pc = s.pc)

section Moves

theorem fails_pc (error : IpcError) (left : Nat) : (s.fails error).pc ≠ .tryRecvReply left := by
  unfold State.fails
  cases error.receiverRetries <;> simp

theorem drains_moves {again after : Pc} (pc : s.pc = .drain ∨ s.pc = .drainAfterWait)
    (asksAgain : ∀ left, again ≠ .tryRecvReply left)
    (asksAfter : ∀ left, after ≠ .tryRecvReply left) :
    WaitMove s .proceeds (s.drains again after) := by
  unfold State.drains
  cases replies : s.waitStreamReceiver with
  | nil =>
    refine .elsewhere rfl replies.symm rfl (fun left asks => absurd asks (asksAfter left)) ?_
    intro panicked
    simp [panicked] at pc
  | cons reply rest =>
    have consumed : s.consumes .proceeds = some reply := by
      simp [State.consumes, pc, replies]
    cases reply with
    | error error => exact .hearsError error consumed rfl replies rfl rfl
    | ok backing => exact .hearsOk backing consumed rfl replies rfl asksAgain

theorem tries_moves {left : Nat} (pc : s.pc = .tries left) (move : s.tries left = some t) :
    WaitMove s .proceeds t := by
  have runs : s.pc ≠ .panicked := by simp [pc]
  unfold State.tries at move
  split at move
  · cases move
    exact .elsewhere rfl rfl rfl (by simp) (absurd · runs)
  · split at move
    · cases move
      exact .elsewhere rfl rfl rfl (by simp) (absurd · runs)
    · rename_i backing _
      split at move
      · cases move
        exact .elsewhere rfl rfl rfl (by simp) (absurd · runs)
      · rename_i free
        cases backing with
        | iox2 =>
          simp only at move
          split at move <;> cases move
          exact .asksForPage (Bool.eq_false_iff.mpr free) rfl rfl rfl runs
        | wsGateway =>
          simp only at move
          split at move
          · cases move
            exact .elsewhere rfl rfl rfl (by simp [State.triesNext]) (absurd · runs)
          · cases move
            unfold State.unframes
            split
            · exact .elsewhere rfl rfl rfl (by simp) (absurd · runs)
            · exact .elsewhere rfl rfl rfl (by simp) (absurd · runs)

theorem proceeds_moves (move : s.proceeds = some t) : WaitMove s .proceeds t := by
  cases proceeds_cases move with
  | calls pc => exact .elsewhere rfl rfl rfl (by simp) (by simp [pc])
  | startsOn pc =>
    rw [startsOn_frame]
    exact .elsewhere rfl rfl rfl (by simp) (by simp [pc])
  | drains pc => exact drains_moves (Or.inl pc) (by simp) (by simp)
  | tries left pc move => exact tries_moves pc move
  | hears left reply pc =>
    unfold State.hears
    split
    · exact .elsewhere rfl rfl rfl (fun left asks => absurd asks (fails_pc _ left)) (by simp [pc])
    all_goals exact .elsewhere rfl rfl rfl (by simp [State.triesNext]) (by simp [pc])
  | sendsCopy payload headerSize pc after frame =>
    rw [frame]
    exact .elsewhere rfl rfl rfl (by simp [after]) (by simp [pc])
  | sends payload headerSize pc => exact .elsewhere rfl rfl rfl (by simp) (by simp [pc])
  | resends payload headerSize reply pc here =>
    unfold State.resends
    cases reply with
    | ok _ => exact .elsewhere rfl rfl rfl (by simp) (by simp [pc])
    | error error =>
      refine .elsewhere rfl rfl rfl ?_ (by simp [pc])
      intro left asks
      simp only at asks
      split at asks <;> cases asks
  | selects pc locked => exact .elsewhere rfl rfl rfl (by simp) (by simp [pc])
  | asksToWait pc free => exact .asksToWait free rfl rfl rfl rfl
  | subscribes pc unsubscribed => exact .elsewhere rfl rfl rfl (by simp [pc]) (by simp [pc])
  | drainsAfterWait pc => exact drains_moves (Or.inr pc) (by simp) (by simp)

theorem wakes_moves {backing : Backing} (move : s.wakes backing = some t) :
    WaitMove s (.wakes backing) t := by
  obtain ⟨pc, ⟨reply, rest, rfl, replies, rfl⟩ | rfl⟩ := wakes_cases move
  · have consumed : s.consumes (.wakes .iox2) = some reply := by
      simp [State.consumes, pc, replies]
    cases reply with
    | error error => exact .hearsError error consumed rfl replies rfl rfl
    | ok backing =>
      refine .hearsOk backing consumed rfl replies rfl ?_
      simp [State.handleWaitStreamReturn]
  · exact .elsewhere rfl rfl rfl (by simp) (by simp [pc])

theorem recvActor_moves {act : RecvAct} (move : s.recvActor shouldCollect act = some t) :
    WaitMove s (.recvActor act) t := by
  cases recvActor_cases move with
  | page reply calls less frame =>
    rw [frame]
    exact .givesPage calls rfl rfl rfl
  | wait reply calls iox2 frame =>
    rw [frame]
    exact .answers reply calls rfl rfl iox2 rfl

theorem wait_moves {l : Label} (move : next shouldCollect s l = some t) : WaitMove s l t := by
  cases l with
  | passes time =>
    cases move
    exact .elsewhere rfl rfl rfl (fun _ asks => asks) id
  | proceeds => exact proceeds_moves move
  | wakes backing => exact wakes_moves move
  | recvActor act => exact recvActor_moves move
  | sendActor act =>
    rw [sendActor_frame move]
    exact .elsewhere rfl rfl rfl (fun _ asks => asks) id
  | queues payload headerSize =>
    rw [queues_frame move]
    exact .elsewhere rfl rfl rfl (fun _ asks => asks) id
  | client c act =>
    rw [client_frame move]
    exact .elsewhere rfl rfl rfl (fun _ asks => asks) id
  | mesh act =>
    rw [mesh_frame move]
    exact .elsewhere rfl rfl rfl (fun _ asks => asks) id

end Moves

structure Flagged (s : State) : Prop where
  gateway : s.waitStreamLocks .wsGateway = false
  free : s.waitStreamLocks .iox2 = false → s.unconsumed = 0
  once : s.unconsumed ≤ 1
  asked : ∀ left, s.pc = .tryRecvReply left → s.waitStreamLocks .iox2 = false
  replies : ∀ backing, .ok backing ∈ s.waitStreamReceiver → backing = .iox2

theorem Flagged.init : Flagged init := by
  refine ⟨rfl, fun _ => rfl, by decide, ?_, ?_⟩
  · intro left asks
    cases asks
  · intro backing member
    cases member

theorem Flagged.step {l : Label} (flagged : Flagged s) (move : next shouldCollect s l = some t) :
    Flagged t := by
  have gateway := flagged.gateway
  have free := flagged.free
  have once := flagged.once
  have replies := flagged.replies
  unfold State.unconsumed at free once
  cases wait_moves move with
  | elsewhere locks replies' calls asks _ =>
    refine ⟨by rw [locks, gateway], ?_, ?_, ?_, ?_⟩
    · rw [locks]
      unfold State.unconsumed
      rwa [replies', calls]
    · unfold State.unconsumed
      rwa [replies', calls]
    · intro left asked
      rw [locks]
      exact flagged.asked left (asks left asked)
    · rwa [replies']
  | asksForPage unlocked locks replies' calls _ =>
    have none_ := free unlocked
    have still : t.unconsumed = 0 := by simp [State.unconsumed, calls, replies', none_]
    refine ⟨by rw [locks, gateway], fun _ => still, by omega, ?_, ?_⟩
    · intro _ _
      rw [locks, unlocked]
    · rwa [replies']
  | asksToWait unlocked locks replies' calls pc =>
    have none_ := free unlocked
    have one : t.unconsumed = 1 := by
      simp only [State.unconsumed, calls, replies', List.count_append]
      simp
      omega
    refine ⟨by simp [locks, gateway], ?_, by omega, ?_, ?_⟩
    · simp [locks]
    · simp [pc]
    · rwa [replies']
  | hearsOk backing _ locks replies' calls asks =>
    have same : backing = .iox2 := replies backing (by simp [replies'])
    subst same
    rw [replies', List.length_cons] at once
    have none_ : t.unconsumed = 0 := by
      rw [State.unconsumed, calls]
      omega
    refine ⟨by simp [locks, gateway], fun _ => none_, by omega, ?_, ?_⟩
    · intro left asked
      exact absurd asked (asks left)
    · intro backing member
      exact replies backing (by simp [replies', member])
  | hearsError error _ locks replies' calls pc =>
    rw [replies', List.length_cons] at once free
    have none_ : t.unconsumed = 0 := by
      rw [State.unconsumed, calls]
      omega
    refine ⟨by rw [locks, gateway], fun _ => none_, by omega, ?_, ?_⟩
    · intro left asked
      rw [pc] at asked
      split at asked <;> cases asked
    · intro backing member
      exact replies backing (by simp [replies', member])
  | givesPage calls locks replies' pc =>
    rw [calls, List.count_cons_of_ne (by decide)] at free once
    refine ⟨by rw [locks, gateway], ?_, ?_, ?_, ?_⟩
    · rw [locks]
      unfold State.unconsumed
      rwa [replies']
    · unfold State.unconsumed
      rwa [replies']
    · rw [pc, locks]
      exact flagged.asked
    · rwa [replies']
  | answers reply calls locks replies' iox2 pc =>
    rw [calls, List.count_cons_self] at free once
    have same : t.unconsumed = t.recvCalls.count .waitStream + 1 + s.waitStreamReceiver.length := by
      simp only [State.unconsumed, replies', List.length_append, List.length_singleton]
      omega
    refine ⟨by rw [locks, gateway], ?_, ?_, ?_, ?_⟩
    · rw [locks, same]
      exact free
    · rw [same]
      exact once
    · rw [pc, locks]
      exact flagged.asked
    · intro backing member
      simp only [replies', List.mem_append, List.mem_singleton] at member
      rcases member with before | rfl
      · exact replies backing before
      · rcases iox2 with same | other | other
        · cases same
          rfl
        · cases other
        · cases other

/-- The flag is set only while the request it stands for is under way. -/
def Spoken (s : State) : Prop :=
  s.pc ≠ .panicked → s.waitStreamLocks .iox2 = true → s.unconsumed = 1

def State.hearsError (s : State) (l : Label) : Bool :=
  match s.consumes l with
  | some (.error error) => error.receiverRetries
  | _ => false

def NoErrorHeard (s : State) (l : Label) : Prop := s.hearsError l = false

instance (s : State) (l : Label) : Decidable (NoErrorHeard s l) :=
  inferInstanceAs (Decidable (_ = _))

theorem Spoken.step {l : Label} (flagged : Flagged s) (spoken : Spoken s)
    (clean : NoErrorHeard s l) (move : next shouldCollect s l = some t) : Spoken t := by
  intro runs locked
  cases wait_moves move with
  | elsewhere locks replies calls _ stays =>
    rw [locks] at locked
    have one := spoken (fun panicked => runs (stays panicked)) locked
    unfold State.unconsumed at one ⊢
    rwa [replies, calls]
  | asksForPage free locks _ _ _ =>
    rw [locks, free] at locked
    cases locked
  | asksToWait free _ replies calls _ =>
    have none_ := flagged.free free
    unfold State.unconsumed at none_ ⊢
    rw [replies, calls, List.count_append]
    simp
    omega
  | hearsOk backing _ locks replies _ _ =>
    have same : backing = .iox2 := flagged.replies backing (by simp [replies])
    simp [locks, same] at locked
  | hearsError error consumed _ _ _ pc =>
    have final : error.receiverRetries = false := by
      simpa [NoErrorHeard, State.hearsError, consumed] using clean
    rw [final] at pc
    exact absurd pc runs
  | givesPage calls locks replies pc =>
    rw [locks] at locked
    have one := spoken (pc ▸ runs) locked
    unfold State.unconsumed at one ⊢
    rw [calls, List.count_cons_of_ne (by decide)] at one
    rwa [replies]
  | answers reply calls locks replies _ pc =>
    rw [locks] at locked
    have one := spoken (pc ▸ runs) locked
    unfold State.unconsumed at one ⊢
    rw [calls, List.count_cons_self] at one
    simp only [replies, List.length_append, List.length_singleton]
    omega

theorem Flagged.tellsTruth (flagged : Flagged s) (spoken : Spoken s) : TellsTruth s := by
  have truth (between : s.pc = .betweenCalls) (locked : s.waitStreamLocks .iox2 = true) :
      s.unconsumed = 1 := spoken (by simp [between]) locked
  constructor
  · intro between
    refine ⟨truth between, ?_⟩
    intro one
    by_contra unlocked
    have none_ := flagged.free (Bool.eq_false_iff.mpr unlocked)
    omega
  · intro between backing locked
    cases backing with
    | iox2 => exact ⟨rfl, truth between locked⟩
    | wsGateway =>
      rw [flagged.gateway] at locked
      cases locked
  · intro left asks member
    have none_ := flagged.free (flagged.asked left asks)
    have some_ := List.count_pos_iff.mpr member
    unfold State.unconsumed at none_
    omega

theorem flagged_of_run {trace : List (State × Label)} (run : Runs shouldCollect trace s) :
    Flagged s :=
  reachable_invariant Flagged (by rintro s rfl; exact .init)
    (fun _ _ _ flagged move => flagged.step move) ⟨trace, run⟩

theorem hearsError_some {l : Label} (heard : s.hearsError l = true) :
    ∃ error, s.consumes l = some (.error error) ∧ error.receiverRetries = true := by
  unfold State.hearsError at heard
  split at heard
  · rename_i error consumed
    exact ⟨error, consumed, heard⟩
  · cases heard

theorem error_heard {l : Label} {error : IpcError}
    (consumed : s.consumes l = some (.error error)) (move : next shouldCollect s l = some t) :
    ∃ rest, s.waitStreamReceiver = .error error :: rest ∧
      t = { s with waitStreamReceiver := rest }.fails error := by
  have head : s.waitStreamReceiver.head? = some (.error error) := by
    unfold State.consumes at consumed
    split at consumed
    · split at consumed
      · exact consumed
      · cases consumed
    · split at consumed
      · exact consumed
      · cases consumed
    · cases consumed
  obtain ⟨rest, replies⟩ := List.head?_eq_some_iff.mp head
  refine ⟨rest, replies, ?_⟩
  unfold State.consumes at consumed
  split at consumed
  · split at consumed
    · rename_i pc
      rcases pc with pc | pc
      all_goals
        simp [next, State.proceeds, pc, State.drains, replies,
          State.handleWaitStreamReturn] at move
        exact move.symm
    · cases consumed
  · split at consumed
    · rename_i pc
      simp [next, State.wakes, pc, replies, State.handleWaitStreamReturn] at move
      exact move.symm
    · cases consumed
  · cases consumed

/-- The flag tells the truth as long as no wait that is consumed has ended in an error after
    which recv_stream is called again, and stops to with the first that has. -/
theorem flag_tells_truth_iff {trace : List (State × Label)}
    (run : Runs shouldCollect trace s) :
    Throughout (fun _ s => TellsTruth s) trace s ↔ Meets NoErrorHeard trace := by
  constructor
  · intro holds
    refine meets_of_throughout ?_ run holds
    intro trace s l t before _ move heard truth
    obtain ⟨error, consumed, retries⟩ := hearsError_some (Bool.eq_true_of_not_eq_false heard)
    obtain ⟨rest, replies, rfl⟩ := error_heard consumed move
    have flagged := flagged_of_run before
    have once := flagged.once
    have free := flagged.free
    unfold State.unconsumed at once free
    rw [replies, List.length_cons] at once free
    have locked : s.waitStreamLocks .iox2 = true := by
      by_contra unlocked
      have none_ := free (Bool.eq_false_iff.mpr unlocked)
      omega
    have between : ({ s with waitStreamReceiver := rest }.fails error).pc = .betweenCalls := by
      simp [State.fails, retries]
    have one := (truth.flag between).mp locked
    have none_ : ({ s with waitStreamReceiver := rest }.fails error).unconsumed =
        s.recvCalls.count .waitStream + rest.length := rfl
    omega
  · intro clean
    apply throughout_of_runs _ run clean
    intro trace s run clean
    have both : Flagged s ∧ Spoken s := by
      apply run_invariant (fun _ s => Flagged s ∧ Spoken s) _ _ run clean
      · rintro s rfl
        refine ⟨.init, ?_⟩
        intro _ locked
        cases locked
      · intro trace s l t _ inv clean move
        exact ⟨inv.1.step move, inv.2.step inv.1 clean move⟩
    exact both.1.tellsTruth both.2

/-- A page arrives, and the reply to the wait is consumed. -/
theorem flag_tells_truth_message : ∃ trace s, Runs (fun _ => true) trace s ∧
    Throughout (fun _ s => TellsTruth s) trace s ∧ s.pc = .tryRecvStream := by
  obtain ⟨trace, s, run, clean, pc⟩ := execute_run (next fun _ => true) init
    (looks ++ [.proceeds, .proceeds, .mesh .notifies, .recvActor .answers, .wakes .iox2, .proceeds])
    (fun trace s => (∀ e ∈ trace, NoErrorHeard e.1 e.2) ∧ s.pc = .tryRecvStream)
    (by decide +kernel)
  exact ⟨trace, s, run, (flag_tells_truth_iff run).mpr clean, pc⟩

/-- The flag stays set after a wait that has ended in an error, and no request is under way. -/
theorem flag_left_set : ∃ trace s, Runs (fun _ => true) trace s ∧ s.pc = .betweenCalls ∧
    s.waitStreamLocks .iox2 = true ∧ s.unconsumed = 0 :=
  execute_run (next fun _ => true) init
    (looks ++ [.proceeds, .proceeds, .recvActor (.errs .iox2ListenerWaitError), .wakes .iox2])
    (fun _ s => s.pc = .betweenCalls ∧ s.waitStreamLocks .iox2 = true ∧ s.unconsumed = 0)
    (by decide +kernel)

/-- From there on it stays set, and iox2 is neither asked for a page nor to wait again. -/
theorem left_set_step {l : Label} (locked : s.waitStreamLocks .iox2 = true)
    (gone : s.unconsumed = 0) (move : next shouldCollect s l = some t) :
    t.waitStreamLocks .iox2 = true ∧ t.unconsumed = 0 ∧
      t.recvCalls.length ≤ s.recvCalls.length := by
  unfold State.unconsumed at gone
  cases wait_moves move with
  | elsewhere locks replies calls _ _ =>
    unfold State.unconsumed
    rw [locks, replies, calls]
    exact ⟨locked, gone, le_rfl⟩
  | asksForPage free _ _ _ _ =>
    rw [free] at locked
    cases locked
  | asksToWait free _ _ _ _ =>
    rw [free] at locked
    cases locked
  | hearsOk backing _ _ replies _ _ =>
    rw [replies, List.length_cons] at gone
    omega
  | hearsError error _ _ replies _ _ =>
    rw [replies, List.length_cons] at gone
    omega
  | givesPage calls locks replies _ =>
    rw [calls, List.count_cons_of_ne (by decide)] at gone
    unfold State.unconsumed
    rw [locks, replies, calls]
    exact ⟨locked, gone, Nat.le_succ _⟩
  | answers reply calls _ _ _ _ =>
    rw [calls, List.count_cons_self] at gone
    omega

end Combined
