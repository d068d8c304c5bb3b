import SkyCurrent.Combined.Requests

/- Forwarding a message of the gateway to the mesh. The receiver task waits for the send actor,
   whose pages go into the buffer of this process's own subscriber too, and only the receiver
   task has pages taken out of it. -/
namespace Combined

open Runs

variable {shouldCollect : List UInt8 → Bool} {s t : State}

def pagesToForward : List SendCall → Nat
  | [] => 0
  | call :: rest =>
    pageCount call.payload call.headerSize + if call.forwarded then 0 else pagesToForward rest

def State.pagesAhead (s : State) : Nat :=
  match s.sending with
  | none => pagesToForward s.sendCalls
  | some sending =>
    sending.left.length + if sending.forwarded then 0 else pagesToForward s.sendCalls

def State.awaits (s : State) : Bool :=
  match s.pc, s.sendStreamReply with
  | .sendStreamReply _ _, none => true
  | _, _ => false

def State.waitsForRoom (s : State) : Bool :=
  match s.sending with
  | some ⟨_ :: _, _, _, false, _⟩ => s.subscriber.length == bufferSize
  | _ => false

def Deadlocked (s : State) : Prop := s.awaits = true ∧ s.waitsForRoom = true

instance (s : State) : Decidable (Deadlocked s) := inferInstanceAs (Decidable (_ ∧ _))

/-- A message is forwarded, and while it is a page comes in from the mesh, only if the buffer
    has room for all the pages until the answer. -/
def HasRoom (s : State) (l : Label) : Prop :=
  match l, s.pc with
  | .proceeds, .sendStream payload headerSize =>
    s.subscriber.length + s.pagesAhead + pageCount payload headerSize ≤ bufferSize
  | .mesh (.publishes _), .sendStreamReply _ _ =>
    s.sendStreamReply = none → s.subscriber.length + s.pagesAhead < bufferSize
  | _, _ => True

instance (s : State) (l : Label) : Decidable (HasRoom s l) := by
  unfold HasRoom
  split <;> infer_instance

theorem pagesToForward_snoc (calls : List SendCall) (call : SendCall) :
    pagesToForward (calls ++ [call]) = pagesToForward calls +
      if calls.countP (·.forwarded) = 0 then pageCount call.payload call.headerSize else 0 := by
  induction calls with
  | nil => simp [pagesToForward]
  | cons first calls ih =>
    simp only [List.cons_append, pagesToForward, List.countP_cons]
    by_cases forwarded : first.forwarded = true
    · simp [forwarded]
    · simp only [forwarded, ih]
      simp [Nat.add_assoc]

section Room

def Room (s : State) : Prop :=
  s.awaits = true → s.subscriber.length + s.pagesAhead ≤ bufferSize

theorem awaits_iff : s.awaits = true ↔ s.pc.forwards = true ∧ s.sendStreamReply = none := by
  unfold State.awaits Pc.forwards
  cases s.pc <;> cases s.sendStreamReply <;> simp

theorem ahead_of_sendActor (moved : SendMove s t) (pc : t.pc = s.pc) (awaits : t.awaits = true) :
    s.awaits = true ∧
      t.subscriber.length + t.pagesAhead ≤ s.subscriber.length + s.pagesAhead := by
  rw [awaits_iff, pc] at awaits
  rw [awaits_iff]
  cases moved with
  | takes call sending idle calls is forwarded pages busy _ reply subscriber =>
    refine ⟨by rwa [← reply], ?_⟩
    simp only [State.pagesAhead, is, idle, calls, pagesToForward, forwarded, pages, subscriber]
    exact Nat.le_refl _
  | rejects call result idle calls pages done reply subscriber =>
    rw [reply] at awaits
    cases forwarded : call.forwarded with
    | true => simp [forwarded] at awaits
    | false =>
      simp only [forwarded, Bool.false_eq_true, if_false] at awaits
      refine ⟨awaits, ?_⟩
      simp only [State.pagesAhead, done, idle, calls, pagesToForward, forwarded, subscriber,
        Bool.false_eq_true, if_false]
      omega
  | publishes sending sending' page was is forwarded left notifies room calls reply subscriber =>
    refine ⟨by rwa [← reply], ?_⟩
    simp only [State.pagesAhead, was, is, forwarded, left, calls, subscriber,
      List.length_append, List.length_cons, List.length_nil]
    omega
  | goesOn sending sending' was is forwarded left busy calls reply subscriber =>
    refine ⟨by rwa [← reply], ?_⟩
    simp only [State.pagesAhead, was, is, forwarded, calls, subscriber]
    omega
  | ends sending result was done calls reply subscriber =>
    rw [reply] at awaits
    cases forwarded : sending.forwarded with
    | true => simp [forwarded] at awaits
    | false =>
      simp only [forwarded, Bool.false_eq_true, if_false] at awaits
      refine ⟨awaits, ?_⟩
      simp only [State.pagesAhead, was, done, calls, forwarded, subscriber, Bool.false_eq_true,
        if_false]
      omega

theorem pagesAhead_snoc (call : SendCall) (calls : t.sendCalls = s.sendCalls ++ [call])
    (sending : t.sending = s.sending) : t.pagesAhead = s.pagesAhead +
      if s.sendCalls.countP (·.forwarded) + s.sending.toList.countP (·.forwarded) = 0 then
        pageCount call.payload call.headerSize
      else 0 := by
  simp only [State.pagesAhead, calls, sending, pagesToForward_snoc]
  cases s.sending with
  | none => simp
  | some sending =>
    cases forwarded : sending.forwarded with
    | true => simp [forwarded]
    | false => simp [forwarded, Nat.add_assoc]

theorem queues_calls {payload : List UInt8} {headerSize : Nat}
    (move : s.queues payload headerSize = some t) :
    t.sendCalls = s.sendCalls ++ [⟨payload, headerSize, false⟩] := by
  unfold State.queues at move
  split at move <;> cases move
  rfl

theorem Orderly.queued (orderly : Orderly s) (awaits : s.awaits = true) :
    s.sendCalls.countP (·.forwarded) + s.sending.toList.countP (·.forwarded) = 1 := by
  obtain ⟨pc, reply⟩ := awaits_iff.mp awaits
  simpa [State.underWay, pc, reply] using orderly.one

theorem Orderly.nothingQueued (orderly : Orderly s) (elsewhere : s.pc.forwards = false) :
    s.sendCalls.countP (·.forwarded) + s.sending.toList.countP (·.forwarded) = 0 := by
  have one := orderly.one
  rw [elsewhere, State.underWay] at one
  simp only [Bool.false_eq_true, if_false] at one
  omega

theorem ahead_of_send (orderly : Orderly s) {payload : List UInt8} {headerSize : Nat}
    (pc : s.pc = .sendStream payload headerSize)
    (calls : t.sendCalls = s.sendCalls ++ [⟨payload, headerSize, true⟩])
    (sending : t.sending = s.sending) :
    t.pagesAhead = s.pagesAhead + pageCount payload headerSize := by
  have nothing := orderly.nothingQueued (by rw [pc]; rfl)
  rw [pagesAhead_snoc _ calls sending, if_pos nothing]

theorem Room.step {l : Label} (orderly : Orderly s) (room : Room s) (hasRoom : HasRoom s l)
    (move : next shouldCollect s l = some t) : Room t := by
  intro awaits
  cases l with
  | passes time =>
    cases move
    exact room awaits
  | proceeds =>
    rcases proceeds_sends move with ⟨payload, headerSize, pc, sends⟩ | ⟨_, _, elsewhere, _⟩ |
      ⟨_, elsewhere, _⟩
    · have more : t.pagesAhead = s.pagesAhead + pageCount payload headerSize :=
        ahead_of_send orderly pc (by rw [sends]) (by rw [sends])
      have buffer : t.subscriber = s.subscriber := by rw [sends]
      simp only [HasRoom, pc] at hasRoom
      rw [more, buffer]
      omega
    · rw [awaits_iff, elsewhere] at awaits
      cases awaits.1
    · rw [awaits_iff, elsewhere] at awaits
      cases awaits.1
  | wakes backing =>
    obtain ⟨_, elsewhere, _⟩ := wakes_sends move
    rw [awaits_iff, elsewhere] at awaits
    cases awaits.1
  | recvActor act =>
    cases recvActor_cases move with
    | page reply calls less frame =>
      have waited : s.awaits = true := by
        rw [frame] at awaits
        exact awaits
      have before := room waited
      have ahead : t.pagesAhead = s.pagesAhead := by rw [frame]; rfl
      omega
    | wait reply calls iox2 frame =>
      rw [frame] at awaits ⊢
      exact room awaits
  | sendActor act =>
    obtain ⟨waited, less⟩ := ahead_of_sendActor (sendActor_sends orderly move)
      (by rw [sendActor_frame move]) awaits
    exact Nat.le_trans less (room waited)
  | queues payload headerSize =>
    have calls := queues_calls move
    have same := queues_frame move
    have waited : s.awaits = true := by
      rw [same] at awaits
      exact awaits
    have one := orderly.queued waited
    have ahead := pagesAhead_snoc _ calls (by rw [same])
    have buffer : t.subscriber = s.subscriber := by rw [same]
    rw [if_neg (by omega)] at ahead
    rw [ahead, buffer]
    exact room waited
  | client c act =>
    rw [client_frame move] at awaits ⊢
    exact room awaits
  | mesh act =>
    cases act with
    | publishes page =>
      simp only [next, State.mesh] at move
      split at move <;> cases move
      have waited : s.awaits = true := awaits
      obtain ⟨pc, reply⟩ := awaits_iff.mp waited
      have fits : s.subscriber.length + s.pagesAhead < bufferSize := by
        unfold Pc.forwards at pc
        split at pc
        · rename_i here
          simp only [HasRoom, here] at hasRoom
          exact hasRoom reply
        · cases pc
      simp only [List.length_append, List.length_singleton]
      have ahead : State.pagesAhead { s with subscriber := s.subscriber ++ [page] } =
          s.pagesAhead := rfl
      omega
    | notifies =>
      cases move
      exact room awaits

theorem Room.notDeadlocked (room : Room s) : ¬ Deadlocked s := by
  rintro ⟨awaits, waits⟩
  have fits := room awaits
  unfold State.waitsForRoom at waits
  split at waits
  · rename_i sending
    have full : s.subscriber.length = bufferSize := by simpa using waits
    have some_ : 0 < s.pagesAhead := by
      simp only [State.pagesAhead, sending, List.length_cons]
      omega
    omega
  · cases waits

end Room

section Deadlock

/-- The task waits, and the pages until the answer do not fit into the buffer. -/
def Doomed (s : State) : Prop :=
  s.awaits = true ∧ bufferSize < s.subscriber.length + s.pagesAhead

def State.work (s : State) : Nat :=
  (s.sendCalls.map fun call => 2 * pageCount call.payload call.headerSize + 1).sum +
    match s.sending with
    | none => 0
    | some sending => 2 * sending.left.length + if sending.notifies then 1 else 0

theorem Doomed.takes (orderly : Orderly s) (doomed : Doomed s) (idle : s.sending = none) :
    ∃ t, s.sendActor (.takes 1) = some t ∧ Doomed t ∧ t.work < s.work := by
  obtain ⟨awaits, tight⟩ := doomed
  have bounded := orderly.bounded
  cases calls : s.sendCalls with
  | nil =>
    simp only [State.pagesAhead, idle, calls, pagesToForward] at tight
    omega
  | cons call rest =>
    obtain ⟨t, move⟩ : ∃ t, s.sendActor (.takes 1) = some t := by
      simp only [State.sendActor, idle, State.takesCall, calls]
      rw [if_neg (by decide)]
      split <;> exact ⟨_, rfl⟩
    have moved := sendActor_sends orderly move
    have pc : t.pc = s.pc := by rw [sendActor_frame move]
    refine ⟨t, move, ?_⟩
    rw [Doomed, awaits_iff, pc]
    rw [awaits_iff] at awaits
    cases moved with
    | takes call' sending _ calls' is forwarded pages busy notYet reply subscriber =>
      obtain ⟨rfl, same⟩ := List.cons.inj (calls.symm.trans calls')
      have ahead : t.pagesAhead = s.pagesAhead := by
        simp only [State.pagesAhead, is, idle, calls', pagesToForward, forwarded, pages]
      refine ⟨⟨by rwa [reply], by rwa [ahead, subscriber]⟩, ?_⟩
      simp only [State.work, is, idle, calls', pages, notYet, List.map_cons, List.sum_cons]
      simp
      omega
    | rejects call' result _ calls' pages done reply subscriber =>
      obtain ⟨rfl, same⟩ := List.cons.inj (calls.symm.trans calls')
      have behind : call.forwarded = false := by
        apply Bool.eq_false_iff.mpr
        intro answers
        simp only [State.pagesAhead, idle, calls', pagesToForward, pages, answers, if_true] at tight
        omega
      have ahead : t.pagesAhead = s.pagesAhead := by
        simp [State.pagesAhead, done, idle, calls', pagesToForward, pages, behind]
      rw [behind] at reply
      refine ⟨⟨⟨awaits.1, reply.trans awaits.2⟩, by rwa [ahead, subscriber]⟩, ?_⟩
      simp [State.work, done, idle, calls', pages]
    | publishes _ _ _ was => simp [idle] at was
    | goesOn _ _ was => simp [idle] at was
    | ends _ _ was => simp [idle] at was

theorem Doomed.step (orderly : Orderly s) (doomed : Doomed s) (notYet : ¬ Deadlocked s) :
    ∃ act t, s.sendActor act = some t ∧ Doomed t ∧ t.work < s.work := by
  cases now : s.sending with
  | none =>
    obtain ⟨t, move, more⟩ := doomed.takes orderly now
    exact ⟨_, t, move, more⟩
  | some sending =>
    obtain ⟨awaits, tight⟩ := doomed
    have bounded := orderly.bounded
    have waited := awaits_iff.mp awaits
    obtain ⟨left, fragmented, forwarded, notifies, result⟩ := sending
    cases notifies with
    | false =>
      cases left with
      | nil => exact absurd rfl (orderly.busy _ now rfl)
      | cons page left =>
        -- Only a full buffer stops the page, and that is the deadlock.
        have room : s.subscriber.length < bufferSize := by
          by_contra full
          apply notYet
          refine ⟨awaits, ?_⟩
          simp only [State.waitsForRoom, now, beq_iff_eq]
          omega
        refine ⟨.publishes, { s with
          subscriber := s.subscriber ++ [page]
          sending := some ⟨left, fragmented, forwarded, true, result⟩ }, ?_, ⟨?_, ?_⟩, ?_⟩
        · simp [State.sendActor, now, State.publishes, room]
        · exact awaits
        · simp only [State.pagesAhead, now, List.length_append, List.length_cons,
            List.length_nil] at tight ⊢
          omega
        · simp only [State.work, now, List.length_cons]
          simp
          omega
    | true =>
      cases left with
      | nil =>
        have behind : forwarded = false := by
          apply Bool.eq_false_iff.mpr
          intro answers
          simp only [State.pagesAhead, now, answers, if_true, List.length_nil] at tight
          omega
        subst behind
        refine ⟨.notifies, { s with listener := true }.sent false result, ?_, ⟨?_, ?_⟩, ?_⟩
        · simp [State.sendActor, now, State.notified]
        · exact awaits
        · simpa [State.pagesAhead, now, State.sent] using tight
        · simp [State.work, now, State.sent]
      | cons page left =>
        refine ⟨.notifies, { s with
          listener := true
          sending := some ⟨page :: left, fragmented, forwarded, false, result⟩ }, ?_, ⟨?_, ?_⟩, ?_⟩
        · simp [State.sendActor, now, State.notified]
        · exact awaits
        · simpa [State.pagesAhead, now] using tight
        · simp [State.work, now]

theorem Doomed.deadlocks (n : Nat) {trace : List (State × Label)}
    (run : Runs shouldCollect trace s) (doomed : Doomed s) (bound : s.work ≤ n) :
    ∃ more u, Runs shouldCollect (trace ++ more) u ∧ Deadlocked u := by
  induction n generalizing s trace with
  | zero =>
    by_cases now : Deadlocked s
    · exact ⟨[], s, by simpa using run, now⟩
    · obtain ⟨_, t, _, _, less⟩ := doomed.step (orderly_of_run run) now
      omega
  | succ n ih =>
    by_cases now : Deadlocked s
    · exact ⟨[], s, by simpa using run, now⟩
    · obtain ⟨act, t, move, doomed', less⟩ := doomed.step (orderly_of_run run) now
      have run' : Runs shouldCollect (trace ++ [(s, .sendActor act)]) t := run.snoc move
      obtain ⟨more, u, run'', deadlocked⟩ := ih run' doomed' (by omega)
      exact ⟨(s, .sendActor act) :: more, u, by simpa using run'', deadlocked⟩

/-- A step for which the buffer has no room leaves the task doomed. -/
theorem doomed_of_step {l : Label} (orderly : Orderly s) (tight : ¬ HasRoom s l)
    (move : next shouldCollect s l = some t) : Doomed t := by
  unfold HasRoom at tight
  split at tight
  · rename_i payload headerSize pc
    have sends : t = { s with
        sendCalls := s.sendCalls ++ [⟨payload, headerSize, true⟩]
        pc := .sendStreamReply payload headerSize } := by
      simp only [next, State.proceeds, pc] at move
      split at move <;> cases move
      rfl
    have elsewhere : s.pc.forwards = false := by rw [pc]; rfl
    have unanswered : s.sendStreamReply = none := by
      have one := orderly.one
      rw [elsewhere, State.underWay] at one
      cases reply : s.sendStreamReply with
      | none => rfl
      | some answer => simp [reply] at one
    have ahead : t.pagesAhead = s.pagesAhead + pageCount payload headerSize :=
      ahead_of_send orderly pc (by rw [sends]) (by rw [sends])
    have buffer : t.subscriber = s.subscriber := by rw [sends]
    constructor
    · rw [awaits_iff, sends]
      exact ⟨rfl, unanswered⟩
    · rw [ahead, buffer]
      omega
  · rename_i page payload headerSize pc
    simp only [Classical.not_imp, not_lt] at tight
    obtain ⟨unanswered, full⟩ := tight
    simp only [next, State.mesh] at move
    split at move <;> cases move
    constructor
    · rw [awaits_iff, pc]
      exact ⟨rfl, unanswered⟩
    · have ahead : State.pagesAhead { s with subscriber := s.subscriber ++ [page] } =
          s.pagesAhead := rfl
      rw [ahead, List.length_append, List.length_singleton]
      omega
  · exact absurd trivial tight

end Deadlock

/-- Forwarding does not deadlock as long as the buffer has room for all the pages until the
    answer, and a step for which it has not can be followed by a deadlock. -/
theorem forwarding_safe_with_room {trace : List (State × Label)}
    (run : Runs shouldCollect trace s) :
    (Meets HasRoom trace → Throughout (fun _ s => ¬ Deadlocked s) trace s) ∧
      ∀ l t, next shouldCollect s l = some t → ¬ HasRoom s l →
        ∃ more u, Runs shouldCollect (trace ++ (s, l) :: more) u ∧ Deadlocked u := by
  constructor
  · intro hasRoom
    refine throughout_of_runs ?_ run hasRoom
    intro trace s run hasRoom
    have room : Orderly s ∧ Room s := by
      refine run_invariant (fun _ s => Orderly s ∧ Room s) ?_ ?_ run hasRoom
      · rintro s rfl
        refine ⟨.init, ?_⟩
        intro awaits
        cases awaits
      · intro trace s l t _ inv hasRoom move
        exact ⟨inv.1.step move, inv.2.step inv.1 hasRoom move⟩
    exact room.2.notDeadlocked
  · intro l t move tight
    have doomed := doomed_of_step (orderly_of_run run) tight move
    obtain ⟨more, u, run', deadlocked⟩ := doomed.deadlocks t.work (run.snoc move) le_rfl
    exact ⟨more, u, by simpa using run', deadlocked⟩

/-- A message of one page is forwarded. -/
theorem forwarding_one_page : ∃ trace s, Runs (fun _ => true) trace s ∧
    Throughout (fun _ s => ¬ Deadlocked s) trace s ∧ s.pc = .tryRecvStream := by
  obtain ⟨trace, s, run, hasRoom, pc⟩ := execute_run (next fun _ => true) init
    (sendsFrame ([5, 6] ++ ByteBuffer.encode 8 1) ++ looks ++ [.sendActor (.takes 1),
      .sendActor .publishes, .sendActor .notifies, .proceeds])
    (fun trace s => (∀ e ∈ trace, HasRoom e.1 e.2) ∧ s.pc = .tryRecvStream) (by decide +kernel)
  exact ⟨trace, s, run, (forwarding_safe_with_room run).1 hasRoom, pc⟩

/-- A payload of eleven pages is forwarded, with no traffic but its own. -/
theorem forwarding_deadlocks : ∃ trace s, Runs (fun _ => true) trace s ∧ Deadlocked s :=
  execute_run (next fun _ => true) init
    (sendsFrame (List.replicate 1002 7 ++ ByteBuffer.encode 8 991) ++ looks ++
      .sendActor (.takes 1) ::
        (List.replicate 10 [.sendActor .publishes, .sendActor .notifies]).flatten)
    (fun _ s => Deadlocked s) (by decide +kernel)

end Combined
