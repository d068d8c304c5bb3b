import SkyCurrent.Base.Runs

/- The RwLock around the payload of one message, and the threads that read, claim or stand on
   it. A shared acquisition waits while a writer is queued that came before it, whatever
   guards its own thread may hold. A thread that holds a MessageRef calls nothing else. -/
namespace Lmq

open Runs

/-- What the lock is taken exclusively for: NextMessage::claim, the claim of
    check_should_now_autodrop at the start of try_next, and the walk of try_next. -/
inductive Exclusive where
  | claim
  | autodrop
  | tryNext
  deriving DecidableEq, Repr

/-- Where a thread is with the payload lock. A ticket tells when it began to wait. -/
inductive Phase where
  | idle
  -- read: let lock = self.payload.read(); lock.is_some(); self.payload.read()
  | readFirst (ticket : Nat)
  | checking
  | readSecond (ticket : Nat)
  | returning
  | messageRef
  | waits (use : Exclusive) (ticket : Nat)
  | holds (use : Exclusive)
  deriving DecidableEq, Repr

def Phase.guards : Phase → Nat
  | .checking | .readSecond _ | .messageRef => 1
  | .returning => 2
  | _ => 0

def Phase.exclusive : Phase → Bool
  | .holds _ => true
  | _ => false

def Phase.waitsShared : Phase → Option Nat
  | .readFirst ticket | .readSecond ticket => some ticket
  | _ => none

def Phase.waitsExclusive : Phase → Option Nat
  | .waits _ ticket => some ticket
  | _ => none

structure PayloadLock where
  payload : Option (List UInt8)
  ticket : Nat
  phases : List Phase
  deriving DecidableEq, Repr

def PayloadLock.init (payload : Option (List UInt8)) (threads : Nat) : PayloadLock :=
  ⟨payload, 0, List.replicate threads .idle⟩

def PayloadLock.goto (s : PayloadLock) (t : Nat) (p : Phase) : PayloadLock :=
  { s with phases := s.phases.set t p }

def PayloadLock.queues (s : PayloadLock) (t : Nat) (p : Nat → Phase) : PayloadLock :=
  { s with ticket := s.ticket + 1, phases := s.phases.set t (p s.ticket) }

def PayloadLock.sharedFree (s : PayloadLock) (ticket : Nat) : Bool :=
  s.phases.all fun p => !p.exclusive && p.waitsExclusive.all (ticket < ·)

def PayloadLock.free (s : PayloadLock) : Bool :=
  s.phases.all fun p => !p.exclusive && p.guards == 0

inductive LockStep where
  | reads (t : Nat)
  | claims (t : Nat)
  | triesNext (t : Nat) (autodrops : Bool)
  | granted (t : Nat)
  | goes (t : Nat)
  deriving DecidableEq, Repr

def PayloadLock.begins (s : PayloadLock) (t : Nat) (p : Nat → Phase) : Option PayloadLock :=
  if s.phases[t]? = some .idle then some (s.queues t p) else none

def PayloadLock.grants (s : PayloadLock) (t : Nat) : Option PayloadLock :=
  match s.phases[t]? with
  | some (.readFirst ticket) => if s.sharedFree ticket then some (s.goto t .checking) else none
  | some (.readSecond ticket) => if s.sharedFree ticket then some (s.goto t .returning) else none
  | some (.waits use _) => if s.free then some (s.goto t (.holds use)) else none
  | _ => none

def PayloadLock.continues (s : PayloadLock) (t : Nat) : Option PayloadLock :=
  match s.phases[t]? with
  | some .checking =>
    some (if s.payload.isSome then s.queues t .readSecond else s.goto t .idle)
  | some .returning => some (s.goto t .messageRef)
  | some .messageRef => some (s.goto t .idle)
  | some (.holds .claim) => some ({ s with payload := none }.goto t .idle)
  | some (.holds .autodrop) => some ({ s with payload := none }.queues t (.waits .tryNext))
  | some (.holds .tryNext) => some (s.goto t .idle)
  | _ => none

def lockStep (s : PayloadLock) : LockStep → Option PayloadLock
  | .reads t => s.begins t .readFirst
  | .claims t => s.begins t (.waits .claim)
  | .triesNext t autodrops => s.begins t (.waits (if autodrops then .autodrop else .tryNext))
  | .granted t => s.grants t
  | .goes t => s.continues t

abbrev LockRun (payload : Option (List UInt8)) (threads : Nat) :=
  Run (· = PayloadLock.init payload threads) (fun s l t => lockStep s l = some t)

/-- Thread `t` waits for a shared guard behind the writer `w`, which waits for one that `t`
    holds already. -/
def SelfDeadlock (s : PayloadLock) (t w : Nat) : Prop :=
  ∃ p q a b, s.phases[t]? = some p ∧ p.waitsShared = some a ∧ 0 < p.guards ∧
    s.phases[w]? = some q ∧ q.waitsExclusive = some b ∧ b < a

/-- No writer is queued when a read comes to its second acquisition. -/
def NoneQueued (s : PayloadLock) (l : LockStep) : Prop :=
  ∀ t, l = .goes t → s.phases[t]? = some .checking → s.payload.isSome = true →
    ∀ p ∈ s.phases, p.waitsExclusive = none

instance (s : PayloadLock) (l : LockStep) : Decidable (NoneQueued s l) :=
  match l with
  | .goes t => decidable_of_iff (s.phases[t]? = some .checking → s.payload.isSome = true →
      ∀ p ∈ s.phases, p.waitsExclusive = none)
      ⟨fun h u same => by cases same; exact h, fun h => h t rfl⟩
  | .reads t => isTrue fun u same => by cases same
  | .claims t => isTrue fun u same => by cases same
  | .triesNext t autodrops => isTrue fun u same => by cases same
  | .granted t => isTrue fun u same => by cases same

def Phase.waiting (p : Phase) : Option Nat := p.waitsShared.or p.waitsExclusive

section Step

variable {s s' : PayloadLock} {l : LockStep}

structure Moves (s : PayloadLock) (l : LockStep) (s' : PayloadLock) (t : Nat) (p p' : Phase) :
    Prop where
  before : s.phases[t]? = some p
  after : s'.phases = s.phases.set t p'
  ticket : p'.waiting = none ∧ s'.ticket = s.ticket ∨
    p'.waiting = some s.ticket ∧ s'.ticket = s.ticket + 1
  second : p'.waitsShared.isSome = true → 0 < p'.guards →
    l = .goes t ∧ p = .checking ∧ s.payload.isSome = true
  granted : p.waiting.isSome = true → (∀ a, p.waitsShared = some a → s.sharedFree a = true) ∧
    (p.waitsExclusive.isSome = true → s.free = true)

theorem begins_moves {t : Nat} {p : Nat → Phase} (waits : (p s.ticket).waiting = some s.ticket)
    (bare : (p s.ticket).guards = 0) (move : s.begins t p = some s') :
    ∃ q q', Moves s l s' t q q' := by
  unfold PayloadLock.begins at move
  split at move
  · rename_i here
    cases move
    refine ⟨.idle, p s.ticket, here, rfl, Or.inr ⟨waits, rfl⟩, ?_, fun none_ => by cases none_⟩
    intro _ some_
    omega
  · cases move

theorem goto_moves {t : Nat} {p p' : Phase} {u : PayloadLock} (here : s.phases[t]? = some p)
    (after : u.phases = s.phases.set t p') (same : u.ticket = s.ticket) (rest : p'.waiting = none)
    (granted : p.waiting.isSome = true → (∀ a, p.waitsShared = some a → s.sharedFree a = true) ∧
      (p.waitsExclusive.isSome = true → s.free = true)) : Moves s l u t p p' := by
  refine ⟨here, after, Or.inl ⟨rest, same⟩, ?_, granted⟩
  intro shared
  cases p' <;> simp [Phase.waiting, Phase.waitsShared, Phase.waitsExclusive] at rest shared

theorem grants_moves {t : Nat} (move : s.grants t = some s') :
    ∃ q q', Moves s l s' t q q' := by
  have shared {p p' : Phase} {ticket : Nat} (here : s.phases[t]? = some p)
      (waits : p.waitsShared = some ticket) (alone : p.waitsExclusive = none)
      (rest : p'.waiting = none) (free : s.sharedFree ticket = true) :
      Moves s l (s.goto t p') t p p' := by
    refine goto_moves here rfl rfl rest fun _ => ⟨?_, ?_⟩
    · intro a same
      rw [waits] at same
      cases same
      exact free
    · rw [alone]
      intro none_
      cases none_
  unfold PayloadLock.grants at move
  split at move
  · rename_i ticket here
    split at move
    · rename_i free
      cases move
      exact ⟨_, _, shared here rfl rfl rfl free⟩
    · cases move
  · rename_i ticket here
    split at move
    · rename_i free
      cases move
      exact ⟨_, _, shared here rfl rfl rfl free⟩
    · cases move
  · rename_i use ticket here
    split at move
    · rename_i free
      cases move
      refine ⟨_, .holds use, goto_moves here rfl rfl rfl fun _ => ⟨?_, fun _ => free⟩⟩
      intro a none_
      cases none_
    · cases move
  · cases move

theorem continues_moves {t : Nat} (move : s.continues t = some s') :
    ∃ q q', Moves s (.goes t) s' t q q' := by
  have rests {p p' : Phase} {u : PayloadLock} (here : s.phases[t]? = some p)
      (none_ : p.waiting = none) (after : u.phases = s.phases.set t p') (same : u.ticket = s.ticket)
      (rest : p'.waiting = none) : Moves s (.goes t) u t p p' := by
    refine goto_moves here after same rest ?_
    rw [none_]
    intro some_
    cases some_
  unfold PayloadLock.continues at move
  split at move
  · rename_i here
    split at move
    · rename_i some_
      cases move
      exact ⟨_, .readSecond s.ticket, here, rfl, Or.inr ⟨rfl, rfl⟩, fun _ _ => ⟨rfl, rfl, some_⟩,
        fun none_ => by cases none_⟩
    · cases move
      exact ⟨_, .idle, rests here rfl rfl rfl rfl⟩
  · rename_i here
    cases move
    exact ⟨_, .messageRef, rests here rfl rfl rfl rfl⟩
  · rename_i here
    cases move
    exact ⟨_, .idle, rests here rfl rfl rfl rfl⟩
  · rename_i here
    cases move
    exact ⟨_, .idle, rests here rfl rfl rfl rfl⟩
  · rename_i here
    cases move
    exact ⟨_, .waits .tryNext s.ticket, here, rfl, Or.inr ⟨rfl, rfl⟩, fun none_ => (by cases none_),
      fun none_ => by cases none_⟩
  · rename_i here
    cases move
    exact ⟨_, .idle, rests here rfl rfl rfl rfl⟩
  · cases move

theorem lockStep_moves (move : lockStep s l = some s') : ∃ t p p', Moves s l s' t p p' := by
  cases l with
  | reads t => exact ⟨t, begins_moves rfl rfl move⟩
  | claims t => exact ⟨t, begins_moves rfl rfl move⟩
  | triesNext t autodrops => exact ⟨t, begins_moves rfl rfl move⟩
  | granted t => exact ⟨t, grants_moves move⟩
  | goes t => exact ⟨t, continues_moves move⟩

def Ticketed (s : PayloadLock) : Prop := ∀ p ∈ s.phases, ∀ a, p.waiting = some a → a < s.ticket

theorem ticketed_init (payload : Option (List UInt8)) (threads : Nat) :
    Ticketed (.init payload threads) := by
  intro p member a waits
  obtain rfl := List.eq_of_mem_replicate member
  cases waits

theorem Ticketed.step (ticketed : Ticketed s) (move : lockStep s l = some s') : Ticketed s' := by
  obtain ⟨t, p, p', moves⟩ := lockStep_moves move
  intro q member a waits
  rw [moves.after] at member
  have grown : s.ticket ≤ s'.ticket := by
    rcases moves.ticket with ⟨_, same⟩ | ⟨_, next⟩ <;> omega
  rcases List.mem_or_eq_of_mem_set member with earlier | rfl
  · exact Nat.lt_of_lt_of_le (ticketed q earlier a waits) grown
  · rcases moves.ticket with ⟨none_, _⟩ | ⟨now, next⟩
    · rw [none_] at waits
      cases waits
    · rw [now] at waits
      cases waits
      omega

theorem waiting_of_shared {p : Phase} {a : Nat} (shared : p.waitsShared = some a) :
    p.waiting = some a := by
  rw [Phase.waiting, shared]
  rfl

theorem waiting_of_exclusive {p : Phase} {b : Nat} (exclusive : p.waitsExclusive = some b) :
    p.waiting = some b := by
  cases p with
  | waits use ticket => exact exclusive
  | _ => cases exclusive

theorem new_deadlock (ticketed : Ticketed s) (move : lockStep s l = some s')
    (unqueued : NoneQueued s l) {t w : Nat} (deadlock : SelfDeadlock s' t w) :
    SelfDeadlock s t w := by
  obtain ⟨u, p, p', moves⟩ := lockStep_moves move
  obtain ⟨q, r, a, b, reader, shared, guards, writer, exclusive, behind⟩ := deadlock
  rw [moves.after, List.getElem?_set] at reader writer
  have range := (List.getElem?_eq_some_iff.mp moves.before).1
  by_cases mine : u = t
  · subst mine
    rw [if_pos rfl, if_pos range] at reader
    cases reader
    obtain ⟨goes, rfl, some_⟩ := moves.second (by rw [shared]; rfl) guards
    by_cases same : u = w
    · subst same
      rw [if_pos rfl, if_pos range] at writer
      cases writer
      cases p' <;> cases shared <;> cases exclusive
    · rw [if_neg same] at writer
      have none_ := unqueued u goes moves.before some_ r (List.mem_of_getElem? writer)
      rw [none_] at exclusive
      cases exclusive
  · rw [if_neg mine] at reader
    by_cases same : u = w
    · subst same
      rw [if_pos rfl, if_pos range] at writer
      cases writer
      have old := ticketed q (List.mem_of_getElem? reader) a (waiting_of_shared shared)
      have waits := waiting_of_exclusive exclusive
      rcases moves.ticket with ⟨none_, _⟩ | ⟨now, _⟩
      · rw [none_] at waits
        cases waits
      · rw [now] at waits
        cases waits
        omega
    · rw [if_neg same] at writer
      exact ⟨q, r, a, b, reader, shared, guards, writer, exclusive, behind⟩

/-- Neither the reader nor the writer is ever given the lock. -/
theorem SelfDeadlock.lasts {t w : Nat} (deadlock : SelfDeadlock s t w)
    (move : lockStep s l = some s') : SelfDeadlock s' t w := by
  obtain ⟨u, p, p', moves⟩ := lockStep_moves move
  obtain ⟨q, r, a, b, reader, shared, guards, writer, exclusive, behind⟩ := deadlock
  have notReader : u ≠ t := by
    rintro rfl
    obtain rfl := Option.some.inj (moves.before.symm.trans reader)
    have free := (moves.granted (by rw [waiting_of_shared shared]; rfl)).1 a shared
    have first := List.all_eq_true.mp free r (List.mem_of_getElem? writer)
    simp only [exclusive, Option.all_some, Bool.and_eq_true, decide_eq_true_eq] at first
    omega
  have notWriter : u ≠ w := by
    rintro rfl
    obtain rfl := Option.some.inj (moves.before.symm.trans writer)
    have free := (moves.granted (by rw [waiting_of_exclusive exclusive]; rfl)).2
      (by rw [exclusive]; rfl)
    have none_ := List.all_eq_true.mp free q (List.mem_of_getElem? reader)
    simp only [Bool.and_eq_true, beq_iff_eq] at none_
    omega
  refine ⟨q, r, a, b, ?_, shared, guards, ?_, exclusive, behind⟩
  · rw [moves.after, List.getElem?_set_ne notReader]
    exact reader
  · rw [moves.after, List.getElem?_set_ne notWriter]
    exact writer

theorem queued_deadlock (ticketed : Ticketed s) (move : lockStep s l = some s')
    (queued : ¬ NoneQueued s l) : ∃ t w, SelfDeadlock s' t w := by
  simp only [NoneQueued, not_forall] at queued
  obtain ⟨t, rfl, here, some_, r, member, queued⟩ := queued
  obtain ⟨b, exclusive⟩ := Option.ne_none_iff_exists'.mp queued
  obtain ⟨w, writer⟩ := List.mem_iff_getElem?.mp member
  have before := ticketed r member b (waiting_of_exclusive exclusive)
  have apart : t ≠ w := by
    rintro rfl
    obtain rfl := Option.some.inj (here.symm.trans writer)
    cases exclusive
  simp only [lockStep, PayloadLock.continues, here, some_, if_true, Option.some.injEq] at move
  subst move
  refine ⟨t, w, .readSecond s.ticket, r, s.ticket, b, ?_, rfl, Nat.one_pos, ?_, exclusive, before⟩
  · exact List.getElem?_set_self (List.getElem?_eq_some_iff.mp here).1
  · rw [← writer]
    exact List.getElem?_set_ne apart

end Step

section Run

variable {payload : Option (List UInt8)} {threads : Nat} {trace : List (PayloadLock × LockStep)}
  {s : PayloadLock}

theorem ticketed_of_run (run : LockRun payload threads trace s) : Ticketed s :=
  reachable_invariant Ticketed (fun _ first => by rw [first]; exact ticketed_init payload threads)
    (fun _ _ _ ticketed move => ticketed.step move) ⟨trace, run⟩

/-- Reads never deadlock against writers exactly if none of them comes to its second
    acquisition while a writer is queued. -/
theorem no_read_deadlock_iff (run : LockRun payload threads trace s) :
    Throughout (fun _ s => ∀ t w, ¬ SelfDeadlock s t w) trace s ↔ Meets NoneQueued trace := by
  constructor
  · refine meets_of_throughout ?_ run
    intro trace s l s' before _ move queued holds
    obtain ⟨t, w, deadlock⟩ := queued_deadlock (ticketed_of_run before) move queued
    exact holds t w deadlock
  · refine throughout_of_runs ?_ run
    intro trace s run meets
    refine run_invariant (fun _ s => ∀ t w, ¬ SelfDeadlock s t w) ?_ ?_ run meets
    · rintro _ rfl t w ⟨q, _, _, _, reader, shared, _⟩
      obtain rfl := List.eq_of_mem_replicate (List.mem_of_getElem? reader)
      cases shared
    · intro trace s l s' before none_ unqueued move t w deadlock
      exact none_ t w (new_deadlock (ticketed_of_run before) move unqueued deadlock)

/-- Two readers and a claim that queues up between one read and the next. -/
theorem no_read_deadlock_in_turn : ∃ trace s, LockRun (some [1]) 3 trace s ∧
    s.payload = none ∧ Throughout (fun _ s => ∀ t w, ¬ SelfDeadlock s t w) trace s := by
  obtain ⟨trace, s, run, claimed, meets⟩ :=
    execute_run lockStep (.init (some [1]) 3)
      [.reads 0, .granted 0, .reads 1, .goes 0, .granted 0, .granted 1, .goes 1, .claims 2,
        .goes 0, .granted 1, .goes 1, .goes 0, .goes 1, .granted 2, .goes 2]
      (fun trace s => s.payload = none ∧ ∀ e ∈ trace, NoneQueued e.1 e.2) (by decide +kernel)
  exact ⟨trace, s, run, claimed, (no_read_deadlock_iff run).mpr meets⟩

/-- A claim queues up between the two acquisitions of a read. -/
theorem read_deadlocks : ∃ trace s, LockRun (some [1]) 2 trace s ∧ SelfDeadlock s 0 1 ∧
    ¬ Throughout (fun _ s => ∀ t w, ¬ SelfDeadlock s t w) trace s := by
  obtain ⟨trace, s, run, phases⟩ :=
    execute_run lockStep (.init (some [1]) 2) [.reads 0, .granted 0, .claims 1, .goes 0]
      (fun _ s => s.phases = [.readSecond 2, .waits .claim 1]) (by decide +kernel)
  have deadlock : SelfDeadlock s 0 1 :=
    ⟨.readSecond 2, .waits .claim 1, 2, 1, by rw [phases]; rfl, rfl, Nat.one_pos,
      by rw [phases]; rfl, rfl, by decide⟩
  exact ⟨trace, s, run, deadlock, fun throughout => throughout.1 0 1 deadlock⟩

end Run

end Lmq
