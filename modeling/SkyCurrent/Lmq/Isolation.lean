import SkyCurrent.Lmq.Projection

/- Whether queues interfere. The registry is copied by every push, so the consumers of one queue
   stand among the targets of the messages of another, and they never pass them on. -/
namespace Lmq

open Runs

def System.messages (s : System) : List (Option (List UInt8)) :=
  (List.range (s.heap.size - 2)).map fun k => (s.heap.node (k + 2)).payload

def System.reply (s : System) : Op → Reply
  | .tryNext c => .next ((s.returns true c).map (· - 2))
  | .claim handle => .taken do
    let node ← s.handles[handle]?
    (claim s.heap node).2
  | _ => .nothing

section Views

variable {p : Process} {m : Member} {a : System}

theorem Mirrors.nodup (mir : Mirrors p m a) : m.nodes.Nodup := by
  rw [List.nodup_iff_getElem?_ne_getElem?]
  intro x y less range same
  rw [mir.size] at range
  rw [mir.place_mem (Nat.lt_trans less range), mir.place_mem range] at same
  have equal := mir.heap.inj x y (Nat.lt_trans less range) range (Option.some.inj same)
  exact Nat.ne_of_lt less equal

theorem Mirrors.pushed (mir : Mirrors p m a) {k : Nat} (range : k + 2 < a.heap.size) :
    m.pushed[k]? = some (m.place (k + 2)) := mir.place_mem range

theorem Mirrors.messages (mir : Mirrors p m a) :
    (m.pushed.map fun x => (p.heap.node x).payload) = a.messages := by
  have count : m.pushed.length + 2 = a.heap.size := mir.size
  apply List.ext_getElem?
  intro k
  rw [System.messages, List.getElem?_map, List.getElem?_map]
  by_cases range : k + 2 < a.heap.size
  · rw [mir.pushed range, List.getElem?_range (by omega)]
    exact congrArg some (mir.heap.payload _ range)
  · rw [List.getElem?_eq_none (by omega), List.getElem?_eq_none (by simp; omega)]
    rfl

theorem Mirrors.number (mir : Mirrors p m a) {x : Nat} (range : x < a.heap.size) (message : 2 ≤ x) :
    m.pushed.idxOf (m.place x) = x - 2 := by
  have place : m.pushed[x - 2]? = some (m.place x) := by
    have found := mir.pushed (k := x - 2) (by omega)
    rwa [Nat.sub_add_cancel message] at found
  obtain ⟨inside, here⟩ := List.getElem?_eq_some_iff.mp place
  have distinct : m.pushed.Nodup := (List.nodup_cons.mp (List.nodup_cons.mp mir.nodup).2).2
  rw [← here]
  exact List.Nodup.idxOf_getElem distinct _ inside

theorem Mirrors.reply (mir : Mirrors p m a) (sound : Sound a) {op : Op} (free : Unheld p m op) :
    m.reply true p op = a.reply op := by
  cases op with
  | push payload => rfl
  | createConsumer id => rfl
  | tryNext c =>
    rw [Member.reply, System.reply, System.returns]
    cases live : a.consumers c with
    | none => simp [mir.gone live]
    | some self =>
      obtain ⟨h', dest, H', run, spec, runH, heap⟩ := mir.tried sound live
        (free c _ (Or.inl rfl) (mir.live live))
      simp only [mir.live live, runH, run, Option.bind_eq_bind, Option.bind_some]
      cases dest with
      | none => rfl
      | some f =>
        have open_ := (spec.origin f rfl).1
        have bounds := spec.well.unclaimed_range f open_
        have size : h'.size = a.heap.size := by
          rw [spec.relinked.size, size_checked]
        have root := sound.well.root_second
        simp [mir.number (x := f) (by omega) (by omega)]
  | claim handle =>
    rw [Member.reply, System.reply, mir.handles, List.getElem?_map]
    cases found : a.handles[handle]? with
    | none => rfl
    | some x =>
      have range := mir.handed x (List.mem_of_getElem? found)
      have same : (claim p.heap (m.place x)).2 = (claim a.heap x).2 := mir.heap.payload x range
      simp [same]
  | drop c => rfl

end Views

section History

def callsOn (q : Nat) (trace : List (Queues × Call)) : List Call :=
  (trace.map (·.2)).filter (·.queue = q)

def opsOn (q : Nat) (trace : List (Queues × Call)) : List Op :=
  trace.filterMap fun e => match e.2 with
    | .new _ => none
    | .on q' op => if q' = q then some op else none

def Drawn (q : Nat) (trace : List (Queues × Call)) (id : UInt64) : Prop :=
  ∃ u, (u, Call.on q (.createConsumer id)) ∈ trace

/-- No id of the queue was drawn for a consumer of another queue as well. -/
def SeparateIds (q : Nat) (trace : List (Queues × Call)) : Prop :=
  ∀ id q', q' ≠ q → Drawn q trace id → ¬ Drawn q' trace id

/-- No check the call makes on a message of the queue finds it kept unclaimed by consumers of
    other queues alone. -/
def KeptByOwn (q : Nat) (s : Queues) (call : Call) : Prop :=
  ∀ m op, call = .on q op → s.member q = some m → Unheld s.toProcess m op

def Call.opOn (q : Nat) : Call → Option Op
  | .new _ => none
  | .on q' op => if q' = q then some op else none

theorem keptByOwn_iff {q : Nat} {s : Queues} {call : Call} : KeptByOwn q s call ↔
    ∀ op ∈ call.opOn q, ∀ m ∈ s.member q, Unheld s.toProcess m op := by
  unfold KeptByOwn
  cases call with
  | new q' => simp [Call.opOn]
  | on q' op =>
    by_cases mine : q' = q
    · subst mine
      simp [Call.opOn]
    · simp [Call.opOn, mine]

instance (q : Nat) (s : Queues) : DecidablePred (KeptByOwn q s) :=
  fun _ => decidable_of_iff _ keptByOwn_iff.symm

/-- The run of the calls on the queue alone hands back the same and leaves its messages the
    same, claimed or not. -/
def Undisturbed (q : Nat) (trace : List (Queues × Call)) (s : Queues) : Prop :=
  ∃ alone t, ProcessRun true alone t ∧ alone.map (·.2) = callsOn q trace ∧
    replies true q alone = replies true q trace ∧ t.messages q = s.messages q

variable {trace : List (Queues × Call)} {s : Queues} {q : Nat} {call : Call}

theorem callsOn_snoc : callsOn q (trace ++ [(s, call)]) =
    if call.queue = q then callsOn q trace ++ [call] else callsOn q trace := by
  simp only [callsOn, List.map_append, List.map_cons, List.map_nil, List.filter_append]
  by_cases mine : call.queue = q <;> simp [mine]

theorem opsOn_snoc : opsOn q (trace ++ [(s, call)]) =
    opsOn q trace ++ opsOn q [(s, call)] := by
  simp only [opsOn, List.filterMap_append]

theorem replies_snoc : replies true q (trace ++ [(s, call)]) =
    replies true q trace ++ replies true q [(s, call)] := by
  simp only [replies, List.filterMap_append]

theorem opsOn_other (other : call.queue ≠ q) : opsOn q [(s, call)] = [] := by
  cases call with
  | new q' => rfl
  | on q' op =>
    have differ : q' ≠ q := other
    simp [opsOn, differ]

theorem replies_other (other : call.queue ≠ q) : replies true q [(s, call)] = [] := by
  cases call with
  | new q' => rfl
  | on q' op =>
    have differ : q' ≠ q := other
    simp [replies, differ]

theorem drawn_snoc {id : UInt64} : Drawn q (trace ++ [(s, call)]) id ↔
    Drawn q trace id ∨ call = .on q (.createConsumer id) := by
  simp only [Drawn, List.mem_append, List.mem_singleton, Prod.mk.injEq, exists_or,
    exists_eq_left', eq_comm]

theorem drawn_iff {id : UInt64} :
    Drawn q trace id ↔ Call.on q (.createConsumer id) ∈ trace.map (·.2) := by
  simp [Drawn]

theorem separateIds_before (ids : SeparateIds q (trace ++ [(s, call)])) :
    SeparateIds q trace := by
  intro id q' differ mine theirs
  exact ids id q' differ (drawn_snoc.mpr (Or.inl mine)) (drawn_snoc.mpr (Or.inl theirs))

end History

section Runs

variable {trace : List (Queues × Call)} {s t : Queues} {q : Nat} {call : Call}

theorem member_consumers {p p' : Process} {m m' : Member} {op : Op}
    (move : m.step true p op = some (p', m')) {c : Nat} {self : MessageConsumer}
    (live : m'.consumers c = some self) :
    (∃ d old, m.consumers d = some old ∧ old.id = self.id) ∨ op = .createConsumer self.id := by
  cases op with
  | push payload =>
    obtain ⟨e, _, rfl, rfl⟩ := member_push move
    exact Or.inl ⟨c, self, live, rfl⟩
  | createConsumer id =>
    obtain ⟨rfl, rfl⟩ := member_create move
    by_cases same : c = m.trackers.length
    · simp only [same, Function.update_self, Option.some.injEq] at live
      exact Or.inr (live ▸ rfl)
    · simp only [Function.update_of_ne same] at live
      exact Or.inl ⟨c, self, live, rfl⟩
  | tryNext d =>
    obtain ⟨old, new, h', dest, liveD, run, rfl, rfl⟩ := member_tryNext move
    by_cases same : c = d
    · simp only [same, Function.update_self, Option.some.injEq] at live
      have moved := (tryNext_walks run).2
      exact Or.inl ⟨d, old, liveD, by rw [← live, moved]⟩
    · simp only [Function.update_of_ne same] at live
      exact Or.inl ⟨c, self, live, rfl⟩
  | claim handle =>
    obtain ⟨x, _, rfl, rfl⟩ := member_claim move
    exact Or.inl ⟨c, self, live, rfl⟩
  | drop d =>
    obtain ⟨old, _, rfl, rfl⟩ := member_drop move
    by_cases same : c = d
    · simp [same] at live
    · simp only [Function.update_of_ne same] at live
      exact Or.inl ⟨c, self, live, rfl⟩

theorem run_drawn (run : ProcessRun true trace s) {m : Member} {c : Nat} {self : MessageConsumer}
    (found : s.member q = some m) (live : m.consumers c = some self) :
    Drawn q trace self.id := by
  induction run generalizing m c self with
  | nil first =>
    subst first
    simp [Queues.init] at found
  | @snoc trace s t call before move ih =>
    rw [drawn_snoc]
    obtain ⟨m', did⟩ := called (run_apart before) move
    rw [did.member] at found
    by_cases same : q = call.queue
    · rw [same, Function.update_self] at found
      obtain rfl := Option.some.inj found
      cases call with
      | new k =>
        obtain ⟨_, rfl⟩ := call_new move
        have fresh := did.member
        simp only [Call.queue] at fresh
        have none_ := congrFun fresh k
        rw [Function.update_self, Function.update_self, Option.some.injEq] at none_
        rw [← none_] at live
        cases live
      | on k op =>
        obtain ⟨m₀, p', m₁, foundK, step, rfl⟩ := call_on move
        have last := congrFun did.member k
        simp only [Call.queue, Function.update_self, Option.some.injEq] at last
        subst last
        have here : q = k := same
        subst here
        rcases member_consumers step live with ⟨d, old, liveD, sameId⟩ | now
        · exact Or.inl (sameId ▸ ih foundK liveD)
        · exact Or.inr (now ▸ rfl)
    · rw [Function.update_of_ne same] at found
      exact Or.inl (ih found live)

theorem drawn_of_usesId (run : ProcessRun true trace s) {id : UInt64}
    (uses : s.usesId call = some id) : Drawn call.queue (trace ++ [(s, call)]) id := by
  rw [drawn_snoc]
  cases call with
  | new k => cases uses
  | on k op =>
    simp only [Queues.usesId, Option.bind_eq_some_iff] at uses
    obtain ⟨m, found, uses⟩ := uses
    cases op with
    | createConsumer id' =>
      obtain rfl := Option.some.inj uses
      exact Or.inr rfl
    | drop c =>
      obtain ⟨self, live, rfl⟩ := Option.map_eq_some_iff.mp uses
      exact Or.inl (run_drawn run found live)
    | push payload => cases uses
    | tryNext c => cases uses
    | claim handle => cases uses

structure Follows (q : Nat) (trace : List (Queues × Call)) (s : Queues)
    (own : List (System × Op)) (a : System) : Prop where
  run : QueueRun true own a
  ops : own.map (·.2) = opsOn q trace
  replies : replies true q trace = own.map fun e => e.1.reply e.2
  unmade : s.member q = none → own = []
  mirrors : ∀ m, s.member q = some m → Mirrors s.toProcess m a

theorem Follows.spared {own : List (System × Op)} {a : System} (follows : Follows q trace s own a)
    (run : ProcessRun true trace s) (ids : SeparateIds q (trace ++ [(s, call)]))
    (move : s.step true call = some t) (other : call.queue ≠ q) :
    Follows q (trace ++ [(s, call)]) t own a := by
  have apart := run_apart run
  obtain ⟨m', did⟩ := called apart move
  have member : t.member q = s.member q := by
    rw [did.member, Function.update_of_ne (Ne.symm other)]
  refine ⟨follows.run, ?_, ?_, ?_, ?_⟩
  · rw [opsOn_snoc, opsOn_other other, List.append_nil]
    exact follows.ops
  · rw [replies_snoc, replies_other other, List.append_nil]
    exact follows.replies
  · rw [member]
    exact follows.unmade
  · intro m found
    rw [member] at found
    have mir := follows.mirrors m found
    have nodes := apart.nodes _ _ other
    have trackers := apart.trackers _ _ other
    rw [Queues.nodes_of found] at nodes
    rw [Queues.own_of found] at trackers
    refine mir.spared (run_listed follows.run) (apart.holds q m found) did.spares nodes trackers ?_
    intro c self live uses
    have mine := run_drawn run found (mir.live live)
    exact ids self.id call.queue other (drawn_snoc.mpr (Or.inl mine)) (drawn_of_usesId run uses)

theorem Follows.step {own : List (System × Op)} {a : System} (follows : Follows q trace s own a)
    (run : ProcessRun true trace s) {op : Op} (kept : KeptByOwn q s (.on q op))
    (move : s.step true (.on q op) = some t) :
    ∃ a', Follows q (trace ++ [(s, .on q op)]) t (own ++ [(a, op)]) a' := by
  have apart := run_apart run
  obtain ⟨m, p', m', found, step, rfl⟩ := call_on move
  have mir := follows.mirrors m found
  have sound := run_sound follows.run
  have free := kept m op rfl found
  have both := together mir sound (apart.holds q m found) apart.registered free
  unfold Together at both
  rw [step] at both
  generalize local_ : Lmq.step true a op = result at both
  cases both with
  | @some a' _ mir' =>
    refine ⟨a', follows.run.snoc local_, ?_, ?_, ?_, ?_⟩
    · rw [List.map_append, follows.ops, opsOn_snoc]
      simp [opsOn]
    · rw [replies_snoc, follows.replies, List.map_append]
      simp [Lmq.replies, found, mir.reply sound free]
    · intro none_
      simp at none_
    · intro m₁ foundAfter
      simp only [Function.update_self, Option.some.injEq] at foundAfter
      exact foundAfter ▸ mir'

/-- As long as the queue keeps its messages itself, it is as if it were alone. -/
theorem run_follows (run : ProcessRun true trace s) (ids : SeparateIds q trace)
    (kept : Meets (KeptByOwn q) trace) : ∃ own a, Follows q trace s own a := by
  induction run with
  | nil first =>
    subst first
    exact ⟨[], System.init, .nil rfl, rfl, rfl, fun _ => rfl, fun m found => by cases found⟩
  | @snoc trace s t call before move ih =>
    obtain ⟨own, a, follows⟩ := ih (separateIds_before ids) ((meets_snoc ..).mp kept).1
    by_cases mine : call.queue = q
    · cases call with
      | new k =>
        obtain rfl : k = q := mine
        obtain ⟨none_, rfl⟩ := call_new move
        obtain rfl := follows.unmade none_
        have start : a = System.init := by
          generalize same : ([] : List (System × Op)) = none_ at follows
          cases follows.run with
          | nil first => exact first
          | snoc _ _ => simp at same
        subst start
        refine ⟨[], System.init, follows.run, ?_, ?_, fun _ => rfl, ?_⟩
        · rw [opsOn_snoc, ← follows.ops]
          rfl
        · rw [replies_snoc, follows.replies]
          rfl
        · intro m found
          simp only [Function.update_self, Option.some.injEq] at found
          exact found ▸ mirrors_init s.heap _ rfl
      | on k op =>
        obtain rfl : k = q := mine
        obtain ⟨a', after⟩ := follows.step before ((meets_snoc ..).mp kept).2 move
        exact ⟨_, a', after⟩
    · exact ⟨own, a, follows.spared before ids move mine⟩

theorem calls_of_run (run : ProcessRun true trace s) :
    (s.member q = none → callsOn q trace = [] ∧ opsOn q trace = []) ∧
    ∀ m, s.member q = some m → callsOn q trace = .new q :: (opsOn q trace).map (.on q) := by
  induction run with
  | nil first =>
    subst first
    exact ⟨fun _ => ⟨rfl, rfl⟩, fun m found => by cases found⟩
  | @snoc trace s t call before move ih =>
    rw [callsOn_snoc, opsOn_snoc]
    by_cases mine : call.queue = q
    · rw [if_pos mine]
      cases call with
      | new k =>
        obtain rfl : k = q := mine
        obtain ⟨none_, rfl⟩ := call_new move
        obtain ⟨calls, ops⟩ := ih.1 none_
        refine ⟨fun none_ => by simp at none_, fun m _ => ?_⟩
        rw [calls, ops]
        rfl
      | on k op =>
        obtain rfl : k = q := mine
        obtain ⟨m, p', m', found, _, rfl⟩ := call_on move
        refine ⟨fun none_ => by simp at none_, fun _ _ => ?_⟩
        rw [ih.2 m found]
        simp [opsOn]
    · rw [if_neg mine, opsOn_other mine, List.append_nil]
      obtain ⟨m', did⟩ := called (run_apart before) move
      rw [did.member, Function.update_of_ne (Ne.symm mine)]
      exact ih

theorem member_trackers {p p' : Process} {m m' : Member} {op : Op}
    (move : m.step true p op = some (p', m')) (all : ∀ k, k < p.trackers → k ∈ m.trackers) :
    ∀ k, k < p'.trackers → k ∈ m'.trackers := by
  cases op with
  | push payload =>
    obtain ⟨e, _, rfl, rfl⟩ := member_push move
    exact all
  | createConsumer id =>
    obtain ⟨rfl, rfl⟩ := member_create move
    intro k range
    change k < p.trackers + 1 at range
    by_cases new : k = p.trackers
    · exact List.mem_append_right _ (List.mem_singleton.mpr new)
    · exact List.mem_append_left _ (all k (by omega))
  | tryNext c =>
    obtain ⟨self, self', h', dest, _, _, rfl, rfl⟩ := member_tryNext move
    exact all
  | claim handle =>
    obtain ⟨x, _, rfl, rfl⟩ := member_claim move
    exact all
  | drop c =>
    obtain ⟨self, _, rfl, rfl⟩ := member_drop move
    exact all

theorem unheld_of_all {p : Process} {m : Member} (holds : m.Holds p)
    (all : ∀ k, k < p.trackers → k ∈ m.trackers) (op : Op) : Unheld p m op := by
  intro c self _ live
  rintro ⟨_, ⟨e, left, alive⟩, others⟩
  have before := ((mem_remove ..).mp left).1
  exact others e left alive (all e.2 (holds.waiting _ (holds.placed c self live) e before))

/-- A run of one queue is a run of a process in which there is this queue only. -/
theorem alone_run (q : Nat) {own : List (System × Op)} {a : System} (run : QueueRun true own a) :
    ∃ alone t m, ProcessRun true alone t ∧
      alone.map (·.2) = .new q :: (own.map (·.2)).map (.on q) ∧ t.member q = some m ∧
      Mirrors t.toProcess m a ∧ (∀ k, k < t.trackers → k ∈ m.trackers) ∧
      replies true q alone = own.map fun e => e.1.reply e.2 := by
  induction run with
  | nil first =>
    subst first
    have made : Queues.init.step true (.new q) = some { Queues.init with
        heap := (LinkMessageQueue.new Queues.init.heap).1
        member := Function.update Queues.init.member q
          (some (.new (LinkMessageQueue.new Queues.init.heap).2)) } := rfl
    have start : ProcessRun true [] Queues.init := .nil rfl
    exact ⟨_, _, _, start.snoc made, rfl, Function.update_self .., mirrors_init _ _ rfl,
      fun k range => absurd range (Nat.not_lt_zero k), rfl⟩
  | @snoc own a a' op before move ih =>
    obtain ⟨alone, t, m, run, calls, found, mir, all, same⟩ := ih
    have apart := run_apart run
    have sound := run_sound before
    have holds := apart.holds q m found
    have free := unheld_of_all holds all op
    have both := together mir sound holds apart.registered free
    unfold Together at both
    rw [show Lmq.step true a op = some a' from move] at both
    generalize step : m.step true t.toProcess op = result at both
    cases both with
    | @some _ r mir' =>
      obtain ⟨p', m'⟩ := r
      have made : t.step true (.on q op) = some
          { toProcess := p', member := Function.update t.member q (some m') } := by
        simp [Queues.step, found, step]
      refine ⟨_, _, m', run.snoc made, ?_, Function.update_self .., mir',
        member_trackers step all, ?_⟩
      · rw [List.map_append, calls, List.map_append, List.map_append]
        rfl
      · rw [replies_snoc, same, List.map_append]
        simp [replies, found, mir.reply sound free]

theorem messages_of {m : Member} (found : s.member q = some m) :
    s.messages q = m.pushed.map fun x => (s.heap.node x).payload := by
  rw [Queues.messages, found]

theorem Follows.undisturbed {own : List (System × Op)} {a : System}
    (follows : Follows q trace s own a) (run : ProcessRun true trace s) :
    Undisturbed q trace s := by
  obtain ⟨unmade, made⟩ := calls_of_run (q := q) run
  cases found : s.member q with
  | none =>
    obtain ⟨calls, _⟩ := unmade found
    refine ⟨[], Queues.init, .nil rfl, calls.symm, ?_, ?_⟩
    · rw [follows.replies, follows.unmade found]
      rfl
    · rw [Queues.messages, Queues.messages, found]
      rfl
  | some m =>
    obtain ⟨alone, t, m', runAlone, calls, foundAlone, mir, _, same⟩ := alone_run q follows.run
    refine ⟨alone, t, runAlone, ?_, ?_, ?_⟩
    · rw [calls, made m found, follows.ops]
    · rw [same, follows.replies]
    · rw [messages_of foundAlone, mir.messages, messages_of found,
        (follows.mirrors m found).messages]

end Runs

section Held

variable {strongCount : Nat → Nat} {h : Heap} {self : MessageConsumer}

theorem checked_claims (dead : ∀ e ∈ (h.targets self.current).remove self.id, strongCount e.2 = 0)
    (message : (h.node self.current).targetConsumers.isSome) :
    ¬ (checked true strongCount h self).Unclaimed self.current := by
  intro unclaimed
  obtain ⟨e, left, alive⟩ := checked_held message unclaimed
  exact alive (dead e left)

theorem checked_unclaimed (alive : ∃ e ∈ (h.targets self.current).remove self.id,
    strongCount e.2 ≠ 0) (unclaimed : h.Unclaimed self.current) :
    (checked true strongCount h self).Unclaimed self.current := by
  obtain ⟨e, left, alive⟩ := alive
  unfold checked checkShouldNowAutodrop
  rw [if_pos rfl]
  split
  · exact unclaimed
  · rename_i targets found
    rw [Heap.targets, found] at left
    have open_ : ¬ (targets.remove self.id).allDead strongCount = true := by
      rw [allDead_iff]
      exact fun dead => alive (dead e left)
    dsimp only
    rw [if_neg open_, unclaimed_setTargets]
    exact unclaimed

variable {p p' : Process} {m m' : Member} {a a' : System} {op : Op} {c : Nat}

theorem Mirrors.held_claims (mir : Mirrors p m a) (range : self.current < a.heap.size)
    (held : HeldByOthers m.trackers p.strongCount p.heap (m.moved self)) :
    ¬ (checked true a.strongCount a.heap self).Unclaimed self.current ∧
      (checked true p.strongCount p.heap (m.moved self)).Unclaimed (m.place self.current) := by
  obtain ⟨unclaimed, alive, others⟩ := held
  refine ⟨?_, checked_unclaimed alive unclaimed⟩
  have related := mir.heap.targets self.current range
  obtain ⟨e, left, _⟩ := alive
  have before : e ∈ p.heap.targets (m.place self.current) := ((mem_remove ..).mp left).1
  change ∀ e ∈ (p.heap.targets (m.place self.current)).remove self.id, _ at others
  unfold Heap.targets at before others
  generalize found : (a.heap.node self.current).targetConsumers = l at related
  generalize (p.heap.node (m.place self.current)).targetConsumers = L at related before others
  cases related with
  | none => exact absurd before List.not_mem_nil
  | some part =>
    have dead := ((part.remove self.id).allDead_iff mir.counts).mpr others
    rw [allDead_iff] at dead
    apply checked_claims
    · rw [Heap.targets, found]
      exact dead
    · rw [found]
      rfl

theorem step_checked (sound : Sound a) (acts : op = .tryNext c ∨ op = .drop c)
    (live : a.consumers c = some self) : ∃ a', step true a op = some a' ∧
      a'.heap.size = a.heap.size ∧ ∀ x, a'.heap.Unclaimed x ↔
        (checked true a.strongCount a.heap self).Unclaimed x := by
  rcases acts with rfl | rfl
  · obtain ⟨h', dest, run, spec⟩ := sound.next_spec true live
    refine ⟨_, by simp [step, live, run]; rfl, ?_, spec.relinked.unclaimed⟩
    exact spec.relinked.size.trans (size_checked ..)
  · exact ⟨_, by simp [step, live]; rfl, size_checked .., fun x => Iff.rfl⟩

theorem member_checked (acts : op = .tryNext c ∨ op = .drop c) (live : m.consumers c = some self)
    (move : m.step true p op = some (p', m')) : m'.pushed = m.pushed ∧
      ∀ x, p'.heap.Unclaimed x ↔ (checked true p.strongCount p.heap self).Unclaimed x := by
  rcases acts with rfl | rfl
  · obtain ⟨other, other', h', dest, liveD, run, rfl, rfl⟩ := member_tryNext move
    obtain rfl := Option.some.inj (live.symm.trans liveD)
    exact ⟨rfl, (relinked_walk (tryNext_walks run).1).unclaimed⟩
  · obtain ⟨other, liveD, rfl, rfl⟩ := member_drop move
    obtain rfl := Option.some.inj (live.symm.trans liveD)
    exact ⟨rfl, fun x => Iff.rfl⟩

theorem held_disturbs {trace : List (Queues × Call)} {s t : Queues} {q : Nat} {call : Call}
    (run : ProcessRun true trace s) (ids : SeparateIds q trace) (kept : Meets (KeptByOwn q) trace)
    (move : s.step true call = some t) (held : ¬ KeptByOwn q s call) :
    ¬ Undisturbed q (trace ++ [(s, call)]) t := by
  simp only [KeptByOwn, Unheld, not_forall, not_not] at held
  obtain ⟨m, op, rfl, found, c, self, acts, live, held⟩ := held
  obtain ⟨own, a, follows⟩ := run_follows run ids kept
  have mir := follows.mirrors m found
  have sound := run_sound follows.run
  obtain ⟨m₀, p', m', foundM, there, rfl⟩ := call_on move
  obtain rfl := Option.some.inj (found.symm.trans foundM)
  rw [mir.consumers c] at live
  obtain ⟨self', liveA, rfl⟩ := Option.map_eq_some_iff.mp live
  have range := (sound.placed c self' liveA).1
  obtain ⟨claimed, open_⟩ := mir.held_claims range held
  obtain ⟨a', local_, size, after⟩ := step_checked sound acts liveA
  obtain ⟨pushed, afterM⟩ := member_checked acts (mir.live liveA) there
  rw [← after] at claimed
  rw [← afterM] at open_
  rintro ⟨alone, t', runAlone, calls, _, same⟩
  -- There is one run of the calls on the queue alone, and it leads to `a'`.
  obtain ⟨alone', t'', m'', runAlone', calls', foundAlone, mirAlone, _⟩ :=
    alone_run q (follows.run.snoc local_)
  have labels : callsOn q (trace ++ [(s, .on q op)]) =
      .new q :: ((own ++ [(a, op)]).map (·.2)).map (.on q) := by
    rw [callsOn_snoc, if_pos (by rfl), (calls_of_run run).2 m found, ← follows.ops]
    simp
  obtain ⟨_, rfl⟩ := run_unique runAlone runAlone' (by rw [calls, calls', labels])
  rw [messages_of foundAlone, mirAlone.messages, messages_of (Function.update_self ..)] at same
  -- The two lists of messages differ at the one the consumer stands on.
  have message : 2 ≤ self'.current := by
    have unclaimed := (mir.heap.unclaimed range).mp held.1
    have bounds := sound.well.unclaimed_range _ unclaimed
    have root := sound.well.root_second
    omega
  obtain ⟨k, place⟩ := Nat.exists_eq_add_of_le' message
  have mine : a'.messages[k]? = some none := by
    rw [System.messages, List.getElem?_map, List.getElem?_range (by omega), Option.map_some,
      ← place]
    simpa [Heap.Unclaimed, NextMessage.isClaimed] using claimed
  have theirs := mir.pushed (k := k) (by omega)
  rw [same, pushed, List.getElem?_map, theirs, Option.map_some, ← place] at mine
  have gone := Option.some.inj mine
  rw [Heap.Unclaimed, NextMessage.isClaimed, gone] at open_
  cases open_

end Held

/-- A queue goes undisturbed throughout a run of the process exactly when no check of it finds
    a message kept by consumers of other queues alone. -/
theorem undisturbed_iff {trace : List (Queues × Call)} {s : Queues} {q : Nat}
    (run : ProcessRun true trace s) (ids : SeparateIds q trace) :
    Throughout (Undisturbed q) trace s ↔ Meets (KeptByOwn q) trace := by
  constructor
  · intro undisturbed
    induction run with
    | nil first => exact meets_nil _
    | @snoc trace s t call before move ih =>
      have earlier := separateIds_before ids
      rw [throughout_snoc] at undisturbed
      have kept := ih earlier undisturbed.2
      refine (meets_snoc ..).mpr ⟨kept, ?_⟩
      by_contra held
      exact held_disturbs before earlier kept move held undisturbed.1
  · intro kept
    induction run with
    | nil first =>
      obtain ⟨own, a, follows⟩ := run_follows (.nil first) ids kept
      exact (throughout_nil ..).mpr (follows.undisturbed (.nil first))
    | @snoc trace s t call before move ih =>
      have earlier := ih (separateIds_before ids) ((meets_snoc ..).mp kept).1
      obtain ⟨own, a, follows⟩ := run_follows (before.snoc move) ids kept
      exact (throughout_snoc ..).mpr ⟨follows.undisturbed (before.snoc move), earlier⟩

/-- The consumer of queue 1 is dropped before that of queue 0 passes the message on. -/
theorem undisturbed_iff_two_queues : ∃ trace s, ProcessRun true trace s ∧
    Meets (KeptByOwn 0) trace ∧ Throughout (Undisturbed 0) trace s ∧ s.messages 0 = [none] := by
  obtain ⟨trace, s, run, calls, kept, messages⟩ := execute_run (Queues.step true) Queues.init
    [.new 0, .new 1, .on 0 (.createConsumer 7), .on 1 (.createConsumer 8), .on 1 (.push [2]),
      .on 0 (.push [1]), .on 0 (.tryNext 0), .on 1 (.drop 0), .on 0 (.tryNext 0)]
    (fun trace s => trace.map (·.2) =
        [.new 0, .new 1, .on 0 (.createConsumer 7), .on 1 (.createConsumer 8), .on 1 (.push [2]),
          .on 0 (.push [1]), .on 0 (.tryNext 0), .on 1 (.drop 0), .on 0 (.tryNext 0)] ∧
      (∀ e ∈ trace, KeptByOwn 0 e.1 e.2) ∧ s.messages 0 = [none])
    (by decide +kernel)
  have ids : SeparateIds 0 trace := by
    intro id q' differ mine theirs
    rw [drawn_iff, calls] at mine theirs
    simp at mine theirs
    rcases theirs with ⟨rfl, _⟩ | ⟨_, rfl⟩
    · exact differ rfl
    · cases mine
  exact ⟨trace, s, run, kept, (undisturbed_iff run ids).mpr kept, messages⟩

/- The only consumer of queue 0 passes the message on; a consumer of queue 1 is alive. -/
def interferingCalls : List Call :=
  [.new 0, .new 1, .on 0 (.createConsumer 7), .on 1 (.createConsumer 8), .on 0 (.push [1]),
    .on 0 (.tryNext 0), .on 0 (.tryNext 0)]

theorem queues_interfere : ∃ trace s, ProcessRun true trace s ∧ SeparateIds 0 trace ∧
    trace.map (·.2) = interferingCalls ∧ s.messages 0 = [some [1]] ∧
    ¬ Undisturbed 0 trace s := by
  obtain ⟨trace, s, run, calls, messages⟩ := execute_run (Queues.step true) Queues.init
    interferingCalls
    (fun trace s => trace.map (·.2) = interferingCalls ∧ s.messages 0 = [some [1]])
    (by decide +kernel)
  obtain ⟨alone, t, runAlone, callsAlone, claimed⟩ := execute_run (Queues.step true) Queues.init
    (interferingCalls.filter (·.queue = 0))
    (fun alone t => alone.map (·.2) = interferingCalls.filter (·.queue = 0) ∧
      t.messages 0 = [none])
    (by decide +kernel)
  refine ⟨trace, s, run, ?_, calls, messages, ?_⟩
  · intro id q' differ mine theirs
    rw [drawn_iff, calls] at mine theirs
    simp [interferingCalls] at mine theirs
    rcases theirs with ⟨rfl, _⟩ | ⟨_, rfl⟩
    · exact differ rfl
    · cases mine
  · rintro ⟨other, u, runOther, callsOther, _, same⟩
    rw [callsOn, calls] at callsOther
    obtain ⟨_, rfl⟩ := run_unique runOther runAlone (callsOther.trans callsAlone.symm)
    rw [claimed, messages] at same
    cases same

end Lmq
