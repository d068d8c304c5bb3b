import SkyCurrent.Base.SharedLog
import SkyCurrent.Lmq.Delivery
import SkyCurrent.Lmq.Isolation
import SkyCurrent.Lmq.Order

/- What the linked list is for: a log that consumers go over and take messages out of. As long
   as no stranded consumer calls try_next and no call truncates the list, nothing tells the
   queue from such a log. -/
namespace Lmq

open StateTransition Relation PointerForest Runs
open SharedLog (Log Event Holds firstFrom)

variable {autodrop : Bool} {trace : List (System × Op)} {s t : System}

section Payloads

@[simp] theorem payload_setNext (h : Heap) (r x : Nat) (v : Option Nat) :
    ((h.setNext r v).node x).payload = (h.node x).payload := by
  by_cases same : x = r
  · subst same
    simp [Heap.setNext, Heap.modify]
  · simp [Heap.setNext, Heap.modify, same]

@[simp] theorem payload_setTargets (h : Heap) (r x : Nat) (v : Option Consumers) :
    ((h.setTargets r v).node x).payload = (h.node x).payload := by
  by_cases same : x = r
  · subst same
    simp [Heap.setTargets, Heap.modify]
  · simp [Heap.setTargets, Heap.modify, same]

theorem payload_claim (h : Heap) (m x : Nat) :
    ((claim h m).1.node x).payload = if x = m then none else (h.node x).payload := by
  by_cases same : x = m
  · subst same
    simp [claim, Heap.modify]
  · simp [claim, Heap.modify, same]

theorem payload_visit (h : Heap) (current nextArc x : Nat) (currentIsClaimed : Bool) :
    ((visit h current currentIsClaimed nextArc).1.node x).payload = (h.node x).payload := by
  unfold visit
  split
  · exact payload_setNext ..
  · cases h.next nextArc <;> cases currentIsClaimed <;> simp

theorem payload_walk {current : Nat} {currentIsClaimed : Bool} {fuel : Nat} {h h' : Heap}
    {next dest : Option Nat}
    (run : walk current currentIsClaimed fuel h next = some (h', dest)) (x : Nat) :
    (h'.node x).payload = (h.node x).payload := by
  induction fuel generalizing h next with
  | zero =>
    cases next with
    | none =>
      simp only [walk, Option.some.injEq, Prod.mk.injEq] at run
      rw [run.1]
    | some nextArc => simp [walk] at run
  | succ fuel ih =>
    cases next with
    | none =>
      simp only [walk, Option.some.injEq, Prod.mk.injEq] at run
      rw [run.1]
    | some nextArc =>
      have kept := payload_visit h current nextArc x currentIsClaimed
      rw [walk] at run
      split at run
      · cases run
      · split at run
        · rename_i seen
          rw [seen] at kept
          simp only [Option.some.injEq, Prod.mk.injEq] at run
          rw [← run.1, kept]
        · rename_i seen
          rw [seen] at kept
          simp only [Option.some.injEq, Prod.mk.injEq] at run
          rw [← run.1, kept]
        · rename_i seen
          rw [seen] at kept
          rw [ih run, kept]

theorem payload_tryNext {strongCount : Nat → Nat} {h h' : Heap} {self self' : MessageConsumer}
    {dest : Option Nat} (run : tryNext autodrop strongCount h self = some (h', self', dest))
    (x : Nat) :
    (h'.node x).payload = ((checked autodrop strongCount h self).node x).payload := by
  simp only [tryNext, Option.map_eq_some_iff, Prod.mk.injEq, Prod.exists] at run
  obtain ⟨h'', moveTo, walked, rfl, _, _⟩ := run
  exact payload_walk walked x

end Payloads

section Messages

def Heap.messages (h : Heap) : List (Option (List UInt8)) :=
  (List.range (h.size - 2)).map fun k => (h.node (k + 2)).payload

theorem messages_get (h : Heap) (i : Nat) :
    h.messages[i]? = if i + 2 < h.size then some (h.node (i + 2)).payload else none := by
  rw [Heap.messages, List.getElem?_map]
  split
  · rw [List.getElem?_range (by omega)]
    rfl
  · rw [List.getElem?_eq_none (by simp; omega)]
    rfl

theorem messages_congr {h h' : Heap} (size : h'.size = h.size)
    (payload : ∀ x, (h'.node x).payload = (h.node x).payload) : h'.messages = h.messages := by
  simp [Heap.messages, size, payload]

theorem messages_claim (h : Heap) {m : Nat} (message : 2 ≤ m) :
    (claim h m).1.messages = h.messages.set (m - 2) none := by
  apply List.ext_getElem?
  intro i
  rw [messages_get, List.getElem?_set, messages_get, size_claim, payload_claim]
  have length : h.messages.length = h.size - 2 := by simp [Heap.messages]
  rw [length]
  by_cases same : i + 2 = m
  · subst same
    by_cases inside : i + 2 < h.size
    · simp [inside, show i < h.size - 2 by omega]
    · simp [inside, show ¬ i < h.size - 2 by omega]
  · rw [if_neg same, if_neg (show ¬ m - 2 = i by omega)]

theorem holds_messages {h : Heap} {q : LinkMessageQueue} (well : WellLinked h q) {i : Nat} :
    Holds h.messages i ↔ h.Unclaimed (i + 2) := by
  unfold Holds
  rw [messages_get]
  constructor
  · rintro ⟨payload, here⟩
    split at here
    · have some_ := Option.some.inj here
      simp [Heap.Unclaimed, NextMessage.isClaimed, some_]
    · cases here
  · intro unclaimed
    rw [if_pos (well.unclaimed_range _ unclaimed).2]
    simp only [Heap.Unclaimed, NextMessage.isClaimed, Option.isNone_eq_false_iff,
      Option.isSome_iff_exists] at unclaimed
    obtain ⟨payload, here⟩ := unclaimed
    exact ⟨payload, by rw [here]⟩

theorem messages_appended {h : Heap} {q : LinkMessageQueue} (well : WellLinked h q) (e : Nat)
    {m : NextMessage} {payload : List UInt8} (value : m.payload = some payload) :
    (appended h e m).messages = h.messages ++ [some payload] := by
  have order := well.root_lt
  have second := well.root_second
  have length : h.messages.length = h.size - 2 := by simp [Heap.messages]
  have size : (appended h e m).size = h.size + 1 := rfl
  have node : ∀ x, ((appended h e m).node x).payload =
      if x = h.size then some payload else (h.node x).payload := by
    intro x
    rw [appended, payload_setNext]
    by_cases new : x = h.size
    · subst new
      simp [Heap.alloc, value]
    · simp [Heap.alloc, new]
  apply List.ext_getElem?
  intro i
  rw [messages_get, List.getElem?_append, messages_get, length, size, node]
  by_cases old : i < h.size - 2
  · rw [if_pos old, if_pos (by omega), if_neg (by omega), if_pos (by omega)]
  · rw [if_neg old]
    by_cases last : i = h.size - 2
    · rw [if_pos (by omega), if_pos (by omega), last, Nat.sub_self]
      rfl
    · rw [if_neg (by omega), List.getElem?_eq_none (by simp; omega)]

end Messages

section Autodrop

def Autodrops (autodrop : Bool) (s : System) (self : MessageConsumer) : Prop :=
  s.heap.Unclaimed self.current ∧
    ¬ (checked autodrop s.strongCount s.heap self).Unclaimed self.current

instance (autodrop : Bool) (s : System) (self : MessageConsumer) :
    Decidable (Autodrops autodrop s self) :=
  inferInstanceAs (Decidable (_ ∧ _))

theorem payload_checked (autodrop : Bool) (s : System) (self : MessageConsumer) (x : Nat) :
    ((checked autodrop s.strongCount s.heap self).node x).payload =
      if x = self.current ∧ Autodrops autodrop s self then none else (s.heap.node x).payload := by
  by_cases here : x = self.current
  · subst here
    by_cases drops : Autodrops autodrop s self
    · rw [if_pos ⟨rfl, drops⟩]
      have gone := drops.2
      simp only [Heap.Unclaimed, NextMessage.isClaimed, Bool.not_eq_false] at gone
      simpa using gone
    · rw [if_neg (fun both => drops both.2)]
      unfold checked checkShouldNowAutodrop
      split
      · split
        · rfl
        · dsimp only
          split
          · rename_i enabled _ _ found dead
            by_contra changed
            apply drops
            have unclaimed : s.heap.Unclaimed self.current := by
              by_contra claimed
              apply changed
              rw [payload_claim, if_pos rfl]
              simp only [Heap.Unclaimed, NextMessage.isClaimed, Bool.not_eq_false] at claimed
              simpa using (Option.isNone_iff_eq_none.mp claimed).symm
            refine ⟨unclaimed, ?_⟩
            simp [checked, checkShouldNowAutodrop, enabled, found, dead, unclaimed_claim]
          · exact payload_setTargets ..
      · rfl
  · rw [if_neg (fun both => here both.1)]
    unfold checked checkShouldNowAutodrop
    split
    · split
      · rfl
      · dsimp only
        split
        · rw [payload_claim, if_neg here, payload_setTargets]
        · exact payload_setTargets ..
    · rfl

theorem messages_checked (autodrop : Bool) (sound : Sound s) (self : MessageConsumer) :
    (checked autodrop s.strongCount s.heap self).messages =
      if Autodrops autodrop s self then s.heap.messages.set (self.current - 2) none
      else s.heap.messages := by
  have size := size_checked autodrop s.strongCount s.heap self
  split
  · rename_i drops
    have message := (sound.well.unclaimed_range _ drops.1).1
    have second := sound.well.root_second
    rw [← messages_claim s.heap (by omega)]
    apply messages_congr (by rw [size, size_claim])
    intro x
    rw [payload_checked, payload_claim]
    simp [drops]
  · rename_i keeps
    apply messages_congr size
    intro x
    rw [payload_checked, if_neg (fun both => keeps both.2)]

end Autodrop

def System.log (s : System) : Log (List UInt8) :=
  ⟨s.heap.messages, s.trackers, fun c => (s.consumers c).map (·.current - 1)⟩

def System.autodrops (autodrop : Bool) (s : System) (c : Nat) : List (Event (List UInt8)) :=
  match s.consumers c with
  | none => []
  | some self =>
    if Autodrops autodrop s self then
      [.takes (self.current - 2) (s.heap.node self.current).payload]
    else []

def events (autodrop : Bool) (s : System) : Op → List (Event (List UInt8))
  | .push payload => [.appends payload]
  | .createConsumer _ => [.enters]
  | .tryNext c => s.autodrops autodrop c ++ [.reads c ((s.returns autodrop c).map (· - 2))]
  | .claim handle =>
    match s.handles[handle]? with
    | none => []
    | some m => [.takes (m - 2) (claim s.heap m).2]
  | .drop c => s.autodrops autodrop c ++ [.leaves c]

/-- No stranded consumer calls try_next, and no call truncates the list. -/
def Faithful (autodrop : Bool) (s : System) (op : Op) : Prop :=
  NotStranded s op ∧ NotTruncating autodrop s op

def Handed (s : System) : Prop := ∀ m ∈ s.handles, 2 ≤ m ∧ m < s.heap.size

section Steps

theorem autodrops_path (autodrop : Bool) (sound : Sound s) {c : Nat} {self : MessageConsumer}
    (live : s.consumers c = some self) :
    Path SharedLog.Step s.log (s.autodrops autodrop c)
      { s.log with entries := (checked autodrop s.strongCount s.heap self).messages } := by
  rw [System.autodrops, live, messages_checked autodrop sound]
  dsimp only
  split
  · rename_i drops
    have bounds := sound.well.unclaimed_range _ drops.1
    have second := sound.well.root_second
    apply Path.single
    apply SharedLog.Step.takes
    change s.heap.messages[self.current - 2]? = _
    rw [messages_get, if_pos (by omega), Nat.sub_add_cancel (by omega)]
  · exact .nil _

theorem log_moved (s : System) (c : Nat) (self : MessageConsumer) :
    (fun d => (Function.update s.consumers c (some self) d).map (·.current - 1)) =
      Function.update s.log.cursor c (some (self.current - 1)) := by
  funext d
  by_cases same : d = c
  · subst same
    simp
  · simp [same, System.log]

theorem returns_firstFrom (autodrop : Bool) (delivering : Delivering s) {c : Nat}
    {self : MessageConsumer} (live : s.consumers c = some self) (home : ¬ Stranded s c) :
    firstFrom (checked autodrop s.strongCount s.heap self).messages (self.current - 1) =
      (s.returns autodrop c).map (· - 2) := by
  have sound := delivering.sound
  have place := sound.placed c self live
  have well := sound.well.claimedSince (claimedSince_checked autodrop s.strongCount s.heap self)
  have second := sound.well.root_second
  have first := sound.well.tail_first
  obtain ⟨h', dest, run, spec⟩ := sound.next_spec autodrop live
  have result : s.returns autodrop c = dest := by simp [System.returns, live, run]
  -- An unclaimed message behind the consumer is one that the call can find.
  have ahead : ∀ u, self.current < u →
      (checked autodrop s.strongCount s.heap self).Unclaimed u →
      ∃ f, dest = some f ∧ f ≤ u := by
    intro u later open_
    have unclaimed := (unclaimed_checked autodrop s.strongCount s.heap self
      (Nat.ne_of_gt later)).mp open_
    have walk := delivering.single.leads_on sound.well place.1 place.2 unclaimed later
    obtain ⟨f, found, rest⟩ := spec.ahead u unclaimed (Nat.ne_of_gt later) walk
    refine ⟨f, found, ?_⟩
    have bound := sound.well.unclaimed_range u unclaimed
    exact spec.well.reaches_later (spec.origin f found).1 rest (by omega)
  rw [result]
  cases dest with
  | none =>
    rw [Option.map_none, SharedLog.firstFrom_none]
    intro j from_ holds
    obtain ⟨f, found, _⟩ := ahead (j + 2) (by omega) ((holds_messages well).mp holds)
    cases found
  | some f =>
    have later := returns_later sound live home result
    obtain ⟨open_, _, _⟩ := spec.origin f rfl
    have bounds := spec.well.unclaimed_range f open_
    rw [Option.map_some, SharedLog.firstFrom_some]
    refine ⟨by omega, ?_, ?_⟩
    · rw [holds_messages well, Nat.sub_add_cancel (by omega)]
      exact (spec.relinked.unclaimed f).mp open_
    · intro j from_ before holds
      obtain ⟨g, found, less⟩ := ahead (j + 2) (by omega) ((holds_messages well).mp holds)
      obtain rfl := Option.some.inj found
      omega

theorem claim_takes {m : Nat} (range : 2 ≤ m ∧ m < s.heap.size) :
    SharedLog.Step s.log (.takes (m - 2) (claim s.heap m).2)
      { s.log with entries := (claim s.heap m).1.messages } := by
  have here : s.log.entries[m - 2]? = some (claim s.heap m).2 := by
    change s.heap.messages[m - 2]? = _
    rw [messages_get, if_pos (by omega), Nat.sub_add_cancel range.1]
    rfl
  rw [messages_claim s.heap range.1]
  exact .takes here

theorem found_range {h₀ h h' : Heap} {q : LinkMessageQueue} {p f : Nat}
    (spec : NextSpec q h₀ h h' p (some f)) : 2 ≤ f ∧ f < h'.size := by
  have bounds := spec.well.unclaimed_range f (spec.origin f rfl).1
  have second := spec.well.root_second
  omega

theorem handed_step (sound : Sound s) (handed : Handed s) {op : Op}
    (move : Step autodrop s op t) : Handed t := by
  intro m member
  cases op with
  | push payload =>
    obtain ⟨e, walk, stop, rfl⟩ := step_push sound move
    have before := handed m member
    exact ⟨before.1, Nat.lt_succ_of_lt before.2⟩
  | createConsumer id =>
    obtain rfl := step_create move
    exact handed m member
  | tryNext c =>
    obtain ⟨self, h', dest, _, _, spec, rfl⟩ := step_tryNext sound move
    change 2 ≤ m ∧ m < h'.size
    rcases List.mem_append.mp member with before | new
    · rw [spec.relinked.size, size_checked]
      exact handed m before
    · obtain rfl : dest = some m := by simpa using new
      exact found_range spec
  | claim handle =>
    obtain ⟨n, _, rfl⟩ := step_claim move
    exact handed m member
  | drop c =>
    obtain ⟨self, _, rfl⟩ := step_drop move
    change 2 ≤ m ∧ m < (checked autodrop s.strongCount s.heap self).size
    rw [size_checked]
    exact handed m member

theorem cells_step (sound : Sound s) (handed : Handed s) {op : Op} (move : Step autodrop s op t) :
    Path SharedLog.Cells s.heap.messages (events autodrop s op) t.heap.messages := by
  cases op with
  | push payload =>
    obtain ⟨e, walk, stop, rfl⟩ := step_push sound move
    have more : (appended s.heap e (newNode autodrop s.active s.queue.tail payload)).messages =
        s.heap.messages ++ [some payload] := messages_appended sound.well e rfl
    rw [more]
    exact .single (.appends payload)
  | createConsumer id =>
    obtain rfl := step_create move
    exact .single (.other rfl fun i => rfl)
  | tryNext c =>
    obtain ⟨self, _, _, live, _, _, _⟩ := step_tryNext sound move
    obtain ⟨h', dest, run, spec⟩ := sound.next_spec autodrop live
    have messages : t.heap.messages =
        (checked autodrop s.strongCount s.heap self).messages := by
      simp only [Step, step, live, run, Option.bind_eq_bind, Option.bind_some,
        Option.some.injEq] at move
      subst move
      exact messages_congr spec.relinked.size (payload_tryNext run)
    rw [messages]
    have path := (autodrops_path autodrop sound live).map Log.entries
      (fun _ _ _ move => move.cells)
    exact path.append (.single (.other rfl fun i => rfl))
  | claim handle =>
    obtain ⟨m, found, rfl⟩ := step_claim move
    simp only [events, found]
    exact .single (claim_takes (handed m (List.mem_of_getElem? found))).cells
  | drop c =>
    obtain ⟨self, live, rfl⟩ := step_drop move
    have path := (autodrops_path autodrop sound live).map Log.entries
      (fun _ _ _ move => move.cells)
    exact path.append (.single (.other rfl fun i => rfl))

theorem log_step (delivering : Delivering s) (handed : Handed s) {op : Op} (home : NotStranded s op)
    (move : Step autodrop s op t) :
    Path SharedLog.Step s.log (events autodrop s op) t.log := by
  have sound := delivering.sound
  have second := sound.well.root_second
  cases op with
  | push payload =>
    obtain ⟨e, walk, stop, rfl⟩ := step_push sound move
    have more : (appended s.heap e (newNode autodrop s.active s.queue.tail payload)).messages =
        s.heap.messages ++ [some payload] := messages_appended sound.well e rfl
    have path : Path SharedLog.Step s.log [.appends payload] _ := .single (.appends payload)
    simpa [System.log, more, events] using path
  | createConsumer id =>
    obtain rfl := step_create move
    have path : Path SharedLog.Step s.log [.enters] _ := .single .enters
    have cursor := log_moved s s.trackers ⟨s.queue.root, id, s.trackers⟩
    rw [second] at cursor
    simp only [events]
    convert path using 1
    simp only [System.log, createConsumer, second] at cursor ⊢
    rw [cursor]
  | tryNext c =>
    obtain ⟨self, _, _, live, _, _, _⟩ := step_tryNext sound move
    obtain ⟨h', dest, run, spec⟩ := sound.next_spec autodrop live
    have first := returns_firstFrom autodrop delivering live (home c rfl)
    have result : s.returns autodrop c = dest := by simp [System.returns, live, run]
    rw [result] at first
    have messages : h'.messages = (checked autodrop s.strongCount s.heap self).messages :=
      messages_congr spec.relinked.size (payload_tryNext run)
    have here : ({ s.log with
        entries := (checked autodrop s.strongCount s.heap self).messages }).cursor c =
          some (self.current - 1) := by
      simp [System.log, live]
    have read := (autodrops_path autodrop sound live).append
      (.single (SharedLog.Step.reads here))
    simp only [Step, step, live, run, Option.bind_eq_bind, Option.bind_some,
      Option.some.injEq] at move
    subst move
    simp only [events, result]
    rw [first] at read
    convert read using 1
    simp only [System.log, Log.reads, messages, first]
    rw [log_moved s c]
    cases dest with
    | none => rfl
    | some f =>
      have bound := (found_range spec).1
      simp only [Option.getD_some, Option.map_some]
      rw [show f - 1 = f - 2 + 1 by omega]
      rfl
  | claim handle =>
    obtain ⟨m, found, rfl⟩ := step_claim move
    simp only [events, found]
    exact .single (claim_takes (handed m (List.mem_of_getElem? found)))
  | drop c =>
    obtain ⟨self, live, rfl⟩ := step_drop move
    have here : ({ s.log with
        entries := (checked autodrop s.strongCount s.heap self).messages }).cursor c ≠ none := by
      simp [System.log, live]
    have left := (autodrops_path autodrop sound live).append
      (.single (SharedLog.Step.leaves here))
    simp only [events]
    convert left using 1
    simp only [System.log, dropConsumer, Log.mk.injEq, true_and]
    funext d
    by_cases same : d = c
    · subst same
      simp
    · simp [same]

end Steps

section Runs

def seen (autodrop : Bool) (trace : List (System × Op)) : List (Event (List UInt8)) :=
  trace.flatMap fun e => events autodrop e.1 e.2

def pushes (trace : List (System × Op)) : List (List UInt8) :=
  trace.filterMap fun e => match e.2 with
    | .push payload => some payload
    | _ => none

theorem handed_init : Handed System.init := fun m member => by cases member

theorem log_init : System.init.log = .empty := rfl

theorem cells_simulate (autodrop : Bool) :
    Simulates (· = System.init) (Step autodrop) (fun _ _ => True) (events autodrop) []
      SharedLog.Cells fun s entries => Sound s ∧ Handed s ∧ entries = s.heap.messages := by
  refine ⟨?_, ?_⟩
  · rintro s rfl
    exact ⟨sound_init, handed_init, rfl⟩
  · rintro s op t entries ⟨sound, handed, rfl⟩ _ move
    exact ⟨_, cells_step sound handed move, step_sound sound move,
      handed_step sound handed move, rfl⟩

theorem log_simulates (autodrop : Bool) :
    Simulates (· = System.init) (Step autodrop) (Faithful autodrop) (events autodrop) .empty
      SharedLog.Step fun s log => Delivering s ∧ Handed s ∧ log = s.log := by
  refine ⟨?_, ?_⟩
  · rintro s rfl
    exact ⟨delivering_init, handed_init, log_init.symm⟩
  · rintro s op t log ⟨delivering, handed, rfl⟩ faithful move
    exact ⟨_, log_step delivering handed faithful.1 move,
      step_delivering delivering faithful.2 move,
      handed_step delivering.sound handed move, rfl⟩

theorem run_accounts (run : QueueRun autodrop trace s) :
    SharedLog.Accounted (seen autodrop trace) s.heap.messages := by
  have always : Meets (fun (_ : System) (_ : Op) => True) trace := fun _ _ => trivial
  obtain ⟨_, path, _, _, rfl⟩ := (cells_simulate autodrop).run run always
  exact SharedLog.accounted_of_path path

theorem appended_autodrops (autodrop : Bool) (s : System) (c : Nat) :
    SharedLog.appended (s.autodrops autodrop c) = [] := by
  unfold System.autodrops
  split
  · rfl
  · split <;> rfl

theorem appended_seen (autodrop : Bool) (trace : List (System × Op)) :
    SharedLog.appended (seen autodrop trace) = pushes trace := by
  induction trace with
  | nil => rfl
  | cons e trace ih =>
    have split : SharedLog.appended (seen autodrop (e :: trace)) =
        SharedLog.appended (events autodrop e.1 e.2) ++
          SharedLog.appended (seen autodrop trace) := by
      simp only [seen, List.flatMap_cons]
      exact List.filterMap_append
    rw [split, ih]
    obtain ⟨s, op⟩ := e
    cases op with
    | push payload => rfl
    | createConsumer id => rfl
    | tryNext c =>
      have none_ := appended_autodrops autodrop s c
      simp only [events, pushes, List.filterMap_cons]
      rw [SharedLog.appended_snoc, none_]
      rfl
    | claim handle =>
      simp only [events, pushes, List.filterMap_cons]
      split <;> rfl
    | drop c =>
      have none_ := appended_autodrops autodrop s c
      simp only [events, pushes, List.filterMap_cons]
      rw [SharedLog.appended_snoc, none_]
      rfl

end Runs

end Lmq
