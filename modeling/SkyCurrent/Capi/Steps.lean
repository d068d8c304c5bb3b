import SkyCurrent.Capi.Model

/- What a step of a call and of a task can be. -/
namespace Capi

variable {s t : State} {c h : Nat}

def State.Provides (s : State) (rt : Nat) : Prop :=
  s.tokioRt = some rt ∨ s.tokioRt = none ∧ rt = s.runtimes

def State.withRt (s : State) (rt : Nat) : State :=
  { s with tokioRt := some rt, runtimes := if s.tokioRt = none then s.runtimes + 1 else s.runtimes }

/-- The call may end in a panic: a callback id that is there already, a resume mode that is none,
    a task that has panicked, or a wait in a task. -/
def Call.Panics (inTask : Bool) : Call → Prop
  | .inserts _ => True
  | .looksUp _ noBlock => inTask = true ∨ ResumeMode.ofInt noBlock = none
  | .removes _ => inTask = true
  | .joins _ => True
  | .checks _ => inTask = true
  | _ => False

inductive Goes (s : State) (c : Nat) : State → Prop where
  | getsId {startPaused drewZero : Bool} (call : Call)
      (here : s.calls[c]? = some (.getsId startPaused drewZero))
      (next : call = .getsId startPaused true ∨
        call = .getsRuntime startPaused s.nextCallbackId) :
      Goes s c ({ s with nextCallbackId := s.nextCallbackId + 1 }.put c call)
  | getsRuntime {startPaused : Bool} {callbackId : UInt64} (rt : Nat)
      (here : s.calls[c]? = some (.getsRuntime startPaused callbackId)) (provides : s.Provides rt)
      (free : s.dropping = false) :
      Goes s c ((s.withRt rt).put c (.spawns startPaused callbackId rt))
  | spawns {startPaused : Bool} {callbackId : UInt64} {rt : Nat}
      (here : s.calls[c]? = some (.spawns startPaused callbackId rt)) :
      Goes s c (s.spawns c startPaused callbackId rt)
  | inserts {callbackId : UInt64} (here : s.calls[c]? = some (.inserts callbackId))
      (free : s.locked = false) (new : s.entry callbackId = none) :
      Goes s c (({ s with waitTasks := s.waitTasks ++ [(callbackId, c)] }.modify c
        fun handler => { handler with registered := true }).put c (.registered callbackId))
  | unknown {callbackId : UInt64} {noBlock : Int}
      (here : s.calls[c]? = some (.looksUp callbackId noBlock))
      (entry : s.entry callbackId = none) : Goes s c (s.put c (.resumed (-1)))
  | looksUp {callbackId : UInt64} {noBlock : Int} {mode : ResumeMode} {h : Nat}
      (here : s.calls[c]? = some (.looksUp callbackId noBlock)) (free : s.locked = false)
      (entry : s.entry callbackId = some h) (valid : ResumeMode.ofInt noBlock = some mode)
      (outside : s.inTask c = false) : Goes s c (s.put c (.sends h mode))
  | fails {h : Nat} {mode : ResumeMode} (here : s.calls[c]? = some (.sends h mode)) :
      Goes s c (s.put c (.resumed (-1)))
  | sends {h : Nat} {mode : ResumeMode} (here : s.calls[c]? = some (.sends h mode)) :
      Goes s c ((s.modify h fun handler => { handler with signal := some mode }).put c (.resumed 0))
  | getsHandle {callbackId : UInt64} (rt : Nat) (here : s.calls[c]? = some (.getsHandle callbackId))
      (provides : s.Provides rt) (free : s.dropping = false) :
      Goes s c ((s.withRt rt).put c (.removes callbackId))
  | missing {callbackId : UInt64} (here : s.calls[c]? = some (.removes callbackId))
      (free : s.locked = false) (entry : s.entry callbackId = none) :
      Goes s c (s.put c (.checks false))
  | removes {callbackId : UInt64} {h : Nat} (here : s.calls[c]? = some (.removes callbackId))
      (free : s.locked = false) (entry : s.entry callbackId = some h)
      (outside : s.inTask c = false) :
      Goes s c (({ s with waitTasks := s.without callbackId }.modify h
        fun handler => { handler with aborted := true, deregistered := true }).put c (.joins h))
  | joins {h : Nat} (here : s.calls[c]? = some (.joins h)) : Goes s c (s.put c (.checks true))
  | shutsDown {foundHandler : Bool} {rt : Nat} (here : s.calls[c]? = some (.checks foundHandler))
      (empty : s.waitTasks = []) (runtime : s.tokioRt = some rt) (outside : s.inTask c = false) :
      Goes s c ({ s with tokioRt := none }.put c (.drops rt foundHandler))
  | keeps {foundHandler : Bool} (here : s.calls[c]? = some (.checks foundHandler))
      (kept : ∀ rt, s.waitTasks = [] → s.tokioRt ≠ some rt) :
      Goes s c (s.put c (.deregistered foundHandler))
  | drops {rt : Nat} {foundHandler : Bool} (here : s.calls[c]? = some (.drops rt foundHandler)) :
      Goes s c (s.put c (.deregistered foundHandler))
  | crashes {call : Call} (here : s.calls[c]? = some call) (panics : call.Panics (s.inTask c)) :
      Goes s c s.crash

theorem getOrInsertRt_some {rt : Nat} (got : s.getOrInsertRt = some (rt, t)) :
    s.Provides rt ∧ s.dropping = false ∧ t = s.withRt rt := by
  unfold State.getOrInsertRt at got
  split at got
  · cases got
  · rename_i free
    split at got
    · rename_i here
      cases got
      refine ⟨Or.inl here, Bool.eq_false_iff.mpr free, ?_⟩
      rw [State.withRt, here, if_neg (by simp), ← here]
    · rename_i none_
      cases got
      refine ⟨Or.inr ⟨none_, rfl⟩, Bool.eq_false_iff.mpr free, ?_⟩
      rw [State.withRt, if_pos none_]

theorem goes_cases (move : s.goes c = some t) : Goes s c t := by
  unfold State.goes at move
  split at move
  · rename_i here
    cases move
    unfold State.getsId
    simp only
    split
    · exact .getsId _ here (Or.inl rfl)
    · exact .getsId _ here (Or.inr rfl)
  · rename_i here
    obtain ⟨⟨rt, u⟩, got, rfl⟩ := Option.map_eq_some_iff.mp move
    obtain ⟨provides, free, rfl⟩ := getOrInsertRt_some got
    exact .getsRuntime rt here provides free
  · rename_i here
    cases move
    exact .spawns here
  · rename_i here
    unfold State.inserts at move
    split at move
    · cases move
    · rename_i free
      split at move <;> cases move
      · exact .crashes here trivial
      · rename_i new
        exact .inserts here (Bool.eq_false_iff.mpr free) (Option.not_isSome_iff_eq_none.mp new)
  · rename_i here
    unfold State.looksUp at move
    split at move
    · cases move
    · rename_i free
      split at move
      · rename_i entry
        cases move
        exact .unknown here entry
      · rename_i entry
        split at move
        · rename_i invalid
          cases move
          exact .crashes here (Or.inr invalid)
        · rename_i valid
          split at move <;> cases move
          · rename_i inside
            exact .crashes here (Or.inl inside)
          · rename_i outside
            exact .looksUp here (Bool.eq_false_iff.mpr free) entry valid
              (Bool.eq_false_iff.mpr outside)
  · rename_i here
    unfold State.sends at move
    split at move
    · cases move
    · split at move
      · cases move
        exact .fails here
      · split at move <;> cases move
        exact .sends here
  · rename_i here
    obtain ⟨⟨rt, u⟩, got, rfl⟩ := Option.map_eq_some_iff.mp move
    obtain ⟨provides, free, rfl⟩ := getOrInsertRt_some got
    exact .getsHandle rt here provides free
  · rename_i here
    unfold State.removes at move
    split at move
    · cases move
    · rename_i free
      split at move
      · rename_i entry
        cases move
        exact .missing here (Bool.eq_false_iff.mpr free) entry
      · rename_i entry
        split at move <;> cases move
        · rename_i inside
          exact .crashes here inside
        · rename_i outside
          exact .removes here (Bool.eq_false_iff.mpr free) entry (Bool.eq_false_iff.mpr outside)
  · rename_i here
    unfold State.joins at move
    split at move <;> cases move
    · exact .joins here
    · exact .crashes here trivial
  · rename_i here
    cases move
    unfold State.checks
    split
    · rename_i empty runtime
      split
      · rename_i inside
        exact .crashes here inside
      · rename_i outside
        exact .shutsDown here empty runtime (Bool.eq_false_iff.mpr outside)
    · rename_i kept
      exact .keeps here kept
  · rename_i here
    split at move <;> cases move
    exact .drops here
  · cases move

theorem put_get {call other : Call} {d : Nat} (there : (s.put c call).calls[d]? = some other) :
    d = c ∧ other = call ∨ d ≠ c ∧ s.calls[d]? = some other := by
  by_cases same : d = c
  · subst same
    simp only [State.put, List.getElem?_set_self'] at there
    obtain ⟨_, _, rfl⟩ := Option.map_eq_some_iff.mp there
    exact Or.inl ⟨rfl, rfl⟩
  · rw [State.put, List.getElem?_set_ne (Ne.symm same)] at there
    exact Or.inr ⟨same, there⟩

theorem append_get {call other : Call} {d : Nat} (there : (s.calls ++ [call])[d]? = some other) :
    s.calls[d]? = some other ∨ other = call := by
  rcases Nat.lt_or_ge d s.calls.length with range | beyond
  · rw [List.getElem?_append_left range] at there
    exact Or.inl there
  · rw [List.getElem?_append_right beyond] at there
    have member := List.mem_of_getElem? there
    exact Or.inr (List.mem_singleton.mp member)

@[simp] theorem modify_self (f : Handler → Handler) :
    (s.modify h f).handlers h = (s.handlers h).map f := by
  simp [State.modify]

theorem modify_other {d : Nat} (f : Handler → Handler) (other : d ≠ h) :
    (s.modify h f).handlers d = s.handlers d := by
  simp [State.modify, other]

theorem update_get {b : Handler} {d : Nat} {handler : Handler}
    (there : Function.update s.handlers h (some b) d = some handler) :
    d = h ∧ handler = b ∨ d ≠ h ∧ s.handlers d = some handler := by
  by_cases same : d = h
  · subst same
    rw [Function.update_self] at there
    exact Or.inl ⟨rfl, (Option.some.inj there).symm⟩
  · rw [Function.update_of_ne same] at there
    exact Or.inr ⟨same, there⟩

theorem callsInside_some {start : Start} (move : s.callsInside h start = some t) :
    ∃ a, s.handlers h = some a ∧ a.task = .calling ∧
      t = { s with
        handlers := Function.update s.handlers h (some { a with task := .inside s.calls.length })
        calls := s.calls ++ [start.call] } := by
  simp only [State.callsInside, Option.bind_eq_bind, Option.bind_eq_some_iff] at move
  obtain ⟨a, here, move⟩ := move
  split at move <;> cases move
  rename_i calling
  exact ⟨a, here, calling, rfl⟩

theorem comesBack_some (move : s.comesBack h = some t) :
    ∃ a c, s.handlers h = some a ∧ a.task = .inside c ∧ s.calls[c]?.any Call.returned = true ∧
      t = { s with
        handlers := Function.update s.handlers h (some { a with task := .calling }) } := by
  simp only [State.comesBack, Option.bind_eq_bind, Option.bind_eq_some_iff] at move
  obtain ⟨a, here, move⟩ := move
  split at move
  · rename_i c inside
    split at move <;> cases move
    rename_i back
    exact ⟨a, c, here, inside, back, rfl⟩
  · cases move

theorem mem_of_entry {callbackId : UInt64} (entry : s.entry callbackId = some h) :
    (callbackId, h) ∈ s.waitTasks := by
  obtain ⟨e, found, rfl⟩ := Option.map_eq_some_iff.mp entry
  have same : e.1 = callbackId := by simpa using List.find?_some found
  rw [← same]
  exact List.mem_of_find?_eq_some found

theorem entry_none_iff {callbackId : UInt64} :
    s.entry callbackId = none ↔ ∀ h, (callbackId, h) ∉ s.waitTasks := by
  simp only [State.entry, Option.map_eq_none_iff, List.find?_eq_none, beq_iff_eq]
  constructor
  · intro new h member
    exact new (callbackId, h) member rfl
  · rintro new ⟨id, h⟩ member rfl
    exact new h member

theorem mem_without {callbackId id : UInt64} :
    (id, h) ∈ s.without callbackId ↔ (id, h) ∈ s.waitTasks ∧ id ≠ callbackId := by
  simp [State.without]

end Capi
