import SkyCurrent.Mesh.Model

/- The pages of the mesh, as series of items that are broadcast: the series is an attempt, and an
   item of it a page. -/
namespace Mesh

open Iox2 (Blob Message pageAt)
open Combined (IpcError SendAct Sending publishedBy published)

variable {n : Nat} {shouldCollect : Fin n → List UInt8 → Bool} {s t : State n}
  {trace : List (State n × Label n)} {l : Label n} {b : Broadcast.State (Fin n)}

section Steps

theorem sending_same {collects : List UInt8 → Bool} {p q : Combined.State} {l : Combined.Label}
    (move : Combined.next collects p l = some q) (other : ∀ act, l ≠ .sendActor act) :
    q.sending = p.sending := by
  cases l with
  | passes time =>
    cases move
    rfl
  | proceeds =>
    rcases Combined.proceeds_sends move with ⟨_, _, _, rfl⟩ | ⟨_, _, _, frame⟩ | ⟨_, _, same⟩
    · rfl
    · rw [frame]
    · exact same.sending
  | wakes backing => exact (Combined.wakes_sends move).2.2.sending
  | recvActor act =>
    cases Combined.recvActor_cases move with
    | page reply calls less frame => rw [frame]
    | wait reply calls iox2 frame => rw [frame]
  | sendActor act => exact absurd rfl (other act)
  | queues payload headerSize => rw [Combined.queues_frame move]
  | client c act => rw [Combined.client_frame move]
  | mesh act => rw [Combined.mesh_frame move]

def gets (j : Fin n) (s : State n) (l : Label n) : List Blob :=
  (share j s l).toList.flatMap (publishedBy (s.process j))

theorem published_snoc (j : Fin n) : published (shares j (trace ++ [(s, l)])) =
    published (shares j trace) ++ gets j s l := by
  unfold published shares gets
  rw [List.filterMap_append, List.flatMap_append]
  cases here : share j s l <;> simp [here]

inductive Moves (s t : State n) (l : Label n) : Prop where
  | aside (flight : t.flight = s.flight)
      (sending : ∀ i, (t.process i).sending = (s.process i).sending)
      (attempts : ∀ attempts, record attempts (s, l) = attempts) (nothing : ∀ j, gets j s l = [])
  | acts (i : Fin n) (act : SendAct) (idle : s.flight i = none) (flight : t.flight = s.flight)
      (others : ∀ i', i' ≠ i → (t.process i').sending = (s.process i').sending)
      (is : l = .process i (.sendActor act))
      (sends : Combined.Sends (s.process i) (t.process i) act) (nothing : ∀ j, gets j s l = [])
  | starts (i : Fin n) (sending : Sending) (page : Blob) (left : List Blob)
      (idle : s.flight i = none) (was : (s.process i).sending = some sending)
      (pages : sending.left = page :: left)
      (flight : t.flight = Function.update s.flight i (some ⟨page, Finset.univ⟩))
      (processes : t.process = s.process)
      (attempts : ∀ attempts, record attempts (s, l) = attempts) (nothing : ∀ j, gets j s l = [])
  | delivers (i j : Fin n) (flight : Flight n) (here : s.flight i = some flight)
      (member : j ∈ flight.left) (after : t.flight = (s.reaches i j flight).flight)
      (others : ∀ i', i' ≠ i ∨ i ≠ j → (t.process i').sending = (s.process i').sending)
      (own : i = j → ∃ sending page left, (s.process i).sending = some sending ∧
        sending.left = page :: left ∧ gets j s l = [page] ∧
        (t.process i).sending = some { sending with left := left, notifies := true })
      (page : i ≠ j → gets j s l = [flight.page])
      (attempts : ∀ attempts, record attempts (s, l) = attempts)
      (nothing : ∀ j', j' ≠ j → gets j' s l = [])

theorem put_process (i j : Fin n) (p : Combined.State) :
    (s.put i p).process j = if j = i then p else s.process j := by
  unfold State.put
  by_cases here : j = i
  · subst here
    simp
  · simp [here]

theorem Moves.other {i : Fin n} {l' : Combined.Label} {p : Combined.State}
    (is : share i s l = some l') (apart : ∀ j, j ≠ i → share j s l = none)
    (step : Combined.next (shouldCollect i) (s.process i) l' = some p)
    (other : ∀ act, l' ≠ .sendActor act) (quiet : publishedBy (s.process i) l' = [])
    (attempts : ∀ attempts, record attempts (s, l) = attempts) : Moves s (s.put i p) l := by
  refine .aside rfl ?_ attempts ?_
  · intro j
    rw [put_process]
    split
    · rename_i here
      rw [here]
      exact sending_same step other
    · rfl
  · intro j
    by_cases here : j = i
    · subst here
      simp [gets, is, quiet]
    · simp [gets, apart j here]

theorem publishes_sending {p q : Combined.State} (move : p.sendActor .publishes = some q) :
    ∃ sending page left, p.sending = some sending ∧ sending.left = page :: left ∧
      q.sending = some { sending with left := left, notifies := true } := by
  cases is : p.sending with
  | none => simp [Combined.State.sendActor, is] at move
  | some sending =>
    simp only [Combined.State.sendActor, is] at move
    split at move
    · cases move
    · unfold Combined.State.publishes at move
      split at move
      · cases move
      · rename_i page left pages
        split at move <;> cases move
        exact ⟨sending, page, left, rfl, pages, rfl⟩

theorem begins_other {p : Combined.State} {act : SendAct}
    (other : ∀ identification, act ≠ .takes identification) : p.begins act = none := by
  unfold Combined.State.begins
  split
  · exact absurd rfl (other _)
  · rfl

theorem record_publishes (i : Fin n) (attempts : List (Attempt n)) :
    record attempts (s, .process i (.sendActor .publishes)) = attempts := by
  have ends : (s.process i).ends .publishes = none := by
    unfold Combined.State.ends
    split <;> simp_all
  simp [record, ends, begins_other]

theorem moves_of_step {i : Fin n} {l' : Combined.Label}
    (move : s.steps shouldCollect i l' = some t) : Moves s t (.process i l') := by
  have apart : ∀ j, j ≠ i → share j s (.process i l') = none :=
    fun j other => if_neg (Ne.symm other)
  have silent : ∀ j, j ≠ i → gets j s (.process i l') = [] := by
    intro j other
    simp [gets, apart j other]
  have own : share i s (.process i l') = some l' := if_pos rfl
  have elsewhere : ∀ (p : Combined.State) i', i' ≠ i →
      ((s.put i p).process i').sending = (s.process i').sending := by
    intro p i' other
    rw [put_process, if_neg other]
  have here : ∀ p : Combined.State, ((s.put i p).process i) = p := by
    intro p
    rw [put_process, if_pos rfl]
  have other : (∀ act, l' ≠ .sendActor act) → publishedBy (s.process i) l' = [] →
      (∀ attempts, record attempts (s, .process i l') = attempts) →
      (Combined.next (shouldCollect i) (s.process i) l').map (s.put i) = some t →
      Moves s t (.process i l') := by
    intro others quiet attempts step
    obtain ⟨p, moved, rfl⟩ := Option.map_eq_some_iff.mp step
    exact .other own apart moved others quiet attempts
  cases l' with
  | sendActor act =>
    by_cases publishes : act = .publishes
    · subst publishes
      simp only [State.steps] at move
      cases flight : s.flight i with
      | none => simp [flight] at move
      | some flight' =>
        simp only [flight, Option.bind_eq_bind, Option.bind_some] at move
        split at move
        · rename_i member
          obtain ⟨p, step, same⟩ := Option.bind_eq_some_iff.mp move
          cases same
          obtain ⟨sending, page, left, was, pages, is⟩ := publishes_sending step
          refine .delivers i i flight' flight member rfl ?_ ?_ (fun apart => absurd rfl apart)
            (record_publishes i) silent
          · intro i' away
            rcases away with away | away
            · exact elsewhere p i' away
            · exact absurd rfl away
          · intro _
            refine ⟨sending, page, left, was, pages, ?_, ?_⟩
            · simp [gets, own, publishedBy, was, pages]
            · exact (congrArg _ (here p)).trans is
        · cases move
    · have idle : s.flight i = none ∧
          (Combined.next (shouldCollect i) (s.process i) (.sendActor act)).map (s.put i) =
            some t := by
        simp only [State.steps] at move
        split at move
        · rename_i none_
          exact ⟨Option.isNone_iff_eq_none.mp none_, move⟩
        · cases move
      obtain ⟨p, step, rfl⟩ := Option.map_eq_some_iff.mp idle.2
      refine .acts i act idle.1 rfl (elsewhere p) rfl ?_ ?_
      · rw [here]
        exact Combined.sendActor_spec step
      · intro j
        by_cases mine : j = i
        · subst mine
          rw [gets, own]
          cases act with
          | publishes => exact absurd rfl publishes
          | _ => rfl
        · exact silent j mine
  | mesh act => cases move
  | passes time => exact other (by simp) rfl (fun _ => rfl) move
  | proceeds => exact other (by simp) rfl (fun _ => rfl) move
  | wakes backing => exact other (by simp) rfl (fun _ => rfl) move
  | recvActor act => exact other (by simp) rfl (fun _ => rfl) move
  | queues payload headerSize => exact other (by simp) rfl (fun _ => rfl) move
  | client c act => exact other (by simp) rfl (fun _ => rfl) move

theorem moves_of_next (move : next shouldCollect s l = some t) : Moves s t l := by
  cases l with
  | process i l' => exact moves_of_step move
  | sends i =>
    simp only [next, State.sends, Option.bind_eq_bind, Option.bind_eq_some_iff] at move
    obtain ⟨sending, was, page, first, move⟩ := move
    split at move
    · rename_i idle
      cases move
      obtain ⟨left, pages⟩ := List.head?_eq_some_iff.mp first
      exact .starts i sending page left (Option.isNone_iff_eq_none.mp idle.2) was pages rfl rfl
        (fun _ => rfl) fun _ => rfl
    · cases move
  | delivers i j =>
    simp only [next, State.delivers, Option.bind_eq_bind, Option.bind_eq_some_iff] at move
    obtain ⟨flight, here, move⟩ := move
    split at move
    · rename_i both
      obtain ⟨p, step, same⟩ := Option.bind_eq_some_iff.mp move
      cases same
      refine .delivers i j flight here both.2 rfl ?_ (fun same => absurd same both.1) ?_
        (fun _ => rfl) ?_
      · intro i' _
        have after : ((s.put j p).reaches i j flight).process i' = (s.put j p).process i' := rfl
        rw [after, put_process]
        split
        · rename_i mine
          rw [mine]
          exact sending_same step (by simp)
        · rfl
      · intro _
        simp [gets, share, here, publishedBy]
      · intro j' other
        simp [gets, share, Ne.symm other]
    · cases move
  | notified j =>
    simp only [next] at move
    obtain ⟨p, step, rfl⟩ := Option.map_eq_some_iff.mp move
    exact .other (if_pos rfl) (fun j' other => if_neg (Ne.symm other)) step (by simp) rfl
      fun _ => rfl

end Steps

/-- How far a send actor is with the pages of its message. A page that could not be published,
    and is not tried again, is skipped; then the attempt does not succeed. -/
structure Position (sending : Sending) (m : Message) (k : Nat) : Prop where
  fragmented : sending.fragmented = false → m.pages.length ≤ 1
  left : sending.left = m.pages.drop k ∨ sending.left = [] ∧ sending.result ≠ .ok ()

/-- The attempts are the series: what the buffers have been given is what the broadcast has
    delivered, and who is sending is where the broadcast says. -/
structure Carries (trace : List (State n × Label n)) (s : State n)
    (b : Broadcast.State (Fin n)) : Prop where
  owner : b.owner = (attempts trace).map (·.sender)
  accepted : ∀ attempt ∈ attempts trace, attempt.message.Accepted
  ended : ∀ (a : Nat) attempt, (attempts trace)[a]? = some attempt →
    attempt.result = some (.ok ()) → attempt.message.pages.length ≤ b.sent a
  going : ∀ i sending, (s.process i).sending = some sending → ∃ a attempt,
    b.sender i = some a ∧ (attempts trace)[a]? = some attempt ∧ attempt.sender = i ∧
    attempt.result = none ∧
    Position sending attempt.message (b.sent a - if i ∈ b.waiting i then 1 else 0)
  idle : ∀ i, (s.process i).sending = none → b.sender i = none
  unended : ∀ (a : Nat) attempt, (attempts trace)[a]? = some attempt → attempt.result = none →
    b.sender attempt.sender = some a
  waiting : ∀ i, b.waiting i = ((s.flight i).map Flight.left).getD ∅
  page : ∀ i flight, s.flight i = some flight → ∃ a attempt, b.sender i = some a ∧
    (attempts trace)[a]? = some attempt ∧
    attempt.message.pages[b.sent a - 1]? = some flight.page
  pages : ∀ j, (b.log j).mapM (pageAt (messages trace)) = some (published (shares j trace))

section Carries

theorem carries_init : Carries [] (init : State n) .empty := by
  refine ⟨rfl, by simp [attempts], by simp [attempts], by simp [init, Combined.init],
    fun _ _ => rfl, by simp [attempts], fun _ => rfl, by simp [init], fun _ => rfl⟩

variable (carries : Carries trace s b)
include carries

theorem Carries.through {i : Fin n} (none_ : s.flight i = none) : b.waiting i = ∅ := by
  rw [carries.waiting, none_]
  rfl

theorem Carries.aside (flight : t.flight = s.flight)
    (same : record (attempts trace) (s, l) = attempts trace) (nothing : ∀ j, gets j s l = [])
    (going : ∀ i sending', (t.process i).sending = some sending' → ∃ sending,
      (s.process i).sending = some sending ∧
      ∀ m k, Position sending m k → Position sending' m k)
    (idle : ∀ i, (t.process i).sending = none → (s.process i).sending = none) :
    Carries (trace ++ [(s, l)]) t b := by
  have attempts_ : attempts (trace ++ [(s, l)]) = attempts trace := by rw [attempts_snoc, same]
  refine ⟨?_, ?_, ?_, ?_, ?_, ?_, ?_, ?_, ?_⟩
  · rw [attempts_]
    exact carries.owner
  · rw [attempts_]
    exact carries.accepted
  · rw [attempts_]
    exact carries.ended
  · intro i sending' is
    rw [attempts_]
    obtain ⟨sending, was, keeps⟩ := going i sending' is
    obtain ⟨a, attempt, sender, here, own, none_, position⟩ := carries.going i sending was
    exact ⟨a, attempt, sender, here, own, none_, keeps _ _ position⟩
  · intro i none_
    exact carries.idle i (idle i none_)
  · rw [attempts_]
    exact carries.unended
  · rw [flight]
    exact carries.waiting
  · rw [attempts_, flight]
    exact carries.page
  · intro j
    rw [published_snoc, nothing, List.append_nil, messages, attempts_]
    exact carries.pages j

theorem Carries.starts (kept : Broadcast.Kept b) {i : Fin n} {sending : Sending} {page : Blob}
    {left : List Blob} (idle : s.flight i = none) (was : (s.process i).sending = some sending)
    (pages : sending.left = page :: left)
    (flight : t.flight = Function.update s.flight i (some ⟨page, Finset.univ⟩))
    (processes : t.process = s.process)
    (same : record (attempts trace) (s, l) = attempts trace) (nothing : ∀ j, gets j s l = []) :
    ∃ b', Broadcast.Step b b' ∧ Carries (trace ++ [(s, l)]) t b' := by
  have attempts_ : attempts (trace ++ [(s, l)]) = attempts trace := by rw [attempts_snoc, same]
  have through := carries.through idle
  obtain ⟨a, attempt, sender, here, own, none_, position⟩ := carries.going i sending was
  rw [through] at position
  have left_ : sending.left = attempt.message.pages.drop (b.sent a) := by
    rcases position.left with left_ | ⟨broken, _⟩
    · simpa using left_
    · rw [pages] at broken
      cases broken
  refine ⟨b.sends i a, .sends sender through, ?_⟩
  have sent_ : ∀ a', b.sent a' ≤ (b.sends i a).sent a' := by
    intro a'
    simp only [Broadcast.State.sends]
    by_cases this : a' = a
    · subst this
      simp
    · simp [this]
  have others : ∀ i', i' ≠ i → ∀ a', b.sender i' = some a' →
      (b.sends i a).sent a' = b.sent a' ∧ (b.sends i a).waiting i' = b.waiting i' := by
    intro i' other a' sender'
    have apart : a' ≠ a := by
      rintro rfl
      exact other (kept.alone sender' sender)
    simp [Broadcast.State.sends, apart, other]
  have mine : (b.sends i a).sent a = b.sent a + 1 ∧ (b.sends i a).waiting i = Finset.univ := by
    simp [Broadcast.State.sends]
  refine ⟨?_, ?_, ?_, ?_, ?_, ?_, ?_, ?_, ?_⟩
  · rw [attempts_]
    exact carries.owner
  · rw [attempts_]
    exact carries.accepted
  · rw [attempts_]
    intro a' attempt' here' ok
    exact Nat.le_trans (carries.ended a' attempt' here' ok) (sent_ a')
  · intro i' sending' is
    rw [processes] at is
    rw [attempts_]
    obtain ⟨a', attempt', sender', here', own', none', position'⟩ := carries.going i' sending' is
    refine ⟨a', attempt', sender', here', own', none', ?_⟩
    by_cases this : i' = i
    · subst this
      obtain rfl := Option.some.inj (sender.symm.trans sender')
      obtain rfl := Option.some.inj (here.symm.trans here')
      obtain rfl := Option.some.inj (was.symm.trans is)
      rw [mine.1, mine.2, if_pos (Finset.mem_univ _)]
      exact ⟨position.fragmented, Or.inl left_⟩
    · rw [(others i' this a' sender').1, (others i' this a' sender').2]
      exact position'
  · rw [processes]
    exact carries.idle
  · rw [attempts_]
    exact carries.unended
  · intro i'
    rw [flight]
    by_cases this : i' = i
    · subst this
      rw [mine.2, Function.update_self]
      rfl
    · rw [Function.update_of_ne this, ← carries.waiting]
      simp [Broadcast.State.sends, this]
  · intro i' flight' there
    rw [attempts_]
    rw [flight] at there
    by_cases this : i' = i
    · subst this
      rw [Function.update_self, Option.some.injEq] at there
      subst there
      refine ⟨a, attempt, sender, here, ?_⟩
      have first : sending.left[0]? = some page := by rw [pages]; rfl
      rw [left_, List.getElem?_drop, Nat.add_zero] at first
      rw [mine.1, Nat.add_sub_cancel]
      exact first
    · rw [Function.update_of_ne this] at there
      obtain ⟨a', attempt', sender', here', page'⟩ := carries.page i' flight' there
      refine ⟨a', attempt', sender', here', ?_⟩
      rw [(others i' this a' sender').1]
      exact page'
  · intro j
    rw [published_snoc, nothing, List.append_nil, messages, attempts_]
    exact carries.pages j

theorem Carries.delivers (kept : Broadcast.Kept b) {i j : Fin n} {flight : Flight n}
    (here : s.flight i = some flight) (member : j ∈ flight.left)
    (after : t.flight = (s.reaches i j flight).flight)
    (others : ∀ i', i' ≠ i ∨ i ≠ j → (t.process i').sending = (s.process i').sending)
    (own : i = j → ∃ sending page left, (s.process i).sending = some sending ∧
      sending.left = page :: left ∧ gets j s l = [page] ∧
      (t.process i).sending = some { sending with left := left, notifies := true })
    (page : i ≠ j → gets j s l = [flight.page])
    (same : record (attempts trace) (s, l) = attempts trace)
    (nothing : ∀ j', j' ≠ j → gets j' s l = []) :
    ∃ b', Broadcast.Step b b' ∧ Carries (trace ++ [(s, l)]) t b' := by
  have attempts_ : attempts (trace ++ [(s, l)]) = attempts trace := by rw [attempts_snoc, same]
  obtain ⟨a, attempt, sender, there, page_⟩ := carries.page i flight here
  have waiting : b.waiting i = flight.left := by
    rw [carries.waiting, here]
    rfl
  have waits : j ∈ b.waiting i := by rwa [waiting]
  obtain ⟨a', sender', positive⟩ := kept.busy i j waits
  obtain rfl := Option.some.inj (sender.symm.trans sender')
  -- What the sender has in hand for its own buffer is the page on its way.
  have first : ∀ {sending page left}, i = j → (s.process i).sending = some sending →
      sending.left = page :: left → page = flight.page ∧
      Position { sending with left := left, notifies := true } attempt.message (b.sent a) := by
    intro sending page left mine was pages
    obtain ⟨a', attempt', sender', there', _, _, position⟩ := carries.going i sending was
    obtain rfl := Option.some.inj (sender.symm.trans sender')
    obtain rfl := Option.some.inj (there.symm.trans there')
    rw [if_pos (mine ▸ waits)] at position
    rcases position.left with left_ | ⟨broken, _⟩
    · rw [pages] at left_
      have head : attempt.message.pages[b.sent a - 1]? = some page := by
        rw [← Nat.add_zero (b.sent a - 1), ← List.getElem?_drop, ← left_]
        rfl
      refine ⟨Option.some.inj (head.symm.trans page_), position.fragmented, Or.inl ?_⟩
      have rest : left = (attempt.message.pages.drop (b.sent a - 1)).tail := by
        rw [← left_]
        rfl
      rw [List.tail_drop, Nat.sub_add_cancel positive] at rest
      exact rest
    · rw [pages] at broken
      cases broken
  refine ⟨b.delivers i j a, .delivers sender waits, ?_⟩
  refine ⟨?_, ?_, ?_, ?_, ?_, ?_, ?_, ?_, ?_⟩
  · rw [attempts_]
    exact carries.owner
  · rw [attempts_]
    exact carries.accepted
  · rw [attempts_]
    exact carries.ended
  · intro i' sending' is
    rw [attempts_]
    by_cases both : i' = i ∧ i = j
    · obtain ⟨rfl, mine⟩ := both
      obtain ⟨sending, page, left, was, pages, _, now⟩ := own mine
      obtain ⟨_, position⟩ := first mine was pages
      obtain rfl := Option.some.inj (is.symm.trans now)
      obtain ⟨a', attempt', sender', there', own', none', _⟩ := carries.going i' sending was
      obtain rfl := Option.some.inj (sender.symm.trans sender')
      obtain rfl := Option.some.inj (there.symm.trans there')
      refine ⟨a, attempt, sender, there, own', none', ?_⟩
      rw [if_neg (by simp [Broadcast.State.delivers, mine])]
      exact position
    · have apart : i' ≠ i ∨ i ≠ j := by
        by_cases this : i' = i
        · exact Or.inr fun mine => both ⟨this, mine⟩
        · exact Or.inl this
      rw [others i' apart] at is
      obtain ⟨a', attempt', sender', there', own', none', position⟩ := carries.going i' sending' is
      refine ⟨a', attempt', sender', there', own', none', ?_⟩
      have waits' : i' ∈ (b.delivers i j a).waiting i' ↔ i' ∈ b.waiting i' := by
        simp only [Broadcast.State.delivers]
        by_cases this : i' = i
        · subst this
          have other : i' ≠ j := fun mine => both ⟨rfl, mine⟩
          simp [other]
        · rw [Function.update_of_ne this]
      simp only [waits']
      exact position
  · intro i' none_
    by_cases both : i' = i ∧ i = j
    · obtain ⟨rfl, mine⟩ := both
      obtain ⟨_, _, _, _, _, _, now⟩ := own mine
      rw [now] at none_
      cases none_
    · have apart : i' ≠ i ∨ i ≠ j := by
        by_cases this : i' = i
        · exact Or.inr fun mine => both ⟨this, mine⟩
        · exact Or.inl this
      rw [others i' apart] at none_
      exact carries.idle i' none_
  · rw [attempts_]
    exact carries.unended
  · intro i'
    rw [after]
    simp only [State.reaches, Broadcast.State.delivers]
    by_cases this : i' = i
    · subst this
      rw [Function.update_self, Function.update_self, waiting]
      split
      · rename_i empty
        exact empty
      · rfl
    · rw [Function.update_of_ne this, Function.update_of_ne this]
      exact carries.waiting i'
  · intro i' flight' there'
    rw [attempts_]
    rw [after] at there'
    simp only [State.reaches] at there'
    by_cases this : i' = i
    · subst this
      rw [Function.update_self] at there'
      split at there'
      · cases there'
      · cases there'
        exact ⟨a, attempt, sender, there, page_⟩
    · rw [Function.update_of_ne this] at there'
      exact carries.page i' flight' there'
  · intro j'
    rw [published_snoc, messages, attempts_]
    simp only [Broadcast.State.delivers]
    by_cases this : j' = j
    · subst this
      have given : gets j' s l = [flight.page] := by
        by_cases mine : i = j'
        · obtain ⟨sending, page, left, was, pages, one, _⟩ := own mine
          rw [one, (first mine was pages).1]
        · exact page mine
      have at_ : pageAt (messages trace) (a, b.sent a - 1) = some flight.page := by
        simp [pageAt, messages, there, page_]
      have before := carries.pages j'
      rw [messages] at before at_
      rw [Function.update_self, List.mapM_append, before, given]
      simp [at_]
    · rw [Function.update_of_ne this, nothing j' this, List.append_nil]
      exact carries.pages j'

omit carries in
theorem pageAt_append {known new : List Message} {p : Nat × Nat} (inside : p.1 < known.length) :
    pageAt (known ++ new) p = pageAt known p := by
  simp [pageAt, List.getElem?_append_left inside]

omit carries in
theorem mapM_pageAt {known new : List Message} {ps : List (Nat × Nat)}
    (inside : ∀ p ∈ ps, p.1 < known.length) :
    ps.mapM (pageAt (known ++ new)) = ps.mapM (pageAt known) := by
  induction ps with
  | nil => rfl
  | cons p ps ih =>
    rw [List.mapM_cons, List.mapM_cons, pageAt_append (inside p (List.mem_cons_self ..)),
      ih fun q member => inside q (List.mem_cons_of_mem _ member)]

theorem Carries.begins (kept : Broadcast.Kept b) {i : Fin n} {act : SendAct} {sending : Sending}
    {m : Message} (idle : s.flight i = none) (flight : t.flight = s.flight)
    (others : ∀ i', i' ≠ i → (t.process i').sending = (s.process i').sending)
    (was : (s.process i).sending = none) (is : (t.process i).sending = some sending)
    (begins : (s.process i).begins act = some m)
    (sent : Iox2.sendStream m.payload m.headerSize m.identification = some (.ok sending.left))
    (fragmented : sending.fragmented = decide m.Fragmented)
    (nothing : ∀ j, gets j s (.process i (.sendActor act)) = []) :
    ∃ b', Broadcast.Step b b' ∧ Carries (trace ++ [(s, .process i (.sendActor act))]) t b' := by
  have none_ := carries.idle i was
  have through := carries.through idle
  have accepted : m.Accepted := ⟨sending.left, sent⟩
  have ends : (s.process i).ends act = none := by simp [Combined.State.ends, was]
  have attempts_ : attempts (trace ++ [(s, .process i (.sendActor act))]) =
      attempts trace ++ [⟨i, m, none⟩] := by
    rw [attempts_snoc]
    simp [record, ends, begins]
  have length : b.owner.length = (attempts trace).length := by rw [carries.owner, List.length_map]
  have before : ∀ {i' a}, b.sender i' = some a → a < (attempts trace).length := by
    intro i' a sender
    rw [← length]
    exact (List.getElem?_eq_some_iff.mp (kept.owned i' a sender)).1
  have old : ∀ {a : Nat}, a < (attempts trace).length →
      (attempts trace ++ [⟨i, m, none⟩])[a]? = (attempts trace)[a]? :=
    fun inside => List.getElem?_append_left inside
  have senders : ∀ {i' a}, b.sender i' = some a → (b.starts i).sender i' = some a := by
    intro i' a sender
    simp only [Broadcast.State.starts]
    rw [Function.update_of_ne ?_]
    · exact sender
    · rintro rfl
      rw [none_] at sender
      cases sender
  have new : (b.starts i).sender i = some (attempts trace).length := by
    simp [Broadcast.State.starts, length]
  refine ⟨b.starts i, .starts none_, ?_, ?_, ?_, ?_, ?_, ?_, ?_, ?_, ?_⟩
  · rw [attempts_, List.map_append, ← carries.owner]
    rfl
  · intro attempt member
    rw [attempts_, List.mem_append, List.mem_singleton] at member
    rcases member with earlier | rfl
    · exact carries.accepted attempt earlier
    · exact accepted
  · intro a attempt here ok
    rw [attempts_, List.getElem?_append] at here
    split at here
    · exact carries.ended a attempt here ok
    · obtain ⟨_, there⟩ := List.getElem?_eq_some_iff.mp here
      rw [List.getElem_singleton] at there
      subst there
      cases ok
  · intro i' sending' is'
    rw [attempts_]
    by_cases this : i' = i
    · subst this
      obtain rfl := Option.some.inj (is.symm.trans is')
      refine ⟨_, ⟨i', m, none⟩, new, by simp, rfl, rfl, ?_⟩
      have zero : (b.starts i').sent (attempts trace).length = 0 :=
        kept.still _ (by rw [length])
      have pages : m.pages = sending.left := by simp [Message.pages, sent]
      rw [zero]
      refine ⟨?_, Or.inl ?_⟩
      · intro short
        rw [fragmented, decide_eq_false_iff_not] at short
        rw [accepted.page_count, if_neg short]
      · simp [pages]
    · rw [others i' this] at is'
      obtain ⟨a, attempt, sender, here, own, open_, position⟩ := carries.going i' sending' is'
      exact ⟨a, attempt, senders sender, (old (before sender)).trans here, own, open_, position⟩
  · intro i' still
    by_cases this : i' = i
    · subst this
      rw [is] at still
      cases still
    · rw [others i' this] at still
      simp only [Broadcast.State.starts]
      rw [Function.update_of_ne this]
      exact carries.idle i' still
  · intro a attempt here open_
    rw [attempts_, List.getElem?_append] at here
    split at here
    · exact senders (carries.unended a attempt here open_)
    · obtain ⟨inside, there⟩ := List.getElem?_eq_some_iff.mp here
      rw [List.getElem_singleton] at there
      subst there
      rw [List.length_singleton] at inside
      rw [new]
      congr 1
      omega
  · rw [flight]
    exact carries.waiting
  · intro i' flight' there
    rw [flight] at there
    rw [attempts_]
    obtain ⟨a, attempt, sender, here, page⟩ := carries.page i' flight' there
    exact ⟨a, attempt, senders sender, (old (before sender)).trans here, page⟩
  · intro j
    rw [published_snoc, nothing, List.append_nil, messages, attempts_, List.map_append,
      mapM_pageAt]
    · exact carries.pages j
    · intro p member
      rw [List.length_map, ← length]
      exact kept.inside member

theorem Carries.ends {i : Fin n} {act : SendAct} {sending : Sending}
    {result : Except IpcError Unit} (idle : s.flight i = none) (flight : t.flight = s.flight)
    (others : ∀ i', i' ≠ i → (t.process i').sending = (s.process i').sending)
    (was : (s.process i).sending = some sending) (is : (t.process i).sending = none)
    (ends : (s.process i).ends act = some result)
    (how : result = .ok () → sending.result = .ok () ∧ sending.left = [])
    (nothing : ∀ j, gets j s (.process i (.sendActor act)) = []) :
    ∃ b', Broadcast.Step b b' ∧ Carries (trace ++ [(s, .process i (.sendActor act))]) t b' := by
  have through := carries.through idle
  have begins : (s.process i).begins act = none := by
    simp [Combined.State.begins, was]
  have attempts_ : attempts (trace ++ [(s, .process i (.sendActor act))]) =
      (attempts trace).map (·.closes i result) := by
    rw [attempts_snoc]
    simp [record, ends, begins]
  have own : ∀ (attempt : Attempt n), (attempt.closes i result).sender = attempt.sender ∧
      (attempt.closes i result).message = attempt.message := by
    intro attempt
    unfold Attempt.closes
    split <;> exact ⟨rfl, rfl⟩
  have others' : ∀ {attempt : Attempt n}, attempt.sender ≠ i →
      attempt.closes i result = attempt := by
    intro attempt other
    exact if_neg fun both => other both.1
  have back : ∀ {a : Nat} {attempt : Attempt n},
      ((attempts trace).map (·.closes i result))[a]? = some attempt →
      ∃ attempt', (attempts trace)[a]? = some attempt' ∧ attempt'.closes i result = attempt := by
    intro a attempt here
    rwa [List.getElem?_map, Option.map_eq_some_iff] at here
  have senders : ∀ {i'}, i' ≠ i → (b.stops i).sender i' = b.sender i' :=
    fun other => Function.update_of_ne other _ _
  refine ⟨b.stops i, .stops through, ?_, ?_, ?_, ?_, ?_, ?_, ?_, ?_, ?_⟩
  · rw [attempts_, List.map_map]
    refine carries.owner.trans (List.map_congr_left fun attempt _ => (own attempt).1.symm)
  · intro attempt member
    rw [attempts_] at member
    obtain ⟨attempt', there, rfl⟩ := List.mem_map.mp member
    rw [(own attempt').2]
    exact carries.accepted attempt' there
  · intro a attempt here ok
    rw [attempts_] at here
    obtain ⟨attempt', there, rfl⟩ := back here
    rw [(own attempt').2]
    by_cases closed : attempt'.sender = i ∧ attempt'.result.isNone = true
    · rw [Attempt.closes, if_pos closed, Option.some.injEq] at ok
      obtain ⟨fine, nothing_⟩ := how ok
      have sender := carries.unended a attempt' there (Option.isNone_iff_eq_none.mp closed.2)
      obtain ⟨a', attempt'', sender', there', _, _, position⟩ := carries.going i sending was
      rw [closed.1] at sender
      obtain rfl := Option.some.inj (sender.symm.trans sender')
      obtain rfl := Option.some.inj (there.symm.trans there')
      rw [through] at position
      rcases position.left with left | ⟨_, broken⟩
      · rw [nothing_] at left
        have all : attempt'.message.pages.length ≤ b.sent a :=
          List.drop_eq_nil_iff.mp (by simpa using left.symm)
        exact all
      · exact absurd fine broken
    · rw [Attempt.closes, if_neg closed] at ok
      exact carries.ended a attempt' there ok
  · intro i' sending' is'
    rw [attempts_]
    have other : i' ≠ i := by
      rintro rfl
      rw [is] at is'
      cases is'
    rw [others i' other] at is'
    obtain ⟨a, attempt, sender, here, mine, open_, position⟩ := carries.going i' sending' is'
    refine ⟨a, attempt, (senders other).trans sender, ?_, mine, open_, position⟩
    rw [List.getElem?_map, here, Option.map_some, others' (mine ▸ other)]
  · intro i' still
    by_cases this : i' = i
    · subst this
      exact Function.update_self _ _ _
    · rw [others i' this] at still
      exact (senders this).trans (carries.idle i' still)
  · intro a attempt here open_
    rw [attempts_] at here
    obtain ⟨attempt', there, rfl⟩ := back here
    by_cases mine : attempt'.sender = i
    · exfalso
      by_cases closed : attempt'.result.isNone = true
      · rw [Attempt.closes, if_pos ⟨mine, closed⟩] at open_
        cases open_
      · rw [Attempt.closes, if_neg fun both => closed both.2] at open_
        exact closed (by rw [open_]; rfl)
    · rw [others' mine] at open_ ⊢
      exact (senders mine).trans (carries.unended a attempt' there open_)
  · rw [flight]
    exact carries.waiting
  · intro i' flight' there
    rw [flight] at there
    rw [attempts_]
    have other : i' ≠ i := by
      rintro rfl
      rw [idle] at there
      cases there
    obtain ⟨a, attempt, sender, here, page⟩ := carries.page i' flight' there
    refine ⟨a, attempt.closes i result, (senders other).trans sender, ?_, ?_⟩
    · rw [List.getElem?_map, here]
      rfl
    · rw [(own attempt).2]
      exact page
  · intro j
    have same : messages (trace ++ [(s, .process i (.sendActor act))]) = messages trace := by
      rw [messages, attempts_, List.map_map]
      exact List.map_congr_left fun attempt _ => (own attempt).2
    rw [published_snoc, nothing, List.append_nil, same]
    exact carries.pages j

theorem Carries.acts (kept : Broadcast.Kept b) {i : Fin n} {act : SendAct}
    (idle : s.flight i = none) (flight : t.flight = s.flight)
    (others : ∀ i', i' ≠ i → (t.process i').sending = (s.process i').sending)
    (sends : Combined.Sends (s.process i) (t.process i) act)
    (nothing : ∀ j, gets j s (.process i (.sendActor act)) = []) :
    ∃ b', (b' = b ∨ Broadcast.Step b b') ∧
      Carries (trace ++ [(s, .process i (.sendActor act))]) t b' := by
  have unchanged : ∀ {i' sending'}, i' ≠ i → (t.process i').sending = some sending' →
      ∃ sending, (s.process i').sending = some sending ∧
        ∀ m k, Position sending m k → Position sending' m k := by
    intro i' sending' other is
    exact ⟨sending', by rw [← others i' other, is], fun _ _ same => same⟩
  cases sends with
  | takes call sending identification was calls is forwarded result drawn sent subscriber reply
      silent none_ begins fragmented =>
    obtain ⟨b', step, carries'⟩ := carries.begins kept idle flight others was is begins sent
      fragmented nothing
    exact ⟨b', Or.inr step, carries'⟩
  | rejects call error was calls is fatal subscriber reply answer none_ refused =>
    have ends : (s.process i).ends act = none := by simp [Combined.State.ends, was]
    refine ⟨b, Or.inl rfl, carries.aside flight (by simp [record, ends, refused]) nothing ?_ ?_⟩
    · intro i' sending' is'
      by_cases this : i' = i
      · subst this
        rw [is] at is'
        cases is'
      · exact unchanged this is'
    · intro i' still
      by_cases this : i' = i
      · subst this
        exact was
      · rwa [others i' this] at still
  | publishes sending page left was pages is calls room subscriber reply silent one =>
    have given := nothing i
    have own : share i s (.process i (.sendActor act)) = some (.sendActor act) := if_pos rfl
    have page_ : publishedBy (s.process i) (.sendActor act) = [page] := by
      rw [← one]
      cases act <;> rfl
    rw [gets, own, Option.toList_some, List.flatMap_singleton, page_] at given
    cases given
  | goesOn sending sending' was is forwarded left calls subscriber reply silent less none_ still
      fragmented skips =>
    have begins : (s.process i).begins act = none := by simp [Combined.State.begins, was]
    refine ⟨b, Or.inl rfl, carries.aside flight (by simp [record, still, begins]) nothing ?_ ?_⟩
    · intro i' sending'' is'
      by_cases this : i' = i
      · subst this
        obtain rfl := Option.some.inj (is.symm.trans is')
        refine ⟨sending, was, ?_⟩
        intro m k position
        refine ⟨fun short => position.fragmented (fragmented ▸ short), ?_⟩
        rcases skips with ⟨left', result⟩ | ⟨short, left', broken⟩
        · rw [left', result]
          exact position.left
        · refine Or.inr ⟨?_, broken⟩
          have few := position.fragmented short
          rw [left']
          rcases position.left with here | ⟨here, _⟩
          · rw [here, List.tail_drop, List.drop_eq_nil_iff]
            omega
          · rw [here]
            rfl
      · exact unchanged this is'
    · intro i' none'
      by_cases this : i' = i
      · subst this
        rw [is] at none'
        cases none'
      · rwa [others i' this] at none'
  | ends sending result was done calls subscriber reply answer how none_ ends =>
    obtain ⟨b', step, carries'⟩ := carries.ends idle flight others was done ends how nothing
    exact ⟨b', Or.inr step, carries'⟩

theorem Carries.step (kept : Broadcast.Kept b) (move : next shouldCollect s l = some t) :
    ∃ b', Broadcast.Kept b' ∧ Carries (trace ++ [(s, l)]) t b' := by
  cases moves_of_next move with
  | aside flight sending same nothing =>
    refine ⟨b, kept, carries.aside flight (same _) nothing ?_ ?_⟩
    · intro i sending' is
      exact ⟨sending', by rw [← sending, is], fun _ _ position => position⟩
    · intro i none_
      rwa [sending] at none_
  | acts i act idle flight others is sends nothing =>
    subst is
    obtain ⟨b', rfl | step, carries'⟩ := carries.acts kept idle flight others sends nothing
    · exact ⟨b', kept, carries'⟩
    · exact ⟨b', kept.step step, carries'⟩
  | starts i sending page left idle was pages flight processes same nothing =>
    obtain ⟨b', step, carries'⟩ := carries.starts kept idle was pages flight processes (same _)
      nothing
    exact ⟨b', kept.step step, carries'⟩
  | delivers i j flight here member after others own page same nothing =>
    obtain ⟨b', step, carries'⟩ := carries.delivers kept here member after others own page
      (same _) nothing
    exact ⟨b', kept.step step, carries'⟩

end Carries

/-- In every run the buffers are filled as by a broadcast of the attempts. -/
theorem carries_of_run (run : MeshRun shouldCollect trace s) :
    ∃ b, Broadcast.Kept b ∧ Carries trace s b := by
  induction run with
  | nil first =>
    subst first
    exact ⟨.empty, Broadcast.kept_empty, carries_init⟩
  | snoc before move ih =>
    obtain ⟨b, kept, carries⟩ := ih
    exact carries.step kept move

end Mesh
