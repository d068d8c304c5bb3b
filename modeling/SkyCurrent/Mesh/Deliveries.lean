import SkyCurrent.Mesh.Pages

/- What the processes of the mesh receive, of what all of them send. -/
namespace Mesh

open Iox2 (Blob Message pageAt Sent AtMostOnce finished missing handsOut)
open Combined (IpcError published)
open Runs

variable {n : Nat} {shouldCollect : Fin n → List UInt8 → Bool} {s : State n}
  {trace : List (State n × Label n)} {b : Broadcast.State (Fin n)}

structure ToldApart (messages : List Message) : Prop where
  few : ∀ m ∈ messages, m.pages.length < 2 ^ 32
  distinct : messages.Pairwise fun m m' =>
    m.Fragmented → m'.Fragmented → m.identification ≠ m'.identification

theorem ToldApart.sent {messages : List Message} (apart : ToldApart messages)
    (accepted : ∀ m ∈ messages, m.Accepted) : Sent messages := by
  refine ⟨accepted, apart.few, ?_⟩
  intro j k m m' here there long long' same
  obtain ⟨inside, rfl⟩ := List.getElem?_eq_some_iff.mp here
  obtain ⟨inside', rfl⟩ := List.getElem?_eq_some_iff.mp there
  have pairs := List.pairwise_iff_getElem.mp apart.distinct
  rcases Nat.lt_trichotomy j k with before | equal | after
  · exact absurd same (pairs j k inside inside' before long long')
  · exact equal
  · exact absurd same.symm (pairs k j inside' inside after long' long)

/-- The payloads are those of attempts that are wanted, each of them once, and those of one
    sender in the order in which it has sent them. -/
structure Delivered (attempts : List (Attempt n)) (wanted : List UInt8 → Bool) (done : List Nat)
    (payloads : List (List UInt8)) : Prop where
  payloads : payloads.map some = done.map fun a => attempts[a]?.map (·.message.payload)
  wanted : ∀ a ∈ done, ∀ attempt, attempts[a]? = some attempt →
    wanted attempt.message.header = true
  once : done.Nodup
  inTurn : ∀ i, (done.filter fun a => attempts[a]?.map (·.sender) = some i).Pairwise (· < ·)

section Delivered

theorem handsOut_payloads {wanted : List UInt8 → Bool} {messages : List Message} (xs : List Nat) :
    ((xs.filterMap (handsOut wanted messages)).map Prod.fst).map some =
      (xs.filter fun a => (messages[a]?).any fun m => wanted m.header).map
        fun a => messages[a]?.map (·.payload) := by
  induction xs with
  | nil => rfl
  | cons a xs ih =>
    rw [List.filterMap_cons, List.filter_cons]
    cases here : messages[a]? with
    | none => simpa [handsOut, here] using ih
    | some m =>
      by_cases collects : wanted m.header = true
      · simpa [handsOut, here, collects] using ih
      · simpa [handsOut, here, collects] using ih

theorem Carries.inTurn (carries : Carries trace s b) (kept : Broadcast.Kept b) {j : Fin n}
    {done : List Nat} (part : done.Sublist ((b.log j).map Prod.fst)) (once : done.Nodup)
    (i : Fin n) :
    (done.filter fun a => (attempts trace)[a]?.map (·.sender) = some i).Pairwise (· < ·) := by
  have log : ((b.log j).map Prod.fst).Pairwise fun a a' =>
      b.owner[a]? = b.owner[a']? → a ≤ a' := by
    rw [List.pairwise_map]
    apply (kept.ordered j).imp
    intro p q order same
    have := order same
    omega
  have early := log.sublist part
  have both : done.Pairwise fun a a' => (b.owner[a]? = b.owner[a']? → a ≤ a') ∧ a ≠ a' :=
    List.pairwise_and_iff.mpr ⟨early, once⟩
  rw [List.pairwise_filter]
  apply both.imp
  intro a a' order first second
  have owner : b.owner[a]? = b.owner[a']? := by
    rw [carries.owner, List.getElem?_map, List.getElem?_map, of_decide_eq_true first,
      of_decide_eq_true second]
  have := order.1 owner
  have := order.2
  omega

/-- Of an attempt that was told Ok every page has been put into every buffer. -/
theorem Carries.everywhere (carries : Carries trace s b) (kept : Broadcast.Kept b) {a : Nat}
    {attempt : Attempt n} (here : (attempts trace)[a]? = some attempt)
    (ok : attempt.result = some (.ok ())) (j : Fin n) {k : Nat}
    (page : k < attempt.message.pages.length) : (a, k) ∈ b.log j := by
  have passed : ¬ b.Lacks j a := by
    rintro ⟨i, sender, _⟩
    cases sending : (s.process i).sending with
    | none =>
      rw [carries.idle i sending] at sender
      cases sender
    | some sending' =>
      obtain ⟨a', attempt', sender', there, _, open_, _⟩ := carries.going i sending' sending
      obtain rfl := Option.some.inj (sender.symm.trans sender')
      obtain rfl := Option.some.inj (here.symm.trans there)
      rw [open_] at ok
      cases ok
  have all := carries.ended a attempt here ok
  rw [kept.mem_log, Broadcast.State.got, if_neg passed]
  omega

/-- However the processes of a project take turns, each of them gets the messages it wants of
    every attempt at most once, and those of one sender in their order. When a sender has been
    told Ok nobody misses the message, unless a page of it is still in his buffer. -/
theorem delivered_exactly_once (run : MeshRun shouldCollect trace s)
    (apart : ToldApart (messages trace)) (j : Fin n) :
    ∃ (done : List Nat) (waiting : List (Nat × Nat)), Delivered (attempts trace)
        (shouldCollect j) done ((s.process j).received ++ (s.process j).inHand.map Prod.fst) ∧
      waiting.mapM (pageAt (messages trace)) = some (s.process j).subscriber ∧
      ∀ (a : Nat) attempt, (attempts trace)[a]? = some attempt →
        attempt.result = some (.ok ()) → shouldCollect j attempt.message.header = true →
        a ∈ done ∨ ∃ k, (a, k) ∈ waiting := by
  obtain ⟨b, kept, carries⟩ := carries_of_run run
  obtain ⟨taken, delivered, split, ⟨results, all, came⟩, pushed, _⟩ :=
    Combined.delivers_of_run (shares_run run j)
  have sent : Sent (messages trace) := by
    apply apart.sent
    intro m member
    obtain ⟨attempt, there, rfl⟩ := List.mem_map.mp member
    exact carries.accepted attempt there
  have pages := carries.pages j
  rw [split] at pages
  obtain ⟨first, waiting, log, arrived, later⟩ := Iox2.mapM_some_append pages
  have once : AtMostOnce (messages trace) first := by
    refine ⟨(log ▸ kept.nodup j).sublist (List.sublist_append_left _ _), ?_⟩
    intro p member
    exact Iox2.mapM_isSome arrived member
  obtain ⟨blobs, results', allocations, arrived', all', order⟩ :=
    @Iox2.completed_order (shouldCollect j) _ sent first once
  obtain rfl := Option.some.inj (arrived.symm.trans arrived')
  rw [all, Option.some.injEq, Prod.mk.injEq] at all'
  obtain ⟨rfl, _⟩ := all'
  have payloads : (s.process j).received ++ (s.process j).inHand.map Prod.fst =
      ((finished first (missing (messages trace) first)).filterMap
        (handsOut (shouldCollect j) (messages trace))).map Prod.fst := by
    rw [← order, came, List.map_append, pushed]
  have message : ∀ {a : Nat}, (messages trace)[a]? = ((attempts trace)[a]?).map (·.message) :=
    fun {a} => List.getElem?_map ..
  refine ⟨(finished first (missing (messages trace) first)).filter
    (fun a => ((messages trace)[a]?).any fun m => shouldCollect j m.header), waiting,
    ⟨?_, ?_, ?_, ?_⟩, later, ?_⟩
  · rw [payloads, handsOut_payloads]
    apply List.map_congr_left
    intro a _
    rw [message, Option.map_map]
    rfl
  · intro a member attempt here
    have collects := (List.mem_filter.mp member).2
    simpa [message, here] using collects
  · exact (Iox2.nodup_finished _ _).filter _
  · apply carries.inTurn kept (j := j)
    · refine List.filter_sublist.trans ((Iox2.finished_sublist _ _).trans ?_)
      rw [log]
      exact (List.sublist_append_left _ _).map _
    · exact (Iox2.nodup_finished _ _).filter _
  · intro a attempt here ok collects
    by_cases late : ∃ k, (a, k) ∈ waiting
    · exact Or.inr late
    · refine Or.inl (List.mem_filter.mpr ⟨(Iox2.finished_iff sent once).mpr ⟨?_, ?_⟩, ?_⟩)
      · rw [messages, List.length_map]
        exact (List.getElem?_eq_some_iff.mp here).1
      · intro k known
        have inside : k < attempt.message.pages.length := by
          simpa [pageAt, message, here] using known
        have there := carries.everywhere kept here ok j inside
        rw [log, List.mem_append] at there
        rcases there with early | later'
        · exact early
        · exact absurd ⟨k, later'⟩ late
      · simp [message, here, collects]

/-- Both processes have sent, and the second has received the first message; its own is still in
    its buffer. -/
theorem delivered_exactly_once_two : ∃ (trace : List (State 2 × Label 2)) (s : State 2),
    MeshRun (fun _ _ => true) trace s ∧ (s.process 1).received = [[7]] ∧
    ∃ (done : List Nat) (waiting : List (Nat × Nat)), Delivered (attempts trace)
        (fun _ => true) done ((s.process 1).received ++ (s.process 1).inHand.map Prod.fst) ∧
      waiting.mapM (pageAt (messages trace)) = some (s.process 1).subscriber ∧
      ∀ (a : Nat) attempt, (attempts trace)[a]? = some attempt →
        attempt.result = some (.ok ()) → true = true →
        a ∈ done ∨ ∃ k, (a, k) ∈ waiting := by
  obtain ⟨trace, s, run, received, sent⟩ := execute_run (next fun _ _ => true) (init : State 2)
    ([.process 0 (.queues [7] 0), .process 1 (.queues [8] 1), .process 0 (.sendActor (.takes 1)),
      .process 1 (.sendActor (.takes 2)), .sends 0, .delivers 0 1, .sends 1,
      .process 0 (.sendActor .publishes), .process 1 (.sendActor .publishes),
      .process 0 (.sendActor .notifies), .notified 1, .delivers 1 0,
      .process 1 (.sendActor .notifies)] ++
      [.proceeds, .proceeds, .proceeds, .proceeds, .recvActor .answers, .proceeds,
        .proceeds].map (.process 1))
    (fun trace s => (s.process 1).received = [[7]] ∧ messages trace = [⟨[7], 0, 1⟩, ⟨[8], 1, 2⟩])
    (by decide +kernel)
  have apart : ToldApart (messages trace) := by
    rw [sent]
    exact ⟨by decide +kernel, by decide +kernel⟩
  exact ⟨trace, s, run, received, delivered_exactly_once run apart 1⟩

end Delivered

end Mesh
