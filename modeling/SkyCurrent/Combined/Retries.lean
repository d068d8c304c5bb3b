import SkyCurrent.Combined.Model
import SkyCurrent.Iox2.InOrder

/- send_stream of tokio.rs, which calls that of backing/combined.rs and through it that of
   backing/iox2.rs again until it succeeds, with every failure of iceoryx2 on the way. A page
   that cannot be loaned or sent is not published; a failed notification takes nothing back. -/
namespace Combined

open Iox2 (Blob Message MergeAllocs TryRecvStreamResult completed receiveAll)

/-- What the calls of iceoryx2 come to, in the order send_stream makes them: send_page,
    node.wait between two tries of a fragment, notify. -/
inductive Event where
  | published
  | loanFails
  | sendFails
  | waited
  | interrupted
  | notified
  | notifyFails
  deriving DecidableEq, Repr

def sendPage : List Event → Option (Except IpcError Unit × List Event)
  | .published :: events => some (.ok (), events)
  | .loanFails :: events => some (.error .iox2PublisherLoanError, events)
  | .sendFails :: events => some (.error .iox2PublisherSendError, events)
  | _ => none

def notify : List Event → Option (Except IpcError Unit × List Event)
  | .notified :: events => some (.ok (), events)
  | .notifyFails :: events => some (.error .iox2NotifierNotifyError, events)
  | _ => none

structure Attempt where
  result : Except IpcError Unit
  published : List Blob
  events : List Event

def sendWhole (data : Blob) (events : List Event) : Option Attempt := do
  let (result, events) ← sendPage events
  let published := match result with
    | .ok _ => [data]
    | .error _ => []
  let (notified, events) ← notify events
  match notified with
  | .error error => some ⟨.error error, published, events⟩
  | .ok _ => some ⟨result, published, events⟩

/-- while let Err(_) = send_page(..), which only an interrupted wait ends with an error. -/
def sendFragment : List Event → Option (Except IpcError Unit × List Event)
  | .published :: events => some (.ok (), events)
  | .loanFails :: .waited :: events => sendFragment events
  | .sendFails :: .waited :: events => sendFragment events
  | .loanFails :: .interrupted :: events => some (.error .interruptSignalReceivedError, events)
  | .sendFails :: .interrupted :: events => some (.error .interruptSignalReceivedError, events)
  | _ => none

def sendFragments : List Blob → List Event → Option Attempt
  | [], events => some ⟨.ok (), [], events⟩
  | page :: pages, events => do
    let (sent, events) ← sendFragment events
    match sent with
    | .error error => some ⟨.error error, [], events⟩
    | .ok _ => do
      let (notified, events) ← notify events
      match notified with
      | .error error => some ⟨.error error, [page], events⟩
      | .ok _ => do
        let rest ← sendFragments pages events
        some { rest with published := page :: rest.published }

/-- send_stream of backing/iox2.rs, which hands its result back through backing/combined.rs. -/
def iox2SendStream (payload : List UInt8) (headerSize : Nat) (identification : UInt64)
    (events : List Event) : Option Attempt := do
  match ← Iox2.sendStream payload headerSize identification with
  | .error error => some ⟨.error (.rejected error), [], events⟩
  | .ok pages =>
    if payload.length ≤ Iox2.presetN - 8 - 8 - 8 then pages.head?.bind (sendWhole · events)
    else sendFragments pages events

/-- The loop of tokio::send_stream, with the identification every call draws: the pages that
    are published until it returns. Any other error than the three ends in a panic. -/
def tokioSendStream (payload : List UInt8) (headerSize : Nat) :
    List UInt64 → List Event → Option (List Blob × List Event)
  | [], _ => none
  | identification :: identifications, events => do
    let attempt ← iox2SendStream payload headerSize identification events
    match attempt.result with
    | .ok _ => some (attempt.published, attempt.events)
    | .error error =>
      if error.senderRetries then do
        let (published, events) ←
          tokioSendStream payload headerSize identifications attempt.events
        some (attempt.published ++ published, events)
      else none

def NotifyLost (events : List Event) : Prop := [.published, .notifyFails] <:+: events

instance (events : List Event) : Decidable (NotifyLost events) :=
  inferInstanceAs (Decidable (_ <:+: _))

def ReceivedOnce (shouldCollect : List UInt8 → Bool) (published : List Blob)
    (payload : List UInt8) (headerSize : Nat) : Prop :=
  ∃ results, receiveAll shouldCollect .empty published = some (results, .empty) ∧
    completed results = [(payload, headerSize)]

section Attempts

variable {payload : List UInt8} {headerSize : Nat} {events rest : List Event}

theorem notifyLost_nil : ¬ NotifyLost [] := by
  simp [NotifyLost]

theorem notifyLost_cons {e : Event} (other : e ≠ .published) :
    NotifyLost (e :: events) ↔ NotifyLost events := by
  simp [NotifyLost, List.infix_cons_iff, List.cons_prefix_cons, Ne.symm other]

theorem notifyLost_published : NotifyLost (.published :: events) ↔
    events.head? = some .notifyFails ∨ NotifyLost events := by
  cases events with
  | nil => simp [NotifyLost, List.infix_cons_iff]
  | cons e events => simp [NotifyLost, List.infix_cons_iff, List.cons_prefix_cons, eq_comm]

theorem notify_cases {result : Except IpcError Unit} (done : notify events = some (result, rest)) :
    result = .ok () ∧ events = .notified :: rest ∨
      result = .error .iox2NotifierNotifyError ∧ events = .notifyFails :: rest := by
  unfold notify at done
  split at done
  · cases done
    exact Or.inl ⟨rfl, rfl⟩
  · cases done
    exact Or.inr ⟨rfl, rfl⟩
  · cases done

theorem sendPage_cases {result : Except IpcError Unit}
    (done : sendPage events = some (result, rest)) :
    result = .ok () ∧ events = .published :: rest ∨
      ∃ e error, result = .error error ∧ e ≠ .published ∧ events = e :: rest := by
  unfold sendPage at done
  split at done
  · cases done
    exact Or.inl ⟨rfl, rfl⟩
  · cases done
    exact Or.inr ⟨_, _, rfl, by simp, rfl⟩
  · cases done
    exact Or.inr ⟨_, _, rfl, by simp, rfl⟩
  · cases done

theorem sendFragment_cases {result : Except IpcError Unit}
    (done : sendFragment events = some (result, rest)) :
    result = .error .interruptSignalReceivedError ∨ result = .ok () ∧
      (NotifyLost events ↔ rest.head? = some .notifyFails ∨ NotifyLost rest) := by
  fun_induction sendFragment events with
  | case1 events =>
    cases done
    exact Or.inr ⟨rfl, notifyLost_published⟩
  | case2 events ih =>
    rw [notifyLost_cons (by simp), notifyLost_cons (by simp)]
    exact ih done
  | case3 events ih =>
    rw [notifyLost_cons (by simp), notifyLost_cons (by simp)]
    exact ih done
  | case4 events =>
    cases done
    exact Or.inl rfl
  | case5 events =>
    cases done
    exact Or.inl rfl
  | case6 => cases done

inductive Ends (pages : List Blob) (events : List Event) (attempt : Attempt) : Prop where
  | sent (ok : attempt.result = .ok ()) (published : attempt.published = pages)
      (lost : NotifyLost events ↔ NotifyLost attempt.events)
  | nothing {error : IpcError} (failed : attempt.result = .error error)
      (published : attempt.published = [])
      (lost : NotifyLost events ↔ NotifyLost attempt.events)
  | part {error : IpcError} (n : Nat) (failed : attempt.result = .error error) (some_ : 0 < n)
      (range : n ≤ pages.length) (published : attempt.published = pages.take n)
      (lost : NotifyLost events)
  | final {error : IpcError} (failed : attempt.result = .error error)
      (panics : error.senderRetries = false)

theorem sendWhole_ends {data : Blob} {attempt : Attempt}
    (done : sendWhole data events = some attempt) : Ends [data] events attempt := by
  simp only [sendWhole, Option.bind_eq_bind, Option.bind_eq_some_iff, Prod.exists] at done
  obtain ⟨result, events₁, page, notified, events₂, notifies, done⟩ := done
  rcases sendPage_cases page with ⟨rfl, rfl⟩ | ⟨e, error, rfl, other, rfl⟩
  · rcases notify_cases notifies with ⟨rfl, rfl⟩ | ⟨rfl, rfl⟩
    · cases done
      refine .sent rfl rfl ?_
      rw [notifyLost_published, notifyLost_cons (by simp)]
      simp
    · cases done
      exact .part 1 rfl Nat.one_pos le_rfl rfl (notifyLost_published.mpr (Or.inl rfl))
  · rcases notify_cases notifies with ⟨rfl, rfl⟩ | ⟨rfl, rfl⟩
    all_goals
      cases done
      refine .nothing rfl rfl ?_
      rw [notifyLost_cons other, notifyLost_cons (by simp)]

theorem sendFragments_ends (pages : List Blob) : ∀ {events : List Event} {attempt : Attempt},
    sendFragments pages events = some attempt →
    attempt.result = .ok () ∧ attempt.published = pages ∧
        (NotifyLost events ↔ NotifyLost attempt.events) ∨
      (∃ n error, attempt.result = .error error ∧ 0 < n ∧ n ≤ pages.length ∧
        attempt.published = pages.take n ∧ NotifyLost events) ∨
      attempt.result = .error .interruptSignalReceivedError := by
  induction pages with
  | nil =>
    intro events attempt done
    cases done
    exact Or.inl ⟨rfl, rfl, Iff.rfl⟩
  | cons page pages ih =>
    intro events attempt done
    simp only [sendFragments, Option.bind_eq_bind, Option.bind_eq_some_iff, Prod.exists] at done
    obtain ⟨result, events₁, sends, done⟩ := done
    rcases sendFragment_cases sends with rfl | ⟨rfl, lost⟩
    · cases done
      exact Or.inr (Or.inr rfl)
    · simp only [Option.bind_eq_some_iff, Prod.exists] at done
      obtain ⟨notified, events₂, notifies, done⟩ := done
      rcases notify_cases notifies with ⟨rfl, rfl⟩ | ⟨rfl, rfl⟩
      · simp only [Option.bind_eq_some_iff, Option.some.injEq] at done
        obtain ⟨rest, later, rfl⟩ := done
        have same : NotifyLost events ↔ NotifyLost events₂ := by
          rw [lost, notifyLost_cons (by simp)]
          simp
        rcases ih later with ⟨ok, published, lost⟩ | ⟨n, error, failed, _, range, published, lost⟩ |
          failed
        · exact Or.inl ⟨ok, by rw [published], same.trans lost⟩
        · exact Or.inr (Or.inl ⟨n + 1, error, failed, Nat.succ_pos n, Nat.succ_le_succ range,
            by rw [published, List.take_succ_cons], same.mpr lost⟩)
        · exact Or.inr (Or.inr failed)
      · cases done
        exact Or.inr (Or.inl ⟨1, _, rfl, Nat.one_pos, by simp, rfl, lost.mpr (Or.inl rfl)⟩)

theorem iox2SendStream_ends {identification : UInt64} {attempt : Attempt}
    (done : iox2SendStream payload headerSize identification events = some attempt) :
    Ends (Message.mk payload headerSize identification).pages events attempt := by
  simp only [iox2SendStream, Option.bind_eq_bind, Option.bind_eq_some_iff] at done
  obtain ⟨reply, sends, done⟩ := done
  cases reply with
  | error error =>
    cases done
    exact .final rfl rfl
  | ok pages =>
    have same : (Message.mk payload headerSize identification).pages = pages := by
      simp [Message.pages, sends]
    rw [same]
    simp only at done
    split at done
    · rename_i short
      obtain ⟨_, ⟨_, data, one, _⟩ | ⟨cut, _⟩⟩ := Message.Accepted.pages_spec
        (m := Message.mk payload headerSize identification) ⟨pages, sends⟩
      · rw [same] at one
        subst one
        exact sendWhole_ends done
      · exact absurd cut.long (Nat.not_lt.mpr short)
    · rcases sendFragments_ends pages done with ⟨ok, published, lost⟩ |
        ⟨n, error, failed, some_, range, published, lost⟩ | failed
      · exact .sent ok published lost
      · exact .part n failed some_ range published lost
      · exact .final failed rfl

inductive Transmission (payload : List UInt8) (headerSize : Nat) :
    List UInt64 → Bool → List Blob → Prop where
  | last (identification : UInt64) (unused : List UInt64) :
      Transmission payload headerSize (identification :: unused) false
        (Message.mk payload headerSize identification).pages
  | nothing (identification : UInt64) {later : List UInt64} {broken : Bool} {blobs : List Blob}
      (rest : Transmission payload headerSize later broken blobs) :
      Transmission payload headerSize (identification :: later) broken blobs
  | part (identification : UInt64) {later : List UInt64} {broken : Bool} {blobs : List Blob}
      (n : Nat) (some_ : 0 < n)
      (range : n ≤ (Message.mk payload headerSize identification).pages.length)
      (rest : Transmission payload headerSize later broken blobs) :
      Transmission payload headerSize (identification :: later) true
        ((Message.mk payload headerSize identification).pages.take n ++ blobs)

theorem accepted_of_attempt {identification : UInt64} {attempt : Attempt}
    (done : iox2SendStream payload headerSize identification events = some attempt)
    (goesOn : ∀ error, attempt.result = .error error → error.senderRetries = true) :
    (Message.mk payload headerSize identification).Accepted := by
  simp only [iox2SendStream, Option.bind_eq_bind, Option.bind_eq_some_iff] at done
  obtain ⟨reply, sends, done⟩ := done
  cases reply with
  | error error =>
    cases done
    cases goesOn _ rfl
  | ok pages => exact ⟨pages, sends⟩

theorem tokioSendStream_accepted {identifications : List UInt64} {published : List Blob}
    (returns : tokioSendStream payload headerSize identifications events =
      some (published, rest)) :
    ∃ identification, (Message.mk payload headerSize identification).Accepted := by
  cases identifications with
  | nil => cases returns
  | cons identification identifications =>
    simp only [tokioSendStream, Option.bind_eq_bind, Option.bind_eq_some_iff] at returns
    obtain ⟨attempt, done, returns⟩ := returns
    refine ⟨identification, accepted_of_attempt done ?_⟩
    intro error failed
    simp only [failed] at returns
    split at returns
    · rename_i again
      exact again
    · cases returns

theorem tokioSendStream_transmits {identifications : List UInt64} {published : List Blob}
    (returns : tokioSendStream payload headerSize identifications events =
      some (published, [])) :
    ∃ broken, Transmission payload headerSize identifications broken published ∧
      (broken = true ↔ NotifyLost events) := by
  induction identifications generalizing events published with
  | nil => cases returns
  | cons identification identifications ih =>
    simp only [tokioSendStream, Option.bind_eq_bind, Option.bind_eq_some_iff] at returns
    obtain ⟨⟨result, published', after⟩, done, returns⟩ := returns
    have goesOn (error : IpcError) (failed : result = .error error) :
        error.senderRetries = true ∧ ∃ blobs,
          tokioSendStream payload headerSize identifications after = some (blobs, []) ∧
          published = published' ++ blobs := by
      subst failed
      simp only at returns
      split at returns
      · rename_i again
        simp only [Option.bind_eq_some_iff, Option.some.injEq, Prod.mk.injEq,
          Prod.exists] at returns
        obtain ⟨blobs, _, later, rfl, rfl⟩ := returns
        exact ⟨again, blobs, later, rfl⟩
      · cases returns
    cases iox2SendStream_ends done with
    | sent ok all lost =>
      obtain rfl : result = .ok () := ok
      obtain rfl : published' = _ := all
      simp only [Option.some.injEq, Prod.mk.injEq] at returns
      obtain ⟨rfl, rfl⟩ := returns
      refine ⟨false, .last _ _, ?_⟩
      rw [lost]
      simp [notifyLost_nil]
    | @nothing error failed none_ lost =>
      obtain ⟨_, blobs, later, rfl⟩ := goesOn error failed
      obtain rfl : published' = [] := none_
      obtain ⟨broken, transmission, iff⟩ := ih later
      exact ⟨broken, transmission.nothing _, iff.trans lost.symm⟩
    | @part error n failed some_ range begun lost =>
      obtain ⟨_, blobs, later, rfl⟩ := goesOn error failed
      obtain rfl : published' = _ := begun
      obtain ⟨broken, transmission, _⟩ := ih later
      exact ⟨true, transmission.part _ n some_ range, by simp [lost]⟩
    | @final error failed panics =>
      obtain ⟨again, _⟩ := goesOn error failed
      rw [panics] at again
      cases again

theorem Transmission.whole {identifications : List UInt64} {blobs : List Blob}
    (transmission : Transmission payload headerSize identifications false blobs) :
    ∃ identification, blobs = (Message.mk payload headerSize identification).pages := by
  generalize intact : false = broken at transmission
  induction transmission with
  | last identification unused => exact ⟨identification, rfl⟩
  | nothing identification rest ih => exact ih intact
  | part identification n some_ range rest ih => cases intact

theorem Transmission.pages {identifications : List UInt64} {broken : Bool} {blobs : List Blob}
    (transmission : Transmission payload headerSize identifications broken blobs) :
    ∀ blob ∈ blobs, ∃ identification,
      blob ∈ (Message.mk payload headerSize identification).pages := by
  induction transmission with
  | last identification unused => exact fun blob member => ⟨identification, member⟩
  | nothing identification rest ih => exact ih
  | part identification n some_ range rest ih =>
    intro blob member
    rcases List.mem_append.mp member with now | later
    · exact ⟨identification, List.mem_of_mem_take now⟩
    · exact ih blob later

/-- A payload of one page is published once, and once more for every call that gave up. -/
theorem Transmission.copies {identifications : List UInt64} {broken : Bool} {blobs : List Blob}
    (transmission : Transmission payload headerSize identifications broken blobs) {data : Blob}
    (one : ∀ identification, (Message.mk payload headerSize identification).pages = [data]) :
    ∃ n, blobs = List.replicate (n + 1) data ∧ (broken = true ↔ 0 < n) := by
  induction transmission with
  | last identification unused => exact ⟨0, one identification, by simp⟩
  | nothing identification rest ih => exact ih
  | part identification n some_ range rest ih =>
    obtain ⟨k, rfl, _⟩ := ih
    rw [one, List.length_singleton] at range
    obtain rfl : n = 1 := by omega
    refine ⟨k + 1, ?_, by simp⟩
    rw [one]
    rfl

section Fragmented

variable (cut : ∀ identification, Message.Cut ⟨payload, headerSize, identification⟩)
  (few : (Message.mk payload headerSize 0).numChunks < 2 ^ 32)
  {shouldCollect : List UInt8 → Bool} (wanted : shouldCollect (payload.take headerSize) = true)
include cut few wanted

/-- A call that gave up has left an entry behind that nobody takes away, or has completed the
    message, which the last call completes again. -/
theorem Transmission.leaves {identifications : List UInt64} {broken : Bool} {blobs : List Blob}
    (transmission : Transmission payload headerSize identifications broken blobs)
    (fresh : identifications.Nodup) {allocations : MergeAllocs}
    (unknown : ∀ id ∈ identifications, allocations id = none) :
    ∃ results allocations', receiveAll shouldCollect allocations blobs =
        some (results, allocations') ∧
      0 < (completed results).length ∧
      (∀ id, id ∉ identifications → allocations' id = allocations id) ∧
      (broken = true → 1 < (completed results).length ∨
        ∃ id ∈ identifications, allocations' id ≠ none) := by
  induction transmission generalizing allocations with
  | last identification unused =>
    obtain ⟨count, _⟩ := (cut identification).pages_spec
    obtain ⟨results, allocations', received, _, others, messages⟩ :=
      Iox2.receive_prefix (cut identification) few wanted (unknown _ (List.mem_cons_self ..))
        (Nat.le_refl _)
    rw [← count, List.take_length] at received
    rw [if_pos rfl] at messages
    refine ⟨results, allocations', received, by simp [messages], ?_, by simp⟩
    intro id apart
    exact others id fun same => apart (same ▸ List.mem_cons_self ..)
  | nothing identification rest ih =>
    obtain ⟨results, allocations', received, some_, others, left⟩ := ih
      (List.nodup_cons.mp fresh).2 fun id later => unknown id (List.mem_cons_of_mem _ later)
    refine ⟨results, allocations', received, some_, ?_, ?_⟩
    · intro id apart
      exact others id fun later => apart (List.mem_cons_of_mem _ later)
    · intro broken
      refine (left broken).imp_right ?_
      rintro ⟨id, later, entry⟩
      exact ⟨id, List.mem_cons_of_mem _ later, entry⟩
  | @part identification later _ blobs n begun range rest ih =>
    obtain ⟨count, _⟩ := (cut identification).pages_spec
    rw [count] at range
    obtain ⟨first, allocations₁, received₁, merging, others₁, messages₁⟩ :=
      Iox2.receive_prefix (cut identification) few wanted (unknown _ (List.mem_cons_self ..)) range
    obtain ⟨once, distinct⟩ := List.nodup_cons.mp fresh
    have still : ∀ id ∈ later, allocations₁ id = none := by
      intro id member
      have apart : id ≠ identification := fun same => once (same ▸ member)
      rw [others₁ id apart]
      exact unknown id (List.mem_cons_of_mem _ member)
    obtain ⟨second, allocations₂, received₂, some_, others₂, _⟩ := ih distinct still
    refine ⟨first ++ second, allocations₂, Iox2.receiveAll_append received₁ received₂, ?_, ?_, ?_⟩
    · rw [Iox2.completed_append, List.length_append]
      omega
    · intro id apart
      obtain ⟨other, notLater⟩ := not_or.mp fun member => apart (List.mem_cons.mpr member)
      rw [others₂ id notLater, others₁ id other]
    · intro _
      by_cases full : n = (Message.mk payload headerSize identification).numChunks
      · left
        rw [if_pos full] at messages₁
        rw [Iox2.completed_append, messages₁, List.length_append, List.length_singleton]
        omega
      · right
        have unfinished : ¬ (Finset.range n = ∅ ∨
            (Finset.range n).card = (Message.mk payload headerSize identification).numChunks) := by
          rw [Finset.range_eq_empty_iff, Finset.card_range]
          omega
        rw [Iox2.Merging, if_neg unfinished] at merging
        obtain ⟨e, entry, _⟩ := merging
        refine ⟨identification, List.mem_cons_self .., ?_⟩
        rw [others₂ identification once, entry]
        simp

end Fragmented

section Received

variable {identifications : List UInt64} {published : List Blob}
  {shouldCollect : List UInt8 → Bool} (wanted : shouldCollect (payload.take headerSize) = true)

theorem short_pages (short : ¬ (Message.mk payload headerSize 0).Fragmented)
    (accepted : (Message.mk payload headerSize 0).Accepted) :
    ∃ data, Iox2.IsWhole data payload headerSize ∧
      ∀ identification, (Message.mk payload headerSize identification).pages = [data] := by
  obtain ⟨_, ⟨_, data, one, whole⟩ | ⟨cut, _⟩⟩ := accepted.pages_spec
  · refine ⟨data, whole, fun identification => ?_⟩
    have fits : payload.length ≤ Iox2.presetN - 8 - 8 - 8 := Nat.not_lt.mp short
    simp only [Message.pages, Iox2.sendStream, if_pos fits] at one ⊢
    exact one
  · exact absurd cut.long short

theorem accepted_any {identification : UInt64}
    (accepted : (Message.mk payload headerSize identification).Accepted) (other : UInt64) :
    (Message.mk payload headerSize other).Accepted := by
  obtain ⟨inside, room⟩ := Message.accepted_iff.mp accepted
  exact Message.accepted_iff.mpr ⟨inside, room⟩

theorem cut_any (accepted : (Message.mk payload headerSize 0).Accepted)
    (long : (Message.mk payload headerSize 0).Fragmented) (identification : UInt64) :
    Message.Cut ⟨payload, headerSize, identification⟩ := by
  obtain ⟨inside, room⟩ := Message.accepted_iff.mp accepted
  exact ⟨inside, long, room long⟩

include wanted

theorem receivedOnce_of_intact
    (returns : tokioSendStream payload headerSize identifications events = some (published, []))
    (few : (Message.mk payload headerSize 0).pages.length < 2 ^ 32)
    (kept : ¬ NotifyLost events) : ReceivedOnce shouldCollect published payload headerSize := by
  obtain ⟨_, accepted'⟩ := tokioSendStream_accepted returns
  have accepted := accepted_any accepted' 0
  obtain ⟨broken, transmission, lost⟩ := tokioSendStream_transmits returns
  obtain rfl : broken = false := by
    rw [← Bool.not_eq_true, lost]
    exact kept
  obtain ⟨identification, rfl⟩ := transmission.whole
  by_cases long : (Message.mk payload headerSize 0).Fragmented
  · have cut := cut_any accepted long
    obtain ⟨count, _⟩ := (cut identification).pages_spec
    rw [(cut 0).pages_spec.1] at few
    obtain ⟨results, allocations, received, merging, others, messages⟩ :=
      @Iox2.receive_prefix shouldCollect .empty _ (cut identification) few wanted rfl _
        (Nat.le_refl _)
    rw [← count, List.take_length] at received
    rw [Iox2.Merging, if_pos (Or.inr (Finset.card_range _))] at merging
    rw [if_pos rfl] at messages
    have nothing : allocations = .empty := by
      funext id
      by_cases same : id = identification
      · rw [same]
        exact merging
      · exact others id same
    exact ⟨results, nothing ▸ received, messages⟩
  · obtain ⟨data, whole, one⟩ := short_pages long accepted
    obtain ⟨inside, _⟩ := Message.accepted_iff.mp accepted
    have short := Nat.not_lt.mp long
    obtain ⟨results, received, messages⟩ :=
      @Iox2.receive_copies shouldCollect .empty ⟨payload, headerSize, 0⟩ inside
        (by unfold Iox2.presetN at short ⊢; omega) data whole wanted 1
    rw [one]
    exact ⟨results, received, messages⟩

theorem intact_of_receivedOnce
    (returns : tokioSendStream payload headerSize identifications events = some (published, []))
    (fresh : identifications.Nodup)
    (once : ReceivedOnce shouldCollect published payload headerSize) :
    (Message.mk payload headerSize 0).pages.length < 2 ^ 32 ∧ ¬ NotifyLost events := by
  obtain ⟨_, accepted'⟩ := tokioSendStream_accepted returns
  have accepted := accepted_any accepted' 0
  obtain ⟨broken, transmission, lost⟩ := tokioSendStream_transmits returns
  obtain ⟨results, received, messages⟩ := once
  by_cases long : (Message.mk payload headerSize 0).Fragmented
  · have cut := cut_any accepted long
    rw [(cut 0).pages_spec.1]
    have few : (Message.mk payload headerSize 0).numChunks < 2 ^ 32 := by
      by_contra many
      have below : Iox2.Below payload.length .empty := by
        intro id e entry
        cases entry
      have shorter := Iox2.receive_wrapped cut (Nat.not_lt.mp many) transmission.pages below
        received payload headerSize (by simp [messages])
      exact Nat.lt_irrefl _ shorter
    refine ⟨few, fun lostOne => ?_⟩
    obtain ⟨results', allocations, received', _, _, left⟩ :=
      transmission.leaves cut few wanted fresh
        (fun id _ => show MergeAllocs.empty id = none from rfl)
    rw [received] at received'
    cases received'
    rcases left (lost.mpr lostOne) with twice | ⟨id, _, entry⟩
    · simp [messages] at twice
    · exact entry rfl
  · obtain ⟨data, whole, one⟩ := short_pages long accepted
    obtain ⟨inside, _⟩ := Message.accepted_iff.mp accepted
    have short := Nat.not_lt.mp long
    refine ⟨by simp [one], fun lostOne => ?_⟩
    obtain ⟨n, rfl, some_⟩ := transmission.copies one
    obtain ⟨results', received', messages'⟩ :=
      @Iox2.receive_copies shouldCollect .empty ⟨payload, headerSize, 0⟩ inside
        (by unfold Iox2.presetN at short ⊢; omega) data whole wanted (n + 1)
    rw [received] at received'
    cases received'
    have length := congrArg List.length (messages.symm.trans messages')
    have more := some_.mp (lost.mpr lostOne)
    simp only [List.length_singleton, List.length_replicate] at length
    omega

/-- A send_stream that returns has sent its message exactly once if its pages can be counted
    and no notification has failed for a page of it; otherwise, as long as every call draws
    another identification, the message comes out twice or an entry stays behind. -/
theorem sent_once
    (returns : tokioSendStream payload headerSize identifications events = some (published, [])) :
    ((Message.mk payload headerSize 0).pages.length < 2 ^ 32 ∧ ¬ NotifyLost events →
      ReceivedOnce shouldCollect published payload headerSize) ∧
    (identifications.Nodup → ReceivedOnce shouldCollect published payload headerSize →
      (Message.mk payload headerSize 0).pages.length < 2 ^ 32 ∧ ¬ NotifyLost events) :=
  ⟨fun intact => receivedOnce_of_intact wanted returns intact.1 intact.2,
    intact_of_receivedOnce wanted returns⟩

end Received

end Attempts

/-- The page cannot be sent at first. -/
theorem sent_once_after_failure : ∃ published, tokioSendStream [1, 2] 1 [5, 6]
      [.sendFails, .notified, .published, .notified] = some (published, []) ∧
    ReceivedOnce (fun _ => true) published [1, 2] 1 := by
  have computed : (tokioSendStream [1, 2] 1 [5, 6]
      [.sendFails, .notified, .published, .notified]).map (·.2) = some [] := by
    decide +kernel
  obtain ⟨⟨published, _⟩, returns, rfl⟩ := Option.map_eq_some_iff.mp computed
  have few : (Message.mk [1, 2] 1 0).pages.length < 2 ^ 32 := by
    decide +kernel
  exact ⟨published, returns, (sent_once rfl returns).1 ⟨few, by decide⟩⟩

/-- The page is published, its notification fails, and the page is published again. -/
theorem sent_twice : ∃ published, tokioSendStream [1, 2] 1 [5, 6]
      [.published, .notifyFails, .published, .notified] = some (published, []) ∧
    ¬ ReceivedOnce (fun _ => true) published [1, 2] 1 := by
  have computed : (tokioSendStream [1, 2] 1 [5, 6]
      [.published, .notifyFails, .published, .notified]).map (·.2) = some [] := by
    decide +kernel
  obtain ⟨⟨published, _⟩, returns, rfl⟩ := Option.map_eq_some_iff.mp computed
  refine ⟨published, returns, fun once => ?_⟩
  have intact := intact_of_receivedOnce rfl returns (by decide) once
  exact intact.2 (by decide)

end Combined
