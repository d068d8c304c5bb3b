import Mathlib.Data.List.Perm.Basic
import SkyCurrent.Combined.Steps

/- The two bounded channels between the receiver task and the clients. The task broadcasts to
   the clients while it reads no frame of theirs, and the handler of a client that sends a
   frame on reads no broadcast. -/
namespace Combined

open Iox2 (TryRecvStreamResult)
open Runs

def State.RoomForFrame (s : State) : Prop :=
  s.receivingChannelRx.length < channelCapacity ∧
    (s.subscription.getD []).length < channelCapacity

def State.LastPlace (s : State) : Prop :=
  s.receivingChannelRx.length + 1 = channelCapacity ∨
    ∃ backlog ∈ s.subscription, backlog.length + 1 = channelCapacity

def Client.Full (client : Client) : Prop :=
  channelCapacity ≤ client.backlog.length ∧ client.sending.isSome = true

def Pc.sendsCopy : Pc → Bool
  | .sendCopy _ _ => true
  | _ => false

/-- The task waits for a client to read, and the client for the task to. -/
structure Gridlock (s : State) : Prop where
  broadcasts : s.pc.sendsCopy = true
  noRoom : ¬ s.RoomForFrame
  full : ∃ client ∈ s.clients, client.Full

def State.hearsMessage (s : State) : Bool :=
  match s.pc, s.tryRecvReply with
  | .tryRecvReply _, some (.ok (.newCompleted _)) => true
  | _, _ => false

/-- A message to be broadcast comes up while there is room for frames or no client is full, no
    client with a full backlog takes up a frame, and none takes the last place, while the task
    broadcasts and the others would have to wait. -/
def KeepsApart (s : State) : Label → Prop
  | .proceeds => s.hearsMessage = true → s.RoomForFrame ∨ ∀ client ∈ s.clients, ¬ client.Full
  | .client c (.reads _) => s.pc.sendsCopy = true → s.RoomForFrame ∨
      ∀ client ∈ s.clients[c]?, client.backlog.length < channelCapacity
  | .client c .forwards => s.pc.sendsCopy = true → s.LastPlace →
      ∀ client ∈ s.clients.eraseIdx c, ¬ client.Full
  | _ => True

instance (s : State) : Decidable s.RoomForFrame :=
  inferInstanceAs (Decidable (_ ∧ _))

instance (s : State) : Decidable s.LastPlace :=
  inferInstanceAs (Decidable (_ ∨ _))

instance (client : Client) : Decidable client.Full :=
  inferInstanceAs (Decidable (_ ∧ _))

theorem gridlock_iff (s : State) : Gridlock s ↔
    s.pc.sendsCopy = true ∧ ¬ s.RoomForFrame ∧ ∃ client ∈ s.clients, client.Full :=
  ⟨fun grid => ⟨grid.broadcasts, grid.noRoom, grid.full⟩, fun ⟨pc, room, full⟩ => ⟨pc, room, full⟩⟩

instance (s : State) : Decidable (Gridlock s) :=
  decidable_of_iff _ (gridlock_iff s).symm

instance (s : State) : DecidablePred (KeepsApart s) := by
  intro l
  unfold KeepsApart
  split <;> infer_instance

variable {shouldCollect : List UInt8 → Bool} {s t : State}

section Clients

variable {clients : List Client} {c : Nat} {client other : Client}

theorem mem_of_get (here : clients[c]? = some client) :
    other ∈ clients ↔ other = client ∨ other ∈ clients.eraseIdx c := by
  obtain ⟨range, rfl⟩ := List.getElem?_eq_some_iff.mp here
  rw [← (List.getElem_cons_eraseIdx_perm range).mem_iff, List.mem_cons]

theorem mem_of_set (here : clients[c]? = some client) {new : Client} :
    other ∈ clients.set c new ↔ other = new ∨ other ∈ clients.eraseIdx c := by
  obtain ⟨range, _⟩ := List.getElem?_eq_some_iff.mp here
  have there : (clients.set c new)[c]? = some new := by
    rw [List.getElem?_set_self range]
  rw [mem_of_get there, List.eraseIdx_set_eq]

inductive ClientStep (s : State) (c : Nat) : ClientAct → State → Prop where
  | connects : ClientStep s c .connects { s with clients := s.clients ++ [⟨[], none⟩] }
  | reads (backlog : List (List UInt8)) (frame : List UInt8)
      (here : s.clients[c]? = some ⟨backlog, none⟩) :
      ClientStep s c (.reads frame)
        { s with clients := s.clients.set c ⟨backlog, some frame⟩ }
  | forwards (backlog : List (List UInt8)) (frame : List UInt8)
      (here : s.clients[c]? = some ⟨backlog, some frame⟩) (room : s.RoomForFrame) :
      ClientStep s c .forwards { s with
        clients := s.clients.set c ⟨backlog, none⟩
        receivingChannelRx := s.receivingChannelRx ++ [frame]
        subscription := s.subscription.map (· ++ [frame]) }
  | writes (copy : List UInt8) (backlog : List (List UInt8))
      (here : s.clients[c]? = some ⟨copy :: backlog, none⟩) :
      ClientStep s c .writes { s with clients := s.clients.set c ⟨backlog, none⟩ }
  | closes (backlog : List (List UInt8)) (here : s.clients[c]? = some ⟨backlog, none⟩) :
      ClientStep s c .closes { s with clients := s.clients.eraseIdx c }

theorem client_cases {act : ClientAct} (move : s.client c act = some t) : ClientStep s c act t := by
  unfold State.client at move
  split at move
  · cases move
    exact .connects
  · rename_i frame backlog here
    cases move
    exact .reads backlog frame here
  · rename_i backlog frame here
    unfold State.forwards at move
    split at move <;> cases move
    rename_i room
    exact .forwards backlog frame here room
  · rename_i copy backlog here
    cases move
    exact .writes copy backlog here
  · rename_i backlog here
    cases move
    exact .closes backlog here
  · cases move

theorem noRoom_of_frame (room : s.RoomForFrame) (frame : List UInt8) (clients : List Client) :
    ¬ State.RoomForFrame { s with
      clients := clients
      receivingChannelRx := s.receivingChannelRx ++ [frame]
      subscription := s.subscription.map (· ++ [frame]) } ↔ s.LastPlace := by
  obtain ⟨rx, backlog⟩ := room
  unfold State.RoomForFrame State.LastPlace
  cases subscription : s.subscription with
  | none =>
    simp only [List.length_append, List.length_singleton, Option.map_none, Option.getD_none,
      List.length_nil, Option.mem_def, reduceCtorEq, false_and, exists_false, or_false]
    omega
  | some frames =>
    rw [subscription, Option.getD_some] at backlog
    simp only [List.length_append, List.length_singleton, Option.map_some, Option.getD_some,
      Option.mem_def, Option.some.injEq, exists_eq_left']
    omega

end Clients

section Task

theorem fails_apart (error : IpcError) : (s.fails error).pc.sendsCopy = false := by
  unfold State.fails
  split <;> rfl

theorem drains_apart {again after : Pc} (first : again.sendsCopy = false)
    (second : after.sendsCopy = false) : (s.drains again after).pc.sendsCopy = false := by
  unfold State.drains
  split
  · exact second
  · rename_i backing rest _
    cases backing with
    | error error => exact fails_apart error
    | ok backing => exact first

theorem tries_apart {left : Nat} (move : s.tries left = some t) : t.pc.sendsCopy = false := by
  unfold State.tries at move
  split at move
  · cases move
    rfl
  · split at move
    · cases move
      rfl
    · split at move
      · cases move
        rfl
      · split at move
        · split at move <;> cases move
          rfl
        · split at move <;> cases move
          · rfl
          · unfold State.unframes
            split <;> rfl

theorem proceeds_apart (move : s.proceeds = some t) (broadcasts : t.pc.sendsCopy = true) :
    (∃ left message, s.pc = .tryRecvReply left ∧
        s.tryRecvReply = some (.ok (.newCompleted message))) ∧
      t.clients = s.clients ∧ (t.RoomForFrame ↔ s.RoomForFrame) := by
  cases pc : s.pc with
  | tryRecvReply left =>
    simp only [State.proceeds, pc] at move
    obtain ⟨reply, here, rfl⟩ := Option.map_eq_some_iff.mp move
    cases reply with
    | error error =>
      exact absurd broadcasts (Bool.eq_false_iff.mp (fails_apart error))
    | ok result =>
      cases result with
      | newCompleted message => exact ⟨⟨left, message, rfl, here⟩, rfl, Iff.rfl⟩
      | potentiallyAvailable => cases broadcasts
      | outOfAccessible => cases broadcasts
  | _ =>
    exfalso
    apply Bool.eq_false_iff.mp _ broadcasts
    cases proceeds_cases move with
    | calls _ => rfl
    | startsOn _ => rfl
    | drains _ => exact drains_apart rfl rfl
    | tries left _ move => exact tries_apart move
    | hears left reply here => simp [pc] at here
    | sendsCopy payload headerSize _ after frame => rw [after]; rfl
    | sends payload headerSize _ => rfl
    | resends payload headerSize reply _ _ =>
      cases reply with
      | ok _ => rfl
      | error error =>
        simp only [State.resends]
        split <;> rfl
    | selects _ _ => rfl
    | asksToWait _ _ => rfl
    | subscribes here _ => simp [here, Pc.sendsCopy]
    | drainsAfterWait _ => exact drains_apart rfl rfl

theorem wakes_apart {backing : Backing} (move : s.wakes backing = some t) :
    s.pc.sendsCopy = false ∧ t.pc.sendsCopy = false := by
  obtain ⟨pc, ⟨reply, rest, _, _, rfl⟩ | rfl⟩ := wakes_cases move
  · refine ⟨by rw [pc]; rfl, ?_⟩
    cases reply with
    | error error => exact fails_apart error
    | ok backing => rfl
  · exact ⟨by rw [pc]; rfl, rfl⟩

theorem gridlock_around (pc : t.pc = s.pc) (clients : t.clients = s.clients)
    (rx : t.receivingChannelRx = s.receivingChannelRx)
    (subscription : t.subscription = s.subscription) :
    Gridlock t ↔ Gridlock s := by
  simp only [gridlock_iff, State.RoomForFrame, pc, clients, rx, subscription]

end Task

theorem gridlock_proceeds (move : s.proceeds = some t) :
    Gridlock t ↔ ¬ KeepsApart s .proceeds := by
  constructor
  · intro grid keeps
    obtain ⟨⟨left, message, pc, reply⟩, clients, room⟩ := proceeds_apart move grid.broadcasts
    rcases keeps (by simp [State.hearsMessage, pc, reply]) with free | none_
    · exact grid.noRoom (room.mpr free)
    · obtain ⟨client, member, full⟩ := grid.full
      exact none_ client (clients ▸ member) full
  · intro meets
    simp only [KeepsApart, Classical.not_imp, not_or, not_forall, not_not] at meets
    obtain ⟨hears, noRoom, client, member, full⟩ := meets
    unfold State.hearsMessage at hears
    split at hears
    · rename_i left message pc reply
      simp only [State.proceeds, pc, reply, Option.map_some, Option.some.injEq] at move
      subst move
      exact ⟨rfl, noRoom, client, member, full⟩
    · cases hears

theorem gridlock_client {c : Nat} {act : ClientAct} (free : ¬ Gridlock s)
    (step : ClientStep s c act t) : Gridlock t ↔ ¬ KeepsApart s (.client c act) := by
  have others : s.pc.sendsCopy = true → ¬ s.RoomForFrame → ∀ client ∈ s.clients, ¬ client.Full :=
    fun pc noRoom client member full => free ⟨pc, noRoom, client, member, full⟩
  cases step with
  | connects =>
    have quiet : ¬ Gridlock { s with clients := s.clients ++ [⟨[], none⟩] } := by
      rintro ⟨pc, noRoom, client, member, full⟩
      rcases List.mem_append.mp member with before | new
      · exact others pc noRoom client before full
      · rw [List.mem_singleton.mp new] at full
        simp [Client.Full] at full
    simpa [KeepsApart] using quiet
  | reads backlog frame here =>
    constructor
    · rintro ⟨pc, noRoom, client, member, full⟩ keeps
      rcases (mem_of_set here).mp member with rfl | other
      · rcases keeps pc with room | short
        · exact noRoom room
        · have below : backlog.length < channelCapacity := short _ here
          exact absurd full.1 (Nat.not_le.mpr below)
      · exact others pc noRoom client ((mem_of_get here).mpr (Or.inr other)) full
    · intro meets
      simp only [KeepsApart, here, Option.mem_def, Option.some.injEq, forall_eq', Classical.not_imp,
        not_or, Nat.not_lt] at meets
      obtain ⟨pc, noRoom, long⟩ := meets
      exact ⟨pc, noRoom, _, (mem_of_set here).mpr (Or.inl rfl), long, rfl⟩
  | forwards backlog frame here room =>
    have last := noRoom_of_frame room frame (s.clients.set c ⟨backlog, none⟩)
    constructor
    · rintro ⟨pc, noRoom, client, member, full⟩ keeps
      rcases (mem_of_set here).mp member with rfl | other
      · simp [Client.Full] at full
      · exact keeps pc (last.mp noRoom) client other full
    · intro meets
      simp only [KeepsApart, Classical.not_imp, not_forall, not_not] at meets
      obtain ⟨pc, lastPlace, client, member, full⟩ := meets
      exact ⟨pc, last.mpr lastPlace, client, (mem_of_set here).mpr (Or.inr member), full⟩
  | writes copy backlog here =>
    have quiet : ¬ Gridlock { s with clients := s.clients.set c ⟨backlog, none⟩ } := by
      rintro ⟨pc, noRoom, client, member, full⟩
      rcases (mem_of_set here).mp member with rfl | other
      · simp [Client.Full] at full
      · exact others pc noRoom client ((mem_of_get here).mpr (Or.inr other)) full
    simpa [KeepsApart] using quiet
  | closes backlog here =>
    have quiet : ¬ Gridlock { s with clients := s.clients.eraseIdx c } := by
      rintro ⟨pc, noRoom, client, member, full⟩
      exact others pc noRoom client ((mem_of_get here).mpr (Or.inr member)) full
    simpa [KeepsApart] using quiet

theorem gridlock_step {l : Label} (free : ¬ Gridlock s) (move : next shouldCollect s l = some t) :
    Gridlock t ↔ ¬ KeepsApart s l := by
  cases l with
  | passes time =>
    cases move
    have same : Gridlock { s with now := s.now + time } ↔ Gridlock s :=
      gridlock_around rfl rfl rfl rfl
    simpa only [KeepsApart, same, not_true_eq_false, iff_false] using free
  | proceeds => exact gridlock_proceeds move
  | wakes backing =>
    have apart := (wakes_apart move).2
    simp [KeepsApart, gridlock_iff, apart]
  | recvActor act =>
    have same : Gridlock t ↔ Gridlock s := by
      cases recvActor_cases move with
      | page reply calls less frame =>
        exact gridlock_around (by rw [frame]) (by rw [frame]) (by rw [frame]) (by rw [frame])
      | wait reply calls iox2 frame =>
        exact gridlock_around (by rw [frame]) (by rw [frame]) (by rw [frame]) (by rw [frame])
    simpa [KeepsApart, same] using free
  | sendActor act =>
    have frame := sendActor_frame move
    have same : Gridlock t ↔ Gridlock s :=
      gridlock_around (by rw [frame]) (by rw [frame]) (by rw [frame]) (by rw [frame])
    simpa [KeepsApart, same] using free
  | queues payload headerSize =>
    have frame := queues_frame move
    have same : Gridlock t ↔ Gridlock s :=
      gridlock_around (by rw [frame]) (by rw [frame]) (by rw [frame]) (by rw [frame])
    simpa [KeepsApart, same] using free
  | mesh act =>
    have frame := mesh_frame move
    have same : Gridlock t ↔ Gridlock s :=
      gridlock_around (by rw [frame]) (by rw [frame]) (by rw [frame]) (by rw [frame])
    simpa [KeepsApart, same] using free
  | client c act => exact gridlock_client free (client_cases move)

/-- Nobody gets out of a gridlock. -/
theorem Gridlock.lasts {l : Label} (grid : Gridlock s) (move : next shouldCollect s l = some t) :
    Gridlock t := by
  obtain ⟨pc, noRoom, client, member, full⟩ := grid
  cases l with
  | passes time =>
    cases move
    exact ⟨pc, noRoom, client, member, full⟩
  | proceeds =>
    unfold Pc.sendsCopy at pc
    split at pc
    · rename_i payload headerSize here
      simp only [next, State.proceeds, here, State.sendsCopy] at move
      split at move
      · rename_i room
        have short := List.all_eq_true.mp room client member
        exact absurd full.1 (Nat.not_le.mpr (of_decide_eq_true short))
      · cases move
    · cases pc
  | wakes backing =>
    have apart := (wakes_apart move).1
    rw [pc] at apart
    cases apart
  | recvActor act =>
    cases recvActor_cases move with
    | page reply calls less frame =>
      rw [frame]
      exact ⟨pc, noRoom, client, member, full⟩
    | wait reply calls iox2 frame =>
      rw [frame]
      exact ⟨pc, noRoom, client, member, full⟩
  | sendActor act =>
    rw [sendActor_frame move]
    exact ⟨pc, noRoom, client, member, full⟩
  | queues payload headerSize =>
    rw [queues_frame move]
    exact ⟨pc, noRoom, client, member, full⟩
  | mesh act =>
    rw [mesh_frame move]
    exact ⟨pc, noRoom, client, member, full⟩
  | client c act =>
    have stays : ∀ {mover : Client}, s.clients[c]? = some mover → mover.sending = none →
        client ∈ s.clients.eraseIdx c := by
      intro mover here idle
      rcases (mem_of_get here).mp member with rfl | other
      · simp [Client.Full, idle] at full
      · exact other
    cases client_cases move with
    | connects =>
      exact ⟨pc, noRoom, client, List.mem_append.mpr (Or.inl member), full⟩
    | reads backlog frame here =>
      exact ⟨pc, noRoom, client, (mem_of_set here).mpr (Or.inr (stays here rfl)), full⟩
    | forwards backlog frame here room => exact absurd room noRoom
    | writes copy backlog here =>
      exact ⟨pc, noRoom, client, (mem_of_set here).mpr (Or.inr (stays here rfl)), full⟩
    | closes backlog here => exact ⟨pc, noRoom, client, stays here rfl, full⟩

/-- The two channels do not block each other as long as every step keeps the parties apart, and
    the first step that does not is one into a gridlock. -/
theorem no_gridlock_iff {trace : List (State × Label)} (run : Runs shouldCollect trace s) :
    Throughout (fun _ s => ¬ Gridlock s) trace s ↔ Meets KeepsApart trace := by
  constructor
  · intro holds
    refine meets_of_throughout ?_ run holds
    intro trace s l t _ _ move meets free
    by_cases grid : Gridlock s
    · exact free (grid.lasts move)
    · exact free ((gridlock_step grid move).mpr meets)
  · intro keeps
    apply throughout_of_runs _ run keeps
    intro trace s run keeps
    apply run_invariant (fun _ s => ¬ Gridlock s) _ _ run keeps
    · rintro s rfl grid
      cases grid.broadcasts
    · intro trace s l t _ free keeps move grid
      exact (gridlock_step free move).mp grid keeps

def onePage : Iox2.Blob := (Iox2.wholePage [1] 0).getD .zeroed

def receivesPage : List Label :=
  [.mesh (.publishes onePage), .proceeds, .proceeds, .proceeds, .proceeds, .recvActor .answers,
    .proceeds]

/-- A client gets a broadcast while it sends a frame, and reads it later. -/
theorem no_gridlock_one_client : ∃ trace s, Runs (fun _ => true) trace s ∧
    Throughout (fun _ s => ¬ Gridlock s) trace s ∧ s.clients = [⟨[], none⟩] ∧
    s.received = [[1]] := by
  obtain ⟨trace, s, run, keeps, clients, received⟩ := execute_run (next fun _ => true) init
    ([.client 0 .connects] ++ receivesPage ++
      [.client 0 (.reads []), .proceeds, .client 0 .forwards, .client 0 .writes])
    (fun trace s => (∀ e ∈ trace, KeepsApart e.1 e.2) ∧ s.clients = [⟨[], none⟩] ∧
      s.received = [[1]]) (by decide +kernel)
  exact ⟨trace, s, run, (no_gridlock_iff run).mpr keeps, clients, received⟩

/-- A client that sends many frames while a hundred messages of the mesh wait for it. -/
theorem gridlock_under_load : ∃ trace s, Runs (fun _ => true) trace s ∧ Gridlock s :=
  execute_run (next fun _ => true) init
    ([.client 0 .connects] ++
      (List.replicate channelCapacity (receivesPage ++ [.proceeds])).flatten ++
      (List.replicate channelCapacity [.client 0 (.reads []), .client 0 .forwards]).flatten ++
      [.client 0 (.reads [])] ++ receivesPage)
    (fun _ s => Gridlock s) (by decide +kernel)

end Combined
