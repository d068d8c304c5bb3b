import SkyCurrent.Client.Model

/- What one turn of the event loop can do to the globals. -/
namespace Client

variable {s t : State}

section Listeners

variable {listener : Listener}

theorem throws_of_down (down : s.isConnectedInternal = false) : s.throws listener = false := by
  simp [State.throws, down]

theorem notify_of_down (down : s.isConnectedInternal = false) : s.notify listener = s := by
  simp [State.notify, throws_of_down down, down]

theorem notifyConnectionListeners_of_down (down : s.isConnectedInternal = false) :
    s.notifyConnectionListeners = s := by
  have all (listeners : List Listener) : listeners.foldl State.notify s = s := by
    induction listeners with
    | nil => rfl
    | cons listener rest ih => rw [List.foldl_cons, notify_of_down down, ih]
  exact all s.connectionListeners

def State.withSends (s : State) (listeners : Nat) (connectionListeners : List Listener)
    (sent : List (Nat × Pending)) : State :=
  { s with
    listeners := listeners
    connectionListeners := connectionListeners
    sent := sent }

theorem withSends_self (s : State) :
    s = s.withSends s.listeners s.connectionListeners s.sent := rfl

theorem notify_withSends (s : State) (listener : Listener) :
    ∃ made waiting sent, s.notify listener = s.withSends made waiting sent := by
  unfold State.notify
  split
  · exact ⟨_, _, _, withSends_self s⟩
  · split
    · unfold State.attemptSend
      split
      · exact ⟨_, _, _, rfl⟩
      · exact ⟨_, _, _, rfl⟩
    · exact ⟨_, _, _, withSends_self s⟩

theorem notifyConnectionListeners_withSends (s : State) :
    ∃ made waiting sent, s.notifyConnectionListeners = s.withSends made waiting sent := by
  have all (listeners : List Listener) (s : State) :
      ∃ made waiting sent, listeners.foldl State.notify s = s.withSends made waiting sent := by
    induction listeners generalizing s with
    | nil => exact ⟨_, _, _, withSends_self s⟩
    | cons listener rest ih =>
      obtain ⟨made, waiting, sent, first⟩ := notify_withSends s listener
      obtain ⟨made', waiting', sent', later⟩ := ih (s.notify listener)
      rw [List.foldl_cons, later, first]
      exact ⟨made', waiting', sent', rfl⟩
  exact all s.connectionListeners s

end Listeners

section Updates

def State.down (s : State) : State := { s with isConnectedInternal := false }

def State.reconnects (s : State) : State := { s.down with timers := s.timers + 1 }

def State.up (s : State) : State := { s with isConnectedInternal := true }

theorem onOpen_withSends (s : State) :
    ∃ made waiting sent, s.onOpen = s.up.withSends made waiting sent :=
  notifyConnectionListeners_withSends s.up

theorem onClose_eq (s : State) : s.onClose = s.reconnects := by
  unfold State.onClose
  rw [notifyConnectionListeners_of_down (by rfl)]
  rfl

def State.closesSocket (s : State) (g : Nat) : State :=
  { s.down with
    webSocket := none
    sockets := s.sockets.modify g Socket.close
    userClosed := true }

theorem close_some {g : Nat} (here : s.webSocket = some g) : s.close = s.closesSocket g := by
  simp only [State.close, here]
  rw [notifyConnectionListeners_of_down (by rfl)]
  rfl

theorem close_none (none_ : s.webSocket = none) : s.close = { s with userClosed := true } := by
  simp only [State.close, none_]

def State.Connects (s : State) (queueMade : Bool) : Prop :=
  (s.queue = true ∨ queueMade = true) ∧
    (s.webSocket = none ∨ s.readyState = some .closing ∨ s.readyState = some .closed)

instance (s : State) (queueMade : Bool) : Decidable (s.Connects queueMade) :=
  inferInstanceAs (Decidable (_ ∧ _))

def State.constructs (s : State) : State :=
  { s with
    webSocket := some s.sockets.length
    sockets := s.sockets ++ [.new] }

theorem connectWebSocket_eq (s : State) (constructed : Bool) :
    s.connectWebSocket constructed = if constructed then s.constructs else s.reconnects := by
  unfold State.connectWebSocket
  rw [notifyConnectionListeners_of_down (by rfl)]
  rfl

def State.withQueue (s : State) : State := { s with queue := true }

def State.connectsIfNeeded (s : State) (constructed : Bool) : State :=
  let s := if s.webSocket.isNone then s.connectWebSocket constructed else s
  if s.readyState = some .closing ∨ s.readyState = some .closed then
    s.connectWebSocket constructed
  else s

theorem initContinues_eq {queueMade : Bool} (queue : s.queue = true ∨ queueMade = true)
    (constructed : Bool) :
    s.initContinues queueMade constructed = s.withQueue.connectsIfNeeded constructed := by
  have goes : (!s.queue && !queueMade) = false := by
    rcases queue with h | h <;> simp [h]
  rw [State.initContinues, goes]
  rfl

/-- One socket is made at most: a new one is CONNECTING, and where the constructor throws there
    is none to be asked for its readyState. -/
theorem connectsIfNeeded_of_none (none_ : s.webSocket = none) (constructed : Bool) :
    s.connectsIfNeeded constructed = s.connectWebSocket constructed := by
  have isNone : s.webSocket.isNone = true := by rw [none_, Option.isNone_none]
  have once : ¬ ((s.connectWebSocket constructed).readyState = some .closing ∨
      (s.connectWebSocket constructed).readyState = some .closed) := by
    rw [connectWebSocket_eq]
    cases constructed with
    | false => simp [State.readyState, State.reconnects, State.down, none_]
    | true => simp [State.readyState, State.constructs, Socket.new]
  simp only [State.connectsIfNeeded, isNone, if_true]
  rw [if_neg once]

theorem connectsIfNeeded_of_some (some_ : s.webSocket ≠ none) (constructed : Bool) :
    s.connectsIfNeeded constructed =
      if s.readyState = some .closing ∨ s.readyState = some .closed then
        s.connectWebSocket constructed
      else s := by
  have isNone : s.webSocket.isNone = false := by
    rw [Option.isNone_eq_false_iff, Option.isSome_iff_ne_none]
    exact some_
  simp only [State.connectsIfNeeded, isNone, Bool.false_eq_true, if_false]

theorem initContinues_of_connects {queueMade : Bool} (connects : s.Connects queueMade)
    (constructed : Bool) : s.initContinues queueMade constructed =
      if constructed then s.withQueue.constructs else s.withQueue.reconnects := by
  obtain ⟨queue, socket⟩ := connects
  rw [initContinues_eq queue, ← connectWebSocket_eq]
  by_cases none_ : s.withQueue.webSocket = none
  · exact connectsIfNeeded_of_none none_ constructed
  · have ending : s.withQueue.readyState = some .closing ∨
        s.withQueue.readyState = some .closed := socket.resolve_left none_
    rw [connectsIfNeeded_of_some none_, if_pos ending]

theorem initContinues_of_not {queueMade : Bool} (idle : ¬ s.Connects queueMade)
    (constructed : Bool) :
    s.initContinues queueMade constructed = { s with queue := s.queue || queueMade } := by
  by_cases queue : s.queue = true ∨ queueMade = true
  · have socket := not_or.mp fun h => idle ⟨queue, h⟩
    have lasting : ¬ (s.withQueue.readyState = some .closing ∨
        s.withQueue.readyState = some .closed) := socket.2
    have some_ : s.withQueue.webSocket ≠ none := socket.1
    rw [initContinues_eq queue, connectsIfNeeded_of_some some_, if_neg lasting,
      Bool.or_eq_true_iff.mpr queue]
    rfl
  · have stops : (!s.queue && !queueMade) = true := by simpa using queue
    have same : (s.queue || queueMade) = s.queue := by
      rw [(not_or.mp queue).2 |> Bool.eq_false_iff.mpr, Bool.or_false]
    rw [State.initContinues, stops, same]
    rfl

end Updates

section Sends

variable {payload : List UInt8} {headerSize : Nat}

def State.calling (s : State) (payload : List UInt8) (headerSize : Nat) : Pending :=
  ⟨s.calls.length, Gateway.payloadCopy payload headerSize⟩

def State.called (s : State) (pending : Pending) : State :=
  { s with calls := s.calls ++ [pending.frame] }

def State.sends (s : State) (g : Nat) (pending : Pending) : State :=
  { s with sent := s.sent ++ [(g, pending)] }

def State.waits (s : State) (pending : Pending) (bound : Bool) : State :=
  { s with
    listeners := s.listeners + 1
    connectionListeners := s.connectionListeners ++ [⟨s.listeners, pending, bound⟩] }

def State.rejects (s : State) (pending : Pending) : State :=
  { s with rejected := s.rejected ++ [pending.call] }

theorem onConnectionChange_eq (s : State) (pending : Pending) :
    s.onConnectionChange pending =
      (s.waits pending (!s.isConnectedInternal), !s.isConnectedInternal) := by
  simp [State.onConnectionChange, State.waits, State.throws]

theorem attemptSend_some {g : Nat} (here : s.openSocket = some g) (pending : Pending) :
    s.attemptSend pending = (s.sends g pending, true) := by
  simp [State.attemptSend, here, State.sends]

theorem attemptSend_none (none_ : s.openSocket = none) (pending : Pending) :
    s.attemptSend pending =
      (s.waits pending (!s.isConnectedInternal), !s.isConnectedInternal) := by
  simp only [State.attemptSend, none_, onConnectionChange_eq]

theorem sendStream_eq (s : State) (payload : List UInt8) (headerSize : Nat) :
    s.sendStream payload headerSize =
      let pending := s.calling payload headerSize
      let (s, returned) := (s.called pending).attemptSend pending
      if returned then s else s.rejects pending := by
  rw [State.sendStream, Gateway.sendStream_frame]
  rfl

theorem sendStream_some {g : Nat} (here : s.openSocket = some g) :
    s.sendStream payload headerSize =
      (s.called (s.calling payload headerSize)).sends g (s.calling payload headerSize) := by
  have same : (s.called (s.calling payload headerSize)).openSocket = some g := here
  simp only [sendStream_eq, attemptSend_some same, if_true]

theorem sendStream_none (none_ : s.openSocket = none) :
    s.sendStream payload headerSize =
      if s.isConnectedInternal then
        ((s.called (s.calling payload headerSize)).waits (s.calling payload headerSize)
          false).rejects (s.calling payload headerSize)
      else (s.called (s.calling payload headerSize)).waits (s.calling payload headerSize) true := by
  have same : (s.called (s.calling payload headerSize)).openSocket = none := none_
  have flag : (s.called (s.calling payload headerSize)).isConnectedInternal =
      s.isConnectedInternal := rfl
  simp only [sendStream_eq, attemptSend_none same, flag]
  cases s.isConnectedInternal <;> rfl

end Sends

section Steps

variable {l : Label}

def Label.browser : Label → Option (Nat × (Socket → Option Socket))
  | .opens g => some (g, Socket.opens)
  | .closing g => some (g, Socket.closing)
  | .closes g => some (g, Socket.closes)
  | .errorEvent g => some (g, some)
  | _ => none

def State.put (s : State) (g : Nat) (socket : Socket) : State :=
  { s with sockets := s.sockets.set g socket }

inductive Takes (s : State) : Label → State → Prop where
  | init : Takes s .init { s with inits := s.inits + 1, userClosed := false }
  | sends {payload : List UInt8} {headerSize g : Nat} (here : s.openSocket = some g) :
      Takes s (.sendStream payload headerSize)
        ((s.called (s.calling payload headerSize)).sends g (s.calling payload headerSize))
  | waits {payload : List UInt8} {headerSize : Nat} (none_ : s.openSocket = none)
      (down : s.isConnectedInternal = false) :
      Takes s (.sendStream payload headerSize)
        ((s.called (s.calling payload headerSize)).waits (s.calling payload headerSize) true)
  | rejects {payload : List UInt8} {headerSize : Nat} (none_ : s.openSocket = none)
      (up : s.isConnectedInternal = true) :
      Takes s (.sendStream payload headerSize)
        (((s.called (s.calling payload headerSize)).waits (s.calling payload headerSize)
          false).rejects (s.calling payload headerSize))
  | closesNothing (none_ : s.webSocket = none) : Takes s .close { s with userClosed := true }
  | closesSocket {g : Nat} (here : s.webSocket = some g) : Takes s .close (s.closesSocket g)
  | timer (due : 0 < s.timers) :
      Takes s .timer { s with timers := s.timers - 1, inits := s.inits + 1 }
  | keeps {queueMade constructed : Bool} (queue : Bool) (pending : 0 < s.inits)
      (idle : ¬ s.Connects queueMade) :
      Takes s (.initContinues queueMade constructed)
        { s with inits := s.inits - 1, queue := queue }
  | constructs {queueMade : Bool} (pending : 0 < s.inits) (connects : s.Connects queueMade) :
      Takes s (.initContinues queueMade true)
        { s with inits := s.inits - 1 }.withQueue.constructs
  | fails {queueMade : Bool} (pending : 0 < s.inits) (connects : s.Connects queueMade) :
      Takes s (.initContinues queueMade false)
        { s with inits := s.inits - 1 }.withQueue.reconnects
  | browser {l : Label} {g : Nat} {move : Socket → Option Socket} {socket socket' : Socket}
      (of : l.browser = some (g, move)) (here : s.sockets[g]? = some socket)
      (moves : move socket = some socket') : Takes s l (s.put g socket')
  | openEvent {g : Nat} {socket socket' : Socket} (here : s.sockets[g]? = some socket)
      (moves : socket.takesOpen = some socket') :
      Takes s (.openEvent g) (s.put g socket').onOpen
  | closeEvent {g : Nat} {socket socket' : Socket} (here : s.sockets[g]? = some socket)
      (moves : socket.takesClose = some socket') :
      Takes s (.closeEvent g) (s.put g socket').reconnects

theorem moves_cases {g : Nat} {move : Socket → Option Socket} (moves : s.moves g move = some t) :
    ∃ socket socket', s.sockets[g]? = some socket ∧ move socket = some socket' ∧
      t = s.put g socket' := by
  simp only [State.moves, Option.bind_eq_bind, Option.bind_eq_some_iff, Option.some.injEq] at moves
  obtain ⟨socket, here, socket', moved, rfl⟩ := moves
  exact ⟨socket, socket', here, moved, rfl⟩

theorem step_browser {g : Nat} {move : Socket → Option Socket} (of : l.browser = some (g, move))
    (moves : s.moves g move = some t) : Takes s l t := by
  obtain ⟨socket, socket', here, moved, rfl⟩ := moves_cases moves
  exact .browser of here moved

theorem step_cases (move : step s l = some t) : Takes s l t := by
  cases l with
  | init =>
    cases move
    exact .init
  | sendStream payload headerSize =>
    cases move
    cases here : s.openSocket with
    | some g =>
      rw [sendStream_some here]
      exact .sends here
    | none =>
      rw [sendStream_none here]
      split
      · rename_i up
        exact .rejects here up
      · rename_i down
        exact .waits here (Bool.eq_false_iff.mpr down)
  | close =>
    cases move
    cases here : s.webSocket with
    | some g =>
      rw [close_some here]
      exact .closesSocket here
    | none =>
      rw [close_none here]
      exact .closesNothing here
  | timer =>
    simp only [step, Option.ite_none_right_eq_some, Option.some.injEq] at move
    obtain ⟨due, rfl⟩ := move
    exact .timer due
  | initContinues queueMade constructed =>
    simp only [step, Option.ite_none_right_eq_some, Option.some.injEq] at move
    obtain ⟨pending, rfl⟩ := move
    by_cases connects : s.Connects queueMade
    · have connects' : { s with inits := s.inits - 1 }.Connects queueMade := connects
      rw [initContinues_of_connects connects']
      cases constructed with
      | true => exact .constructs pending connects
      | false => exact .fails pending connects
    · have idle : ¬ { s with inits := s.inits - 1 }.Connects queueMade := connects
      rw [initContinues_of_not idle]
      exact .keeps _ pending connects
  | opens g => exact step_browser rfl move
  | closing g => exact step_browser rfl move
  | closes g => exact step_browser rfl move
  | errorEvent g => exact step_browser rfl move
  | openEvent g =>
    obtain ⟨u, moves, rfl⟩ := Option.map_eq_some_iff.mp move
    obtain ⟨socket, socket', here, moved, rfl⟩ := moves_cases moves
    exact .openEvent here moved
  | closeEvent g =>
    obtain ⟨u, moves, rfl⟩ := Option.map_eq_some_iff.mp move
    obtain ⟨socket, socket', here, moved, rfl⟩ := moves_cases moves
    rw [onClose_eq]
    exact .closeEvent here moved

theorem readyStates_put {g : Nat} {socket socket' : Socket} (here : s.sockets[g]? = some socket)
    (moves : socket.takesOpen = some socket') :
    (s.put g socket').sockets.map (·.readyState) = s.sockets.map (·.readyState) := by
  have same : socket'.readyState = socket.readyState := by
    simp only [Socket.takesOpen, Option.dite_none_right_eq_some, Option.some.injEq] at moves
    obtain ⟨_, rfl⟩ := moves
    rfl
  obtain ⟨range, there⟩ := List.getElem?_eq_some_iff.mp here
  apply List.ext_getElem?
  intro h
  by_cases this : g = h
  · subst this
    simp [State.put, range, there, same]
  · simp [State.put, List.getElem?_set_ne this]

theorem readyState_eq (s : State) :
    s.readyState = s.webSocket.bind fun g => (s.sockets.map (·.readyState))[g]? := by
  simp only [State.readyState, List.getElem?_map]

theorem openSocket_put {g : Nat} {socket socket' : Socket} (here : s.sockets[g]? = some socket)
    (moves : socket.takesOpen = some socket') : (s.put g socket').openSocket = s.openSocket := by
  have same : (s.put g socket').readyState = s.readyState := by
    rw [readyState_eq, readyState_eq, readyStates_put here moves]
    rfl
  rw [State.openSocket, State.openSocket, same]
  rfl

end Steps

end Client
