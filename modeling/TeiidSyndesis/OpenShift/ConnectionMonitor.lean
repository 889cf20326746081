/-
# TeiidSyndesis.OpenShift.ConnectionMonitor — the event stream of the Syndesis server.

`connect` is scheduled on the one thread of `connectionExecutor` and opens a web socket unless the
monitor is connected.  The flag that says so is set when a task of the same executor handles the message
"connected", and cleared by the callbacks of whatever socket closes or fails, on threads of their own.
A callback is one step; `connect` takes several, with the callbacks of any socket in between.

The flag does not tell whether a socket is there: `connect` opens a second one while the message of the
first is still to come, or after another socket has cleared the flag, and it closes none.

Main results:
* `steps_of_next` — the inversion of a step;
* `oneStream_newWebSocket`, `oneStream_disconnected`, `oneStream_connected` — what it does to the sockets;
* `oneStream_step`, `oneStream_iff` — so there is one event stream, exactly if no socket is opened, cleared
  or reported beside another;
* `slow_connection_doubles` — and a second one.
-/
import TeiidSyndesis.Library.Lists
import TeiidSyndesis.Library.Transition

namespace TeiidSyndesis.OpenShift

open TeiidSyndesis.Library

/-! ## The monitor and its sockets -/

/-- What becomes of a socket. -/
inductive SocketState
  | opened
  | closing
  | closed
  deriving DecidableEq, Repr

/-- What `handleMessage` makes of a text: the message "connected", a change event, or one it drops. -/
inductive StreamMessage
  | connected
  | changeEvent
  | other
  deriving DecidableEq, Repr

/-- Program points of `connect`. -/
inductive ConnectPc
  | check
  | reserve
  | newWebSocket
  | assign (webSocket : Nat)
  deriving DecidableEq, Repr

/-- `SyndesisConnectionMonitor`.  A socket is known by its position among all that were opened;
`executor` is the point of the `connect` the executor is in, `messages` are its tasks that handle one. -/
structure SyndesisConnectionMonitor where
  sockets : List SocketState := []
  webSocket : Option Nat := none
  connected : Bool := false
  executor : Option ConnectPc := none
  messages : List StreamMessage := []
  deriving DecidableEq, Repr

namespace SyndesisConnectionMonitor

/-- `isConnected`: what the flag says. -/
def isConnected (s : SyndesisConnectionMonitor) : Bool := s.webSocket.isSome && s.connected

/-- The socket of a callback. -/
def socket (s : SyndesisConnectionMonitor) (i : Nat) : Option SocketState := s.sockets[i]?

/-- The step of `connect` from a point; `reserved` tells whether the server has made a reservation. -/
def connect (s : SyndesisConnectionMonitor) (pc : ConnectPc) (reserved : Bool) :
    SyndesisConnectionMonitor :=
  match pc with
  | .check => { s with executor := if s.isConnected then none else some .reserve }
  | .reserve => { s with executor := if reserved then some .newWebSocket else none }
  | .newWebSocket =>
      -- the callbacks of the new socket may come before it is assigned
      { s with
        sockets := s.sockets ++ [.opened]
        executor := some (.assign s.sockets.length) }
  | .assign webSocket => { s with webSocket := some webSocket, executor := none }

/-- The task of `handleMessage`; synchronizing connections changes none of the fields. -/
def handleMessage (s : SyndesisConnectionMonitor) (message : StreamMessage) :
    SyndesisConnectionMonitor :=
  match message with
  | .connected => { s with connected := true }
  | .changeEvent | .other => s

/-- `onClosing`, `onClosed` and `onFailure` differ in the state the socket is left in. -/
def disconnected (s : SyndesisConnectionMonitor) (i : Nat) (state : SocketState) :
    SyndesisConnectionMonitor :=
  { s with sockets := s.sockets.set i state, connected := false }

/-- The callbacks of a socket: it is closing, it is closed, or it has failed. -/
def onClosing (s : SyndesisConnectionMonitor) (i : Nat) : SyndesisConnectionMonitor :=
  s.disconnected i .closing

def onClosed (s : SyndesisConnectionMonitor) (i : Nat) : SyndesisConnectionMonitor :=
  s.disconnected i .closed

def onFailure (s : SyndesisConnectionMonitor) (i : Nat) : SyndesisConnectionMonitor :=
  s.disconnected i .closed

/-! ## The system -/

inductive Label
  /-- the executor starts a scheduled `connect` -/
  | schedule
  /-- the executor takes the next step of the `connect` it is in -/
  | connect (reserved : Bool)
  /-- the executor handles the first message of its queue -/
  | handleMessage
  | onMessage (socket : Nat) (message : StreamMessage)
  | onClosing (socket : Nat)
  | onClosed (socket : Nat)
  | onFailure (socket : Nat)
  deriving DecidableEq, Repr

/-- A socket calls back in the order its states allow: messages while it is open, `onClosing` once,
`onClosed` after it, `onFailure` while it is not closed. -/
def next (s : SyndesisConnectionMonitor) (label : Label) : Option SyndesisConnectionMonitor :=
  match label with
  | .schedule =>
      match s.executor with
      | none => some { s with executor := some .check }
      | some _ => none
  | .connect reserved =>
      match s.executor with
      | none => none
      | some pc => some (s.connect pc reserved)
  | .handleMessage =>
      match s.executor, s.messages with
      | none, message :: messages => some ({ s with messages := messages }.handleMessage message)
      | _, _ => none
  | .onMessage i message =>
      if s.socket i = some .opened then some { s with messages := s.messages ++ [message] } else none
  | .onClosing i => if s.socket i = some .opened then some (s.onClosing i) else none
  | .onClosed i => if s.socket i = some .closing then some (s.onClosed i) else none
  | .onFailure i =>
      if s.socket i = some .opened ∨ s.socket i = some .closing then some (s.onFailure i) else none

def initial : SyndesisConnectionMonitor := {}

/-- Runs of the monitor. -/
def system : System SyndesisConnectionMonitor Label := .ofNext (· = initial) next

/-! ## One event stream -/

/-- At most one socket is open, and the monitor is connected only while its socket is. -/
structure OneStream (s : SyndesisConnectionMonitor) : Prop where
  single : ∀ i j, s.socket i = some .opened → s.socket j = some .opened → i = j
  current : s.connected = true → ∃ i, s.webSocket = some i ∧ s.socket i = some .opened

/-- A socket is opened only while none is open, and the message "connected" is handled only while the
socket of the monitor is. -/
def streamsAlone (s : SyndesisConnectionMonitor) (label : Label) : Bool :=
  match label with
  | .connect _ => s.executor != some .newWebSocket || s.sockets.all (· != .opened)
  | .handleMessage =>
      s.messages.head? != some .connected ||
        (s.webSocket.bind s.socket) == some .opened
  | _ => true

/-- Past its check, `connect` runs in a monitor that is not connected: the message that connects it is
handled by the same thread. -/
def Connecting (s : SyndesisConnectionMonitor) : Prop :=
  ∀ pc, s.executor = some pc → pc ≠ .check → s.connected = false

/-- There is no stream at the start. -/
theorem oneStream_initial : OneStream initial where
  single := by
    intro i j hi
    simp [initial, socket] at hi
  current := by
    intro hconnected
    cases hconnected

/-! ## What the steps do to the sockets -/

/-- A new socket is open. -/
theorem socket_open_append {s : SyndesisConnectionMonitor} {i : Nat} {executor : Option ConnectPc} :
    socket { s with sockets := s.sockets ++ [.opened], executor := executor } i = some .opened ↔
      s.socket i = some .opened ∨ i = s.sockets.length := by
  unfold socket
  rw [List.getElem?_append]
  by_cases hlt : i < s.sockets.length
  · rw [if_pos hlt]
    exact ⟨.inl, fun h => h.resolve_right (by omega)⟩
  · rw [if_neg hlt, List.getElem?_eq_none (Nat.le_of_not_lt hlt)]
    by_cases heq : i = s.sockets.length
    · simp [heq]
    · have hrange : i - s.sockets.length ≠ 0 := by omega
      simp [heq, hrange]

/-- A callback that disconnects opens no socket. -/
theorem open_of_disconnected {s : SyndesisConnectionMonitor} {i j : Nat} {state : SocketState}
    (hstate : state ≠ .opened) (h : (s.disconnected i state).socket j = some .opened) :
    s.socket j = some .opened := by
  unfold disconnected socket at h
  rcases getElem?_set_cases h with ⟨-, heq⟩ | ⟨-, hold⟩
  · exact absurd heq.symm hstate
  · exact hold

/-- A callback of the only socket leaves none. -/
theorem oneStream_disconnected {s : SyndesisConnectionMonitor} (hs : OneStream s) {i : Nat}
    {state : SocketState} (hstate : state ≠ .opened) : OneStream (s.disconnected i state) where
  single := by
    intro j k hj hk
    exact hs.single j k (open_of_disconnected hstate hj) (open_of_disconnected hstate hk)
  current := by
    intro hconnected
    cases hconnected

/-- The stream depends on the sockets and the two fields only. -/
theorem OneStream.congr {s t : SyndesisConnectionMonitor} (hs : OneStream s)
    (hsockets : t.sockets = s.sockets) (hsocket : t.webSocket = s.webSocket)
    (hconnected : t.connected = s.connected) : OneStream t := by
  have heq : ∀ i, t.socket i = s.socket i := by
    intro i
    unfold socket
    rw [hsockets]
  constructor
  · intro i j hi hj
    rw [heq] at hi hj
    exact hs.single i j hi hj
  · intro h
    obtain ⟨i, hi, hopen⟩ := hs.current (hconnected ▸ h)
    exact ⟨i, hsocket.trans hi, (heq i).trans hopen⟩

/-! ## Steps and runs -/

/-- A new socket is the only one that is open exactly if none was. -/
theorem oneStream_newWebSocket {s : SyndesisConnectionMonitor} (hconnected : s.connected = false)
    (reserved : Bool) :
    OneStream (s.connect .newWebSocket reserved) ↔ s.sockets.all (· != .opened) = true := by
  have hnew : ∀ i, (s.connect .newWebSocket reserved).socket i = some .opened ↔
      s.socket i = some .opened ∨ i = s.sockets.length := fun i => socket_open_append
  simp only [List.all_eq_true, bne_iff_ne]
  constructor
  · intro ht state hmem hopened
    obtain ⟨i, hi, rfl⟩ := List.mem_iff_getElem.mp hmem
    have hold : s.socket i = some .opened := by
      unfold socket
      rw [List.getElem?_eq_getElem hi, hopened]
    have hsame := ht.single i s.sockets.length ((hnew i).mpr (.inl hold)) ((hnew _).mpr (.inr rfl))
    omega
  · intro hnone
    have hold : ∀ i, s.socket i ≠ some .opened := by
      intro i hi
      exact hnone _ (List.mem_of_getElem? hi) rfl
    constructor
    · intro i j hi hj
      have hi' := ((hnew i).mp hi).resolve_left (hold i)
      have hj' := ((hnew j).mp hj).resolve_left (hold j)
      omega
    · intro h
      rw [show (s.connect .newWebSocket reserved).connected = s.connected from rfl, hconnected] at h
      cases h

/-- Handling "connected" keeps one stream exactly if the socket of the monitor is open. -/
theorem oneStream_connected {s : SyndesisConnectionMonitor} (hs : OneStream s)
    (messages : List StreamMessage) :
    OneStream ({ s with messages := messages }.handleMessage .connected) ↔
      (s.webSocket.bind s.socket) = some .opened := by
  constructor
  · intro ht
    obtain ⟨i, hi, hopen⟩ := ht.current rfl
    have hfield : s.webSocket = some i := hi
    rw [hfield]
    exact hopen
  · intro hopen
    obtain ⟨i, hi, hi'⟩ := Option.bind_eq_some_iff.mp hopen
    exact ⟨hs.single, fun _ => ⟨i, hi, hi'⟩⟩

/-- What a step does, with what it needs of the state. -/
inductive Steps (s : SyndesisConnectionMonitor) : Label → SyndesisConnectionMonitor → Prop
  | schedule (hidle : s.executor = none) : Steps s .schedule { s with executor := some .check }
  | connect {pc : ConnectPc} {reserved : Bool} (hpc : s.executor = some pc) :
      Steps s (.connect reserved) (s.connect pc reserved)
  | handleMessage {message : StreamMessage} {messages : List StreamMessage}
      (hidle : s.executor = none) (hmessages : s.messages = message :: messages) :
      Steps s .handleMessage ({ s with messages := messages }.handleMessage message)
  | onMessage {i : Nat} {message : StreamMessage} :
      Steps s (.onMessage i message) { s with messages := s.messages ++ [message] }
  | disconnected {label : Label} {i : Nat} {state : SocketState} (hstate : state ≠ .opened)
      (halone : streamsAlone s label = true) : Steps s label (s.disconnected i state)

/-- Every step is one of these. -/
theorem steps_of_next {s t : SyndesisConnectionMonitor} {label : Label} (h : next s label = some t) :
    Steps s label t := by
  -- each label asks for a state that enables it; elsewhere there is no step
  cases label with
  | schedule =>
      simp only [next] at h
      split at h
      · rename_i hidle
        cases h
        exact .schedule hidle
      · cases h
  | connect reserved =>
      simp only [next] at h
      split at h
      · cases h
      · rename_i pc hpc
        cases h
        exact .connect hpc
  | handleMessage =>
      simp only [next] at h
      split at h
      · rename_i message messages hidle hmessages
        cases h
        exact .handleMessage hidle hmessages
      · cases h
  | onMessage i message =>
      simp only [next] at h
      split at h
      · cases h
        exact .onMessage
      · cases h
  | onClosing i | onClosed i | onFailure i =>
      simp only [next] at h
      split at h
      · cases h
        exact .disconnected (by simp) rfl
      · cases h

/-- The condition on a step is exact. -/
theorem oneStream_step {s t : SyndesisConnectionMonitor} {label : Label} (hs : OneStream s)
    (hconnecting : Connecting s) (hnext : next s label = some t) :
    OneStream t ↔ streamsAlone s label = true := by
  cases steps_of_next hnext with
  | schedule => exact iff_of_true (hs.congr rfl rfl rfl) rfl
  | @connect pc reserved hpc =>
      cases pc with
      | newWebSocket =>
          have hconnected := hconnecting _ hpc (by simp)
          rw [oneStream_newWebSocket hconnected]
          simp [streamsAlone, hpc]
      | check | reserve =>
          exact iff_of_true (hs.congr rfl rfl rfl) (by simp [streamsAlone, hpc])
      | assign i =>
          have hconnected := hconnecting _ hpc (by simp)
          refine iff_of_true ⟨hs.single, fun h => ?_⟩ (by simp [streamsAlone, hpc])
          rw [show (s.connect (.assign i) reserved).connected = s.connected from rfl,
            hconnected] at h
          cases h
  | @handleMessage message messages _ hmessages =>
      cases message with
      | connected =>
          rw [oneStream_connected hs]
          simp [streamsAlone, hmessages]
      | changeEvent | other =>
          exact iff_of_true (hs.congr rfl rfl rfl) (by simp [streamsAlone, hmessages])
  | onMessage => exact iff_of_true (hs.congr rfl rfl rfl) rfl
  | disconnected hstate halone => exact iff_of_true (oneStream_disconnected hs hstate) halone

/-- `connect` goes past its check only in a monitor that is not connected, and is not interrupted by the
task that connects it. -/
theorem connecting_step {s t : SyndesisConnectionMonitor} {label : Label} (hs : OneStream s)
    (hconnecting : Connecting s) (hnext : next s label = some t) : Connecting t := by
  intro pc hpc hcheck
  cases steps_of_next hnext with
  | schedule =>
      cases hpc
      exact absurd rfl hcheck
  | @connect p reserved hp =>
      cases p with
      | check =>
          cases hconnected : s.connected with
          | false => exact hconnected
          | true =>
              -- connected, the monitor has a socket, and `connect` returns
              obtain ⟨i, hi, _⟩ := hs.current hconnected
              simp [connect, isConnected, hi, hconnected] at hpc
      | reserve => exact hconnecting _ hp (by simp)
      | newWebSocket => exact hconnecting _ hp (by simp)
      | assign i => cases hpc
  | @handleMessage message messages hidle _ =>
      -- the thread that handles the message is not in a `connect`
      cases message with
      | connected => exact absurd (hidle.symm.trans hpc) (by simp)
      | changeEvent | other => exact absurd (hidle.symm.trans hpc) (by simp)
  | onMessage => exact hconnecting pc hpc hcheck
  | disconnected => rfl

/-- There is one event stream at every moment of a run exactly if every socket is opened alone and every
"connected" is handled while the socket of the monitor is open. -/
theorem oneStream_iff {s : SyndesisConnectionMonitor}
    {tr : List (SyndesisConnectionMonitor × Label)} (hrun : system.Run initial tr s) :
    (OneStream s ∧ ∀ x ∈ tr, OneStream x.1) ↔
      System.Guarded (fun s label => streamsAlone s label = true) tr := by
  have hinit : OneStream initial ∧ Connecting initial := by
    refine ⟨oneStream_initial, fun pc hpc => ?_⟩
    cases hpc
  have hkeep : ∀ s label t, OneStream s ∧ Connecting s → streamsAlone s label = true →
      system.step s label t → OneStream t ∧ Connecting t := by
    intro s label t hs hguard hnext
    exact ⟨(oneStream_step hs.1 hs.2 hnext).mpr hguard, connecting_step hs.1 hs.2 hnext⟩
  have hbreak : ∀ s label t, OneStream s ∧ Connecting s → ¬ streamsAlone s label = true →
      system.step s label t → ¬ OneStream t := by
    intro s label t hs hguard hnext ht
    exact hguard ((oneStream_step hs.1 hs.2 hnext).mp ht)
  exact hrun.visited_iff_of_invariant (fun _ hs => hs.1) hkeep hbreak hinit

/-- One connection, up to its first change event. -/
def connectedOnce : List Label :=
  [ .schedule, .connect true, .connect true, .connect true, .connect true,
    .onMessage 0 .connected, .handleMessage, .onMessage 0 .changeEvent, .handleMessage ]

theorem oneStream_iff_connectedOnce :
    OneStream (System.after next initial connectedOnce) ∧
      ∀ x ∈ System.stepsOf next initial connectedOnce, OneStream x.1 :=
  (oneStream_iff (System.run_after _ next initial _)).mpr (by decide)

/-- The second `connect` comes before the server has sent "connected" to the first socket. -/
theorem slow_connection_doubles :
    ¬ ∀ (tr : List (SyndesisConnectionMonitor × Label)) (s : SyndesisConnectionMonitor),
      system.Run initial tr s → OneStream s := by
  intro h
  have hstream := h _ _ (System.run_after (· = initial) next initial
    [ .schedule, .connect true, .connect true, .connect true, .connect true,
      .schedule, .connect true, .connect true, .connect true, .connect true ])
  exact absurd (hstream.single 0 1 (by decide) (by decide)) (by decide)

end SyndesisConnectionMonitor

end TeiidSyndesis.OpenShift
