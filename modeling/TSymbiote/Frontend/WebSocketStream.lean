import TSymbiote.Frontend.Objects
import TSymbiote.Lib.Json
import TSymbiote.Lib.Transition

/-! # The streaming hook of the web UI

`useWebSocketStream` keeps one current stream in refs and component state. Each
socket's handlers close over their own stream type and hosts but write to the
shared refs and state, whenever the browser fires them. `close()` is
asynchronous: the close event follows later, and `cancelStreaming` leaves a
socket alone that is still connecting.
-/

namespace TSymbiote.Frontend.WebSocketStream

open Transition

inductive StreamType where
  | logs
  | busEvents
  deriving DecidableEq, Repr

/-! ## Message formats -/

/-- What the handlers take from the language: `JSON.parse`, the conversions of
parsed values, and local time. -/
structure Runtime where
  parse : String → Option Json
  isZero : String → Bool
  toString : Json → String
  localTime : Json → String

section Format

variable (runtime : Runtime)

def Runtime.truthy : Json → Bool
  | .null => false
  | .bool b => b
  | .number digits => !runtime.isZero digits
  | .string s => s ≠ ""
  | .array _ => true
  | .object _ => true

/-- `${v}` -/
def Runtime.text : Json → String
  | .string s => s
  | v => runtime.toString v

/-- `v.key`: undefined without such a member, an error on null. -/
def member (v : Json) (key : String) : Except Unit (Option Json) :=
  match v with
  | .null => .error ()
  | .object members => .ok ((Json.lastWins members).lookup key)
  | _ => .ok none

/-- `v || fallback` -/
def Runtime.orElse (v : Option Json) (fallback : String) : Json :=
  match v with
  | some v => if runtime.truthy v then v else .string fallback
  | none => .string fallback

def Runtime.join (elems : List Json) : String :=
  ", ".intercalate (elems.map fun
    | .null => ""
    | v => runtime.text v)

def logText (logEntry : Json) : Except Unit String := do
  let text := runtime.orElse (← member logEntry "text") ""
  match ← member logEntry "logtail" with
  | some logtail =>
      if runtime.truthy logtail then
        match ← member logtail "client_time" with
        | some clientTime =>
            if runtime.truthy clientTime then
              return s!"[{runtime.localTime clientTime}] {runtime.text text}"
            else return runtime.text text
        | none => return runtime.text text
      else return runtime.text text
  | none => return runtime.text text

def formatLogMessage (decodedMessage : String) : Option String :=
  match runtime.parse decodedMessage with
  | some logEntry => (logText runtime logEntry).toOption
  | none => none

def busEventLine (event : Json) : Except Unit String := do
  let count := match ← member event "Count" with
    | some count => s!"[{runtime.text count}] "
    | none => ""
  let type := runtime.orElse (← member event "Type") "unknown"
  let source := runtime.orElse (← member event "From") ""
  let target := match ← member event "To" with
    | some (.array elems) => .string (runtime.join elems)
    | v => runtime.orElse v ""
  let line := count ++ runtime.text type
  if runtime.truthy source || runtime.truthy target then
    let line := line ++ s!": {runtime.text source}"
    if runtime.truthy target then return line ++ s!" -> [{runtime.text target}]" else return line
  else return line

/-- A message that does not parse is shown as it is. -/
def formatBusEventMessage (decodedMessage : String) : Option String :=
  match (runtime.parse decodedMessage).map (busEventLine runtime) with
  | some (.ok line) => some (line ++ "\n")
  | _ => some (decodedMessage ++ "\n")

def getMessageFormatter : StreamType → String → Option String
  | .logs => formatLogMessage runtime
  | .busEvents => formatBusEventMessage runtime

end Format

def getDisconnectMessage : StreamType → String
  | .logs => "\n[logtap disconnected]"
  | .busEvents => "\n[bus events disconnected]"

def getConnectingMessage : StreamType → String
  | .logs => "Connecting to log stream...\n"
  | .busEvents => "Connecting to bus events stream...\n"

/-! ## The hook -/

inductive ReadyState where
  | connecting
  | opened
  | closing
  | closed
  deriving DecidableEq, Repr

/-- A socket, with what its handlers close over. -/
structure Socket where
  streamType : StreamType
  hostIds : List String
  readyState : ReadyState
  deriving DecidableEq, Repr

abbrev Record := String → Option String

/-- The hosts that have an entry once it is assigned. -/
def owning (hostIds : List String) : List String := hostIds.filter (· ≠ "__proto__")

/-- Every host with the same text. -/
def Record.of (hostIds : List String) (text : String) : Record :=
  fun hostId => if hostId ∈ owning hostIds then some text else none

/-- `prev[hostId] || ''`, as a text. -/
def Record.read (data : Record) (hostId : String) : String :=
  match data hostId with
  | some text => text
  | none => if hostId ∈ inherited then inheritedText hostId else ""

/-- `{ ...prev, [hostId]: (prev[hostId] || '') + text }`, which always has an entry. -/
def Record.append (data : Record) (hostId text : String) : Record :=
  Function.update data hostId (some (data.read hostId ++ text))

def Record.appendAll (data : Record) (hostIds : List String) (text : String) : Record :=
  hostIds.foldl (fun data hostId => data.append hostId text) data

/-- Sockets are known by the order of their creation. `latest` is not in the
hook: the socket that the latest `startStream` created, if it created one. -/
structure State where
  sockets : List Socket
  wsRef : Option Nat
  hostIdsRef : List String
  lastPongTime : Nat
  pingIntervalRef : Bool
  streamTypeRef : Option StreamType
  streamData : Record
  isStreaming : Bool
  activeStreamType : Option StreamType
  latest : Option Nat

def idle : State where
  sockets := []
  wsRef := none
  hostIdsRef := []
  lastPongTime := 0
  pingIntervalRef := false
  streamTypeRef := none
  streamData := fun _ => none
  isStreaming := false
  activeStreamType := none
  latest := none

/-- `event.data`: the keepalive's answer, a text that does not parse or decode,
or a host message with its decoded text. -/
inductive EventData where
  | pong
  | malformed
  | hostMessage (hostId decodedMessage : String)
  deriving DecidableEq, Repr

inductive SocketEvent where
  | onopen
  | onmessage (data : EventData) (now : Nat)
  | onclose
  deriving DecidableEq, Repr

/-- `constructs` is false where `new WebSocket` throws. -/
inductive Action where
  | startStream (streamType : StreamType) (hostIds : List String) (constructs : Bool)
  | cancelStreaming (appendDisconnectMessage : Bool)
  | tick (now : Nat)
  | socket (i : Nat) (event : SocketEvent)
  deriving DecidableEq, Repr

def State.setReadyState (s : State) (i : Nat) (sock : Socket) (readyState : ReadyState) : State :=
  { s with sockets := s.sockets.set i { sock with readyState } }

/-- `ws.close()` -/
def State.close (s : State) (i : Nat) : State :=
  match s.sockets[i]? with
  | some sock =>
      if sock.readyState = .connecting ∨ sock.readyState = .opened then
        s.setReadyState i sock .closing
      else s
  | none => s

/-- `wsRef.current`, if its `readyState` is OPEN. -/
def State.openRef (s : State) : Option Nat :=
  s.wsRef.filter fun i => s.sockets[i]?.any (·.readyState = .opened)

/-- What `cancelStreaming`, the keepalive and `onclose` all do at their end. -/
def State.clearRefs (s : State) : State :=
  { s with
    wsRef := none, hostIdsRef := [], lastPongTime := 0, streamTypeRef := none,
    isStreaming := false, activeStreamType := none }

def cancelStreaming (appendDisconnectMessage : Bool) (s : State) : State :=
  let s := { s with pingIntervalRef := false }
  match s.openRef with
  | some i =>
      match appendDisconnectMessage, s.streamTypeRef with
      | true, some streamType =>
          { s with
            streamData := s.streamData.appendAll s.hostIdsRef (getDisconnectMessage streamType)
            }.close i |>.clearRefs
      | _, _ => (s.close i).clearRefs
  | none => s.clearRefs

def startStream (streamType : StreamType) (hostIds : List String) (constructs : Bool) (s : State) :
    State :=
  let s := cancelStreaming false s
  if hostIds = [] then { s with latest := none }
  else
    let s := { s with
      hostIdsRef := hostIds, streamTypeRef := some streamType
      streamData := .of hostIds (getConnectingMessage streamType), isStreaming := true
      activeStreamType := some streamType, pingIntervalRef := true }
    if constructs then
      { s with
        sockets := s.sockets ++ [⟨streamType, hostIds, .connecting⟩]
        wsRef := some s.sockets.length, latest := some s.sockets.length }
    else { s with latest := none }

def pongTimeout : Nat := 10000

/-- The callback of the interval. -/
def keepalive (now : Nat) (s : State) : State :=
  match s.wsRef with
  | none => s
  | some i =>
      if 0 < s.lastPongTime ∧ pongTimeout < now - s.lastPongTime then
        { s with
          streamData := s.streamData.appendAll s.hostIdsRef "\n[connection timeout]"
          }.clearRefs.close i
      else if s.openRef.isSome ∧ s.lastPongTime = 0 then { s with lastPongTime := now }
      else s

def onmessage (runtime : Runtime) (sock : Socket) (s : State) (now : Nat) : EventData → State
  | .pong => { s with lastPongTime := now }
  | .malformed => s
  | .hostMessage hostId decodedMessage =>
      if decodedMessage = "websocket closed" then
        { s with
          streamData := s.streamData.append hostId (getDisconnectMessage sock.streamType) }
      else
        match getMessageFormatter runtime sock.streamType decodedMessage with
        | some formattedMessage =>
            { s with streamData := s.streamData.append hostId formattedMessage }
        | none => s

/-- The handlers of one socket, as the browser calls them: nothing is delivered
after `close()` but the close event. -/
def socketEvent (runtime : Runtime) (i : Nat) (sock : Socket) (s : State) :
    SocketEvent → Option State
  | .onopen =>
      if sock.readyState = .connecting then
        some { s.setReadyState i sock .opened with streamData := .of sock.hostIds "" }
      else none
  | .onmessage data now =>
      if sock.readyState = .opened then some (onmessage runtime sock s now data) else none
  | .onclose =>
      if sock.readyState = .closed then none
      -- Any current socket counts here, not only the one that closed.
      else if s.wsRef.isSome then some (s.setReadyState i sock .closed).clearRefs
      else some (s.setReadyState i sock .closed)

def step (runtime : Runtime) (s : State) : Action → Option State
  | .startStream streamType hostIds constructs => some (startStream streamType hostIds constructs s)
  | .cancelStreaming appendDisconnectMessage => some (cancelStreaming appendDisconnectMessage s)
  | .tick now => if s.pingIntervalRef then some (keepalive now s) else none
  | .socket i event => s.sockets[i]?.bind fun sock => socketEvent runtime i sock s event

/-- What the component shows and works with is the same. -/
structure SameStream (s t : State) : Prop where
  wsRef : t.wsRef = s.wsRef
  hostIdsRef : t.hostIdsRef = s.hostIdsRef
  streamTypeRef : t.streamTypeRef = s.streamTypeRef
  isStreaming : t.isStreaming = s.isStreaming
  streamData : t.streamData = s.streamData

/-- Some event of a superseded socket would change the stream. -/
def Exposed (runtime : Runtime) (s : State) : Prop :=
  ∃ i event t, s.latest ≠ some i ∧ step runtime s (.socket i event) = some t ∧ ¬ SameStream s t

/-! ## Effects on the sockets -/

variable {runtime : Runtime} {s t : State}

/-- A socket on its way out: no event but its close event can follow. -/
def Socket.Ending (sock : Socket) : Prop :=
  sock.readyState = .closing ∨ sock.readyState = .closed

theorem close_frame (s : State) (i : Nat) :
    (s.close i).wsRef = s.wsRef ∧ (s.close i).latest = s.latest := by
  unfold State.close
  split
  · split <;> exact ⟨rfl, rfl⟩
  · exact ⟨rfl, rfl⟩

theorem close_length (s : State) (i : Nat) : (s.close i).sockets.length = s.sockets.length := by
  unfold State.close
  split
  · split
    · exact List.length_set
    · rfl
  · rfl

/-- `close()` leaves a socket as it was or has it closing. -/
theorem close_getElem? {i j : Nat} {sock : Socket} (h : (s.close i).sockets[j]? = some sock) :
    (s.sockets[j]? = some sock ∧ (j = i → sock.Ending)) ∨
      (j = i ∧ sock.readyState = .closing ∧ ∃ old, s.sockets[j]? = some old ∧ ¬ old.Ending) := by
  unfold State.close at h
  cases hi : s.sockets[i]? with
  | none =>
      rw [hi] at h
      left
      constructor
      · exact h
      · intro hji
        subst hji
        exact absurd (hi.symm.trans h) (by simp)
  | some old =>
      rw [hi] at h
      dsimp only at h
      split at h
      · rename_i hready
        by_cases hji : j = i
        · right
          subst hji
          have hlt : j < s.sockets.length := (List.getElem?_eq_some_iff.mp hi).choose
          rw [State.setReadyState, List.getElem?_set_self hlt] at h
          cases h
          refine ⟨rfl, rfl, old, hi, ?_⟩
          intro hending
          unfold Socket.Ending at hending
          rcases hready with hready | hready <;> simp [hready] at hending
        · left
          rw [State.setReadyState, List.getElem?_set_ne (Ne.symm hji)] at h
          exact ⟨h, fun h => absurd h hji⟩
      · rename_i hready
        left
        constructor
        · exact h
        · intro hji
          subst hji
          cases hi.symm.trans h
          unfold Socket.Ending
          cases hstate : sock.readyState <;> simp_all

/-- No socket becomes closed by `close()`. -/
theorem close_alive {i j : Nat} {sock : Socket} (h : s.sockets[j]? = some sock)
    (halive : sock.readyState ≠ .closed) :
    ∃ sock', (s.close i).sockets[j]? = some sock' ∧ sock'.readyState ≠ .closed := by
  have hlt : j < (s.close i).sockets.length := by
    rw [close_length]
    exact (List.getElem?_eq_some_iff.mp h).choose
  have hsock := List.getElem?_eq_getElem hlt
  refine ⟨_, hsock, ?_⟩
  rcases close_getElem? hsock with ⟨hold, _⟩ | ⟨_, hclosing, _⟩
  · cases h.symm.trans hold
    exact halive
  · rw [hclosing]
    simp

theorem close_congr (h : s.sockets = t.sockets) (i : Nat) :
    (s.close i).sockets = (t.close i).sockets := by
  unfold State.close State.setReadyState
  rw [h]
  split
  · split
    · rfl
    · exact h
  · exact h

theorem clearRefs_sockets (s : State) : s.clearRefs.sockets = s.sockets := rfl

theorem openRef_eq_some {i : Nat} (h : s.openRef = some i) :
    s.wsRef = some i ∧ ∃ sock, s.sockets[i]? = some sock ∧ sock.readyState = .opened := by
  obtain ⟨href, hopen⟩ := Option.filter_eq_some_iff.mp h
  refine ⟨href, ?_⟩
  simpa [Option.any_eq_true] using hopen

theorem openRef_of_opened {i : Nat} {sock : Socket} (hsock : s.sockets[i]? = some sock)
    (hopen : sock.readyState = .opened) (href : s.wsRef = some i) : s.openRef = some i := by
  unfold State.openRef
  rw [href, Option.filter_some, hsock]
  simp [hopen]

/-- `cancelStreaming` closes the current socket if it is open, and no other. -/
theorem cancelStreaming_sockets (b : Bool) (s : State) :
    (cancelStreaming b s).sockets =
      match s.openRef with
      | some i => (s.close i).sockets
      | none => s.sockets := by
  have hopen : { s with pingIntervalRef := false }.openRef = s.openRef := rfl
  unfold cancelStreaming
  dsimp only
  rw [hopen]
  cases s.openRef with
  | none => rfl
  | some i =>
      dsimp only
      split <;> (rw [clearRefs_sockets]; apply close_congr; rfl)

theorem cancelStreaming_refs (b : Bool) (s : State) :
    (cancelStreaming b s).wsRef = none ∧ (cancelStreaming b s).latest = s.latest := by
  have hopen : { s with pingIntervalRef := false }.openRef = s.openRef := rfl
  unfold cancelStreaming
  dsimp only
  rw [hopen]
  cases s.openRef with
  | none => exact ⟨rfl, rfl⟩
  | some i =>
      dsimp only
      split <;> exact ⟨rfl, (close_frame _ i).2⟩

theorem cancelStreaming_getElem? {b : Bool} {i : Nat} {sock : Socket}
    (h : (cancelStreaming b s).sockets[i]? = some sock) :
    (s.sockets[i]? = some sock ∧ (sock.readyState = .opened → s.wsRef ≠ some i)) ∨
      (sock.readyState = .closing ∧ ∃ old, s.sockets[i]? = some old ∧ ¬ old.Ending) := by
  rw [cancelStreaming_sockets] at h
  cases hopen : s.openRef with
  | none =>
      rw [hopen] at h
      left
      constructor
      · exact h
      · intro hready href
        rw [openRef_of_opened h hready href] at hopen
        cases hopen
  | some j =>
      rw [hopen] at h
      obtain ⟨href, _⟩ := openRef_eq_some hopen
      rcases close_getElem? h with ⟨hold, hending⟩ | ⟨_, hclosing⟩
      · left
        constructor
        · exact hold
        · intro hready hi
          cases href.symm.trans hi
          rcases hending rfl with hclosing | hclosed
          · rw [hready] at hclosing
            cases hclosing
          · rw [hready] at hclosed
            cases hclosed
      · exact .inr hclosing

theorem cancelStreaming_keeps {b : Bool} {i : Nat} {sock : Socket}
    (h : s.sockets[i]? = some sock) (href : s.openRef ≠ some i) :
    (cancelStreaming b s).sockets[i]? = some sock := by
  rw [cancelStreaming_sockets]
  cases hopen : s.openRef with
  | none => exact h
  | some j =>
      dsimp only
      have hne : i ≠ j := fun hij => href (hij ▸ hopen)
      unfold State.close
      split
      · split
        · rw [State.setReadyState, List.getElem?_set_ne (Ne.symm hne)]
          exact h
        · exact h
      · exact h

theorem cancelStreaming_alive {b : Bool} {i : Nat} {sock : Socket}
    (h : s.sockets[i]? = some sock) (halive : sock.readyState ≠ .closed) :
    ∃ sock', (cancelStreaming b s).sockets[i]? = some sock' ∧ sock'.readyState ≠ .closed := by
  rw [cancelStreaming_sockets]
  cases s.openRef with
  | none => exact ⟨sock, h, halive⟩
  | some j => exact close_alive h halive

/-! ## Superseded sockets -/

/-- Whether the call creates a socket. -/
def Creates (hostIds : List String) (constructs : Bool) : Prop :=
  hostIds ≠ [] ∧ constructs = true

/-- A stream is started only when the browser has closed every earlier socket.
Where the call creates no socket itself, it is enough that none is connecting,
and none open but the current one. -/
def Settled (s : State) : Action → Prop
  | .startStream _ hostIds constructs =>
      ∀ i sock, s.sockets[i]? = some sock → sock.readyState ≠ .closed →
        ¬ Creates hostIds constructs ∧
          (sock.readyState = .closing ∨ sock.readyState = .opened ∧ s.wsRef = some i)
  | _ => True

/-- The current socket is the latest, and the others are closed, or closing
with no stream that could be current. -/
structure Retired (s : State) : Prop where
  current : ∀ {i}, s.wsRef = some i → s.latest = some i
  ending : ∀ {i sock}, s.sockets[i]? = some sock → s.latest ≠ some i →
    sock.readyState = .closed ∨ sock.readyState = .closing ∧ s.latest = none

theorem startStream_refs (streamType : StreamType) {hostIds : List String} {constructs : Bool}
    (h : ¬ Creates hostIds constructs) (s : State) :
    (startStream streamType hostIds constructs s).latest = none ∧
      (startStream streamType hostIds constructs s).wsRef = none ∧
      (startStream streamType hostIds constructs s).sockets = (cancelStreaming false s).sockets := by
  have href := (cancelStreaming_refs false s).1
  unfold startStream
  dsimp only
  split
  · exact ⟨rfl, href, rfl⟩
  · rename_i hne
    split
    · rename_i hconstructs
      exact absurd ⟨hne, hconstructs⟩ h
    · exact ⟨rfl, href, rfl⟩

theorem startStream_creates (streamType : StreamType) {hostIds : List String} {constructs : Bool}
    (h : Creates hostIds constructs) (s : State) :
    let s' := startStream streamType hostIds constructs s
    s'.latest = some (cancelStreaming false s).sockets.length ∧
      s'.wsRef = some (cancelStreaming false s).sockets.length ∧
      s'.isStreaming = true ∧
      s'.sockets = (cancelStreaming false s).sockets ++ [⟨streamType, hostIds, .connecting⟩] := by
  rcases h with ⟨hne, hconstructs⟩
  unfold startStream
  dsimp only
  rw [if_neg hne, if_pos hconstructs]
  exact ⟨rfl, rfl, rfl, rfl⟩

theorem startStream_retired {streamType : StreamType} {hostIds : List String} {constructs : Bool}
    (hok : Settled s (.startStream streamType hostIds constructs)) :
    Retired (startStream streamType hostIds constructs s) := by
  by_cases hcreates : Creates hostIds constructs
  · obtain ⟨hlatest, href, _, hsockets⟩ :=
      startStream_creates streamType hcreates s
    constructor
    · intro i hi
      rw [hlatest, ← href]
      exact hi
    · intro i sock hsock hne
      left
      by_contra halive
      rw [hsockets] at hsock
      rw [hlatest] at hne
      have hlt : i < (cancelStreaming false s).sockets.length := by
        have hlen := (List.getElem?_eq_some_iff.mp hsock).choose
        rw [List.length_append, List.length_singleton] at hlen
        have hi : i ≠ (cancelStreaming false s).sockets.length := fun h => hne (h ▸ rfl)
        omega
      rw [List.getElem?_append_left hlt] at hsock
      rcases cancelStreaming_getElem? hsock with ⟨hold, _⟩ | ⟨_, old, hold, hending⟩
      · exact (hok i sock hold halive).1 hcreates
      · exact (hok i old hold fun h => hending (.inr h)).1 hcreates
  · obtain ⟨hlatest, href, hsockets⟩ := startStream_refs streamType hcreates s
    constructor
    · intro i hi
      rw [href] at hi
      cases hi
    · intro i sock hsock _
      rw [hsockets] at hsock
      rcases cancelStreaming_getElem? hsock with ⟨hold, hopened⟩ | ⟨hclosing, _⟩
      · by_cases halive : sock.readyState = .closed
        · exact .inl halive
        · rcases (hok i sock hold halive).2 with hclosing | ⟨hready, hcurrent⟩
          · exact .inr ⟨hclosing, hlatest⟩
          · exact absurd hcurrent (hopened hready)
      · exact .inr ⟨hclosing, hlatest⟩

theorem Retired.not_ending (hs : Retired s) {i : Nat} {sock : Socket}
    (hsock : s.sockets[i]? = some sock) (hending : ¬ sock.Ending) : s.latest = some i := by
  by_contra hne
  rcases hs.ending hsock hne with hclosed | ⟨hclosing, _⟩
  · exact hending (.inr hclosed)
  · exact hending (.inl hclosing)

theorem cancelStreaming_retired (hs : Retired s) (b : Bool) : Retired (cancelStreaming b s) := by
  obtain ⟨href, hlatest⟩ := cancelStreaming_refs b s
  constructor
  · intro i hi
    rw [href] at hi
    cases hi
  · intro i sock hsock hne
    rw [hlatest] at hne ⊢
    rcases cancelStreaming_getElem? hsock with ⟨hold, _⟩ | ⟨_, old, hold, hending⟩
    · exact hs.ending hold hne
    · exact absurd (hs.not_ending hold hending) hne

theorem keepalive_retired (hs : Retired s) (now : Nat) : Retired (keepalive now s) := by
  unfold keepalive
  cases hws : s.wsRef with
  | none => exact hs
  | some i =>
      dsimp only
      split
      · constructor
        · intro j hj
          rw [(close_frame _ i).1] at hj
          cases hj
        · intro j sock hsock hne
          rw [(close_frame _ i).2] at hne ⊢
          rcases close_getElem? hsock with ⟨hold, _⟩ | ⟨hji, _⟩
          · exact hs.ending hold hne
          · subst hji
            exact absurd (hs.current hws) hne
      · split
        · constructor
          · intro j hj
            exact hs.current (hws.trans hj)
          · intro j sock hsock hne
            exact hs.ending hsock hne
        · exact hs

theorem setReadyState_getElem? {i j : Nat} {sock sock' : Socket} {readyState : ReadyState}
    (h : (s.setReadyState i sock readyState).sockets[j]? = some sock') :
    j = i ∧ sock'.readyState = readyState ∨ j ≠ i ∧ s.sockets[j]? = some sock' := by
  unfold State.setReadyState at h
  dsimp only at h
  by_cases hji : j = i
  · left
    subst hji
    have hlt : j < s.sockets.length := by
      have hlen := (List.getElem?_eq_some_iff.mp h).choose
      rwa [List.length_set] at hlen
    rw [List.getElem?_set_self hlt] at h
    cases h
    exact ⟨rfl, rfl⟩
  · right
    rw [List.getElem?_set_ne (Ne.symm hji)] at h
    exact ⟨hji, h⟩

theorem onmessage_frame (runtime : Runtime) (sock : Socket) (s : State) (now : Nat) (data : EventData) :
    (onmessage runtime sock s now data).sockets = s.sockets ∧
      (onmessage runtime sock s now data).wsRef = s.wsRef ∧
      (onmessage runtime sock s now data).latest = s.latest := by
  cases data with
  | pong => exact ⟨rfl, rfl, rfl⟩
  | malformed => exact ⟨rfl, rfl, rfl⟩
  | hostMessage hostId decodedMessage =>
      unfold onmessage
      dsimp only
      split
      · exact ⟨rfl, rfl, rfl⟩
      · split <;> exact ⟨rfl, rfl, rfl⟩

theorem onopen_spec {i : Nat} {sock : Socket}
    (h : socketEvent runtime i sock s .onopen = some t) :
    sock.readyState = .connecting ∧
      t = { s.setReadyState i sock .opened with streamData := .of sock.hostIds "" } := by
  unfold socketEvent at h
  dsimp only at h
  split at h
  · rename_i hready
    exact ⟨hready, (Option.some.inj h).symm⟩
  · contradiction

theorem onmessage_spec {i : Nat} {sock : Socket} {data : EventData} {now : Nat}
    (h : socketEvent runtime i sock s (.onmessage data now) = some t) :
    sock.readyState = .opened ∧ t = onmessage runtime sock s now data := by
  unfold socketEvent at h
  dsimp only at h
  split at h
  · rename_i hready
    exact ⟨hready, (Option.some.inj h).symm⟩
  · contradiction

theorem onclose_spec {i : Nat} {sock : Socket}
    (h : socketEvent runtime i sock s .onclose = some t) :
    sock.readyState ≠ .closed ∧
      (t = (s.setReadyState i sock .closed).clearRefs ∨
        s.wsRef = none ∧ t = s.setReadyState i sock .closed) := by
  unfold socketEvent at h
  dsimp only at h
  split at h
  · contradiction
  · rename_i halive
    refine ⟨halive, ?_⟩
    split at h
    · exact .inl (Option.some.inj h).symm
    · rename_i href
      exact .inr ⟨by simpa using href, (Option.some.inj h).symm⟩

/-- An event that leaves the refs alone, or clears them, and at most moves its
own socket on. -/
theorem socketEvent_retired (hs : Retired s) {i : Nat} {sock : Socket} {event : SocketEvent}
    (hsock : s.sockets[i]? = some sock) (h : socketEvent runtime i sock s event = some t) :
    Retired t := by
  cases event with
  | onopen =>
      obtain ⟨hready, ht⟩ := onopen_spec h
      subst ht
      have hlatest : s.latest = some i := by
        apply hs.not_ending hsock
        unfold Socket.Ending
        simp [hready]
      constructor
      · exact fun hi => hs.current hi
      · intro j sock' hj hne
        rcases setReadyState_getElem? hj with ⟨hji, _⟩ | ⟨_, hold⟩
        · exact absurd (hji ▸ hlatest) hne
        · exact hs.ending hold hne
  | onmessage data now =>
      obtain ⟨_, ht⟩ := onmessage_spec h
      subst ht
      obtain ⟨hsockets, href, hlatest⟩ := onmessage_frame runtime sock s now data
      constructor
      · intro j hj
        rw [hlatest]
        exact hs.current (href ▸ hj)
      · intro j sock' hj hne
        rw [hlatest] at hne ⊢
        exact hs.ending (hsockets ▸ hj) hne
  | onclose =>
      have hending : ∀ {j sock'}, (s.setReadyState i sock .closed).sockets[j]? = some sock' →
          s.latest ≠ some j →
          sock'.readyState = .closed ∨ sock'.readyState = .closing ∧ s.latest = none := by
        intro j sock' hj hne
        rcases setReadyState_getElem? hj with ⟨_, hclosed⟩ | ⟨_, hold⟩
        · exact .inl hclosed
        · exact hs.ending hold hne
      rcases (onclose_spec h).2 with ht | ⟨_, ht⟩
      · subst ht
        constructor
        · intro j hj
          cases hj
        · exact hending
      · subst ht
        exact ⟨fun hi => hs.current hi, hending⟩

theorem step_retired {a : Action} (hs : Retired s) (hok : Settled s a)
    (h : step runtime s a = some t) : Retired t := by
  cases a with
  | startStream streamType hostIds constructs =>
      cases h
      exact startStream_retired hok
  | cancelStreaming b =>
      cases h
      exact cancelStreaming_retired hs b
  | tick now =>
      unfold step at h
      dsimp only at h
      split at h
      · cases h
        exact keepalive_retired hs now
      · contradiction
  | socket i event =>
      obtain ⟨sock, hsock, h⟩ := Option.bind_eq_some_iff.mp h
      exact socketEvent_retired hs hsock h

/-- The only event left to a superseded socket is its close event, with no
current stream to end. -/
theorem Retired.not_exposed (hs : Retired s) : ¬ Exposed runtime s := by
  intro hexposed
  rcases hexposed with ⟨i, event, t, hne, h, hchanged⟩
  obtain ⟨sock, hsock, h⟩ := Option.bind_eq_some_iff.mp h
  have hending := hs.ending hsock hne
  cases event with
  | onopen =>
      have hready := (onopen_spec h).1
      simp [hready] at hending
  | onmessage data now =>
      have hready := (onmessage_spec h).1
      simp [hready] at hending
  | onclose =>
      obtain ⟨halive, ht⟩ := onclose_spec h
      rcases hending with hclosed | ⟨_, hlatest⟩
      · exact halive hclosed
      · have hnone : s.wsRef = none := by
          cases href : s.wsRef with
          | none => rfl
          | some j => exact absurd (hs.current href) (by simp [hlatest])
        unfold socketEvent at h
        dsimp only at h
        rw [if_neg halive, hnone] at h
        cases h
        exact hchanged ⟨rfl, rfl, rfl, rfl, rfl⟩

/-! ## Events that come late -/

theorem read_some {data : Record} {hostId text : String} (h : data hostId = some text) :
    data.read hostId = text := by
  unfold Record.read
  rw [h]

theorem append_ne (data : Record) (hostId : String) {text : String} (h : text ≠ "") :
    data.append hostId text ≠ data := by
  intro heq
  have hhost := congrFun heq hostId
  unfold Record.append at hhost
  rw [Function.update_self] at hhost
  cases hdata : data hostId with
  | none => rw [hdata] at hhost; cases hhost
  | some old =>
      rw [hdata, read_some hdata] at hhost
      have hlen := congrArg String.length (Option.some.inj hhost)
      rw [String.length_append] at hlen
      have hpos : text.length ≠ 0 := fun hzero => h (String.length_eq_zero_iff.mp hzero)
      omega

/-- Any close event ends a current stream. -/
theorem exposed_of_alive {i : Nat} {sock : Socket} (hsock : s.sockets[i]? = some sock)
    (halive : sock.readyState ≠ .closed) (hne : s.latest ≠ some i) (href : s.wsRef.isSome)
    (hstreaming : s.isStreaming = true) : Exposed runtime s := by
  refine ⟨i, .onclose, (s.setReadyState i sock .closed).clearRefs, hne, ?_, ?_⟩
  · unfold step socketEvent
    simp only [hsock, Option.bind_some, if_neg halive, href, if_true]
  · intro hsame
    have hstopped := hsame.isStreaming
    rw [hstreaming] at hstopped
    cases hstopped

/-- An open socket's message is shown whether or not it is the current one. -/
theorem exposed_of_opened {i : Nat} {sock : Socket} (hsock : s.sockets[i]? = some sock)
    (hopen : sock.readyState = .opened) (hne : s.latest ≠ some i) : Exposed runtime s := by
  refine ⟨i, .onmessage (.hostMessage "" "websocket closed") 0,
    { s with streamData := s.streamData.append "" (getDisconnectMessage sock.streamType) },
    hne, ?_, ?_⟩
  · unfold step socketEvent
    simp only [hsock, Option.bind_some, hopen, if_true, onmessage]
  · intro hsame
    refine append_ne _ _ ?_ hsame.streamData
    cases sock.streamType <;> decide

/-- A connecting socket that nobody closes may still open. -/
theorem exposed_of_connecting {i : Nat} {sock : Socket} (hsock : s.sockets[i]? = some sock)
    (hready : sock.readyState = .connecting) (hne : s.latest ≠ some i) :
    ∃ u, Reaches (step runtime) s u ∧ Exposed runtime u := by
  have hopen : step runtime s (.socket i .onopen) =
      some { s.setReadyState i sock .opened with streamData := .of sock.hostIds "" } := by
    unfold step socketEvent
    simp only [hsock, Option.bind_some, hready, if_true]
  have hlt := (List.getElem?_eq_some_iff.mp hsock).choose
  have hopened : (s.setReadyState i sock .opened).sockets[i]? =
      some { sock with readyState := .opened } := List.getElem?_set_self hlt
  exact ⟨_, Reaches.single hopen, exposed_of_opened hopened rfl hne⟩

theorem unsettled_exposed {a : Action} (h : step runtime s a = some t) (hok : ¬ Settled s a) :
    ∃ u, Reaches (step runtime) t u ∧ Exposed runtime u := by
  cases a with
  | startStream streamType hostIds constructs =>
      cases h
      unfold Settled at hok
      simp only [not_forall] at hok
      rcases hok with ⟨i, sock, hsock, halive, hno⟩
      by_cases hcreates : Creates hostIds constructs
      · obtain ⟨hlatest, href, hstreaming, hsockets⟩ :=
          startStream_creates streamType hcreates s
        obtain ⟨sock', hsock', halive'⟩ := cancelStreaming_alive (b := false) hsock halive
        have hlt := (List.getElem?_eq_some_iff.mp hsock').choose
        have hlate : (startStream streamType hostIds constructs s).sockets[i]? = some sock' := by
          rw [hsockets, List.getElem?_append_left hlt]
          exact hsock'
        refine ⟨_, Reaches.refl _, exposed_of_alive hlate halive' ?_ ?_ hstreaming⟩
        · rw [hlatest]
          intro heq
          have hi := Option.some.inj heq
          omega
        · rw [href]
          rfl
      · obtain ⟨hlatest, _, hsockets⟩ := startStream_refs streamType hcreates s
        have hcurrent : s.openRef ≠ some i := by
          intro hopen
          obtain ⟨href, old, hold, hready⟩ := openRef_eq_some hopen
          cases hsock.symm.trans hold
          exact hno ⟨hcreates, .inr ⟨hready, href⟩⟩
        have hkept := cancelStreaming_keeps (b := false) hsock hcurrent
        rw [← hsockets] at hkept
        have hne : (startStream streamType hostIds constructs s).latest ≠ some i := by
          rw [hlatest]
          simp
        cases hready : sock.readyState with
        | connecting => exact exposed_of_connecting hkept hready hne
        | opened => exact ⟨_, Reaches.refl _, exposed_of_opened hkept hready hne⟩
        | closing => exact absurd ⟨hcreates, .inl hready⟩ hno
        | closed => exact absurd hready halive
  | _ => exact absurd trivial hok

/-- `Settled` is exactly what keeps superseded sockets from the stream. -/
theorem exposed_guards (runtime : Runtime) :
    Guards (step runtime) Settled (Exposed runtime) idle := by
  refine Guards.of_invariant (P := Retired) ?_ step_retired Retired.not_exposed ?_
  · constructor
    · intro i hi
      cases hi
    · intro i sock hsock
      cases hsock
  · intro s a t _ h hok
    exact unsettled_exposed h hok

/-- A stream is restarted; the close event of its first socket comes after that
and ends the second stream. -/
theorem restarted_stream_ends :
    ∃ runtime s t,
      execute (step runtime) idle [.startStream .logs ["node"] true, .socket 0 .onopen,
        .startStream .busEvents ["node"] true] = some s ∧
      step runtime s (.socket 0 .onclose) = some t ∧
      s.latest = some 1 ∧ s.wsRef = some 1 ∧ s.isStreaming = true ∧
      t.wsRef = none ∧ t.isStreaming = false := by
  refine ⟨⟨fun _ => none, fun _ => false, fun _ => "", fun _ => ""⟩, _, _, rfl, rfl, ?_⟩
  exact ⟨rfl, rfl, rfl, rfl, rfl⟩

end TSymbiote.Frontend.WebSocketStream
