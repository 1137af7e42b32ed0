import TSymbiote.Adapter.Stream.Order
import TSymbiote.WebUI.Relay.Ledger
import TSymbiote.Frontend.StreamText
import TSymbiote.Frontend.WebSocketStream.Pane

/-! # A stream of bus events from end to end

The sessions of the adapters, the relay of the web UI and the page in the
browser take steps in any order. Between them stand connections that keep the
order of what is written to them: a relay's reader reads the messages of its
session one by one, and the page is delivered the frames of the relay. What a
pane shows is then determined by the events of its host.
-/

namespace TSymbiote.Pipeline

open Shared Transition Adapter WebUI Frontend WebSocketStream
open scoped Strings

variable {ts : Relay.Targets}

/-- `taken` counts the messages read from the sessions, `delivered` the frames
that have come to the page. -/
structure State (ts : Relay.Targets) where
  adapters : Nat → Stream.State
  taken : Nat → Nat
  relay : Relay.State ts
  delivered : Nat
  page : WebSocketStream.State

inductive Action where
  | adapter (i : Nat) (a : Stream.Action)
  | relay (a : Relay.Action)
  | deliver (now : Nat)
  | page (a : WebSocketStream.Action)
  deriving DecidableEq, Repr

/-- The page's own actions and events; messages come from the relay. -/
def own : WebSocketStream.Action → Bool
  | .startStream _ _ _ => false
  | .socket _ (.onmessage _ _) => false
  | _ => true

def eventData (runtime : Runtime) : Payload → EventData
  | .raw b => if b = bytes "pong" then .pong else .malformed
  | .document m => readMessage runtime (marshal m)

/-- What a frame of the relay is to the socket it is sent to. -/
def socketEvent (runtime : Runtime) (now : Nat) : Relay.Frame → SocketEvent
  | .message p => .onmessage (eventData runtime p.message.message) now
  | .close => .onclose

/-- Reader `i` gets the next message of session `i`. The sessions write text. -/
def relayStep (s : State ts) : Relay.Action → Option (State ts)
  | .reader i (.read type message) =>
      if type = .text ∧ (s.adapters i).written[s.taken i]? = some message then
        (Relay.step s.relay (.reader i (.read type message))).map fun relay =>
          { s with relay, taken := Function.update s.taken i (s.taken i + 1) }
      else none
  | a => (Relay.step s.relay a).map fun relay => { s with relay }

/-- One step of one party; the page's socket is its `k`-th. -/
def step (runtime : Runtime) (k : Nat) (s : State ts) : Action → Option (State ts)
  | .adapter i a =>
      (Stream.step .busEvents (s.adapters i) a).map fun t =>
        { s with adapters := Function.update s.adapters i t }
  | .relay a => relayStep s a
  | .deliver now =>
      (s.relay.written[s.delivered]?).bind fun frame =>
        (WebSocketStream.step runtime s.page (.socket k (socketEvent runtime now frame))).map
          fun page => { s with page, delivered := s.delivered + 1 }
  | .page a =>
      if own a then (WebSocketStream.step runtime s.page a).map fun page => { s with page } else none

/-- The page has just asked for the events of the targets, and the session of
target `i` is to read `events i`. -/
def start (ts : Relay.Targets) (events : Nat → List Stream.Event) (page : WebSocketStream.State) :
    State ts where
  adapters i := Stream.start (.finite (events i))
  taken _ := 0
  relay := Relay.start ts
  delivered := 0
  page := startStream .busEvents ts.hosts true page

/-! ## The pieces of a pane -/

/-- What a frame brings to the pane of `host`: an event, or the notice that there
will be no more. -/
def piece (host : String) : Relay.Frame → Option (Option Bytes)
  | .message ⟨.writer, _, .document m⟩ => if m.host = host then some none else none
  | .message ⟨_, _, .document m⟩ => if m.host = host then some (some m.message) else none
  | _ => none

def pieceText (runtime : Runtime) : Option Bytes → String
  | some message => shown runtime .busEvents (binaryString message)
  | none => getDisconnectMessage .busEvents

/-- What the socket hears of the frames. -/
def frameData (runtime : Runtime) : Relay.Frame → Option EventData
  | .message p => some (eventData runtime p.message.message)
  | .close => none

theorem piece_payload (host : String) (frame : Relay.Frame) :
    (piece host frame).bind id = (frame.payload host).map Prod.snd := by
  cases frame with
  | close => rfl
  | message p =>
      rcases p with ⟨sender, type, payload⟩
      cases payload with
      | raw b => cases sender <;> rfl
      | document m =>
          unfold piece Relay.Frame.payload Relay.Post.payload
          cases sender with
          | writer => dsimp only; split <;> rfl
          | adapter i => dsimp only; split <;> rfl
          | client => dsimp only; split <;> rfl

theorem shown_closed (runtime : Runtime) :
    shown runtime .busEvents (binaryString (bytes "websocket closed")) =
      getDisconnectMessage .busEvents := by
  rw [(binaryString_bytes "websocket closed").mpr (by decide)]
  exact if_pos rfl

theorem document_text (runtime : Runtime) (host : String) (m : WebsocketHostMessage) :
    (eventData runtime (.document m)).piece runtime .busEvents host =
      if m.host = host then shown runtime .busEvents (binaryString m.message) else "" := by
  have hdata : eventData runtime (.document m) = .hostMessage m.host (binaryString m.message) :=
    readMessage_marshal runtime m
  rw [hdata]
  rfl

/-- What one message adds to a pane. -/
theorem message_text (runtime : Runtime) {p : Relay.Post} (hp : Relay.Authored ts p)
    (host : String) :
    (eventData runtime p.message.message).piece runtime .busEvents host =
      ((piece host (.message p)).map (pieceText runtime)).getD "" := by
  cases hp with
  | pong => rfl
  | notice adapter =>
      refine (document_text runtime host ⟨adapter, bytes "websocket closed"⟩).trans ?_
      unfold piece Relay.closedNotice
      dsimp only
      split
      · exact shown_closed runtime
      · rfl
  | document hi type message =>
      refine (document_text runtime host ⟨_, message⟩).trans ?_
      unfold piece
      dsimp only
      split <;> rfl

/-- The text of a pane, piece by piece. -/
theorem paneText_pieces (runtime : Runtime) (host : String) {frames : List Relay.Frame}
    (hauthored : ∀ p, .message p ∈ frames → Relay.Authored ts p) :
    paneText runtime .busEvents host (frames.filterMap (frameData runtime)) =
      String.join ((frames.filterMap (piece host)).map (pieceText runtime)) := by
  unfold paneText String.join
  generalize "" = text
  induction frames generalizing text with
  | nil => rfl
  | cons frame frames ih =>
      have hrest := ih fun p hp => hauthored p (List.mem_cons_of_mem frame hp)
      cases frame with
      | close => exact hrest text
      | message p =>
          have htext := message_text runtime (hauthored p List.mem_cons_self) host
          have hdata : frameData runtime (.message p) =
              some (eventData runtime p.message.message) := rfl
          rw [List.filterMap_cons_some hdata, List.foldl_cons, htext, hrest]
          cases hpiece : piece host (.message p) with
          | none =>
              rw [List.filterMap_cons_none hpiece, Option.map_none, Option.getD_none,
                String.append_empty]
          | some b =>
              rw [List.filterMap_cons_some hpiece, List.map_cons, List.foldl_cons, Option.map_some,
                Option.getD_some]

/-! ## The connections -/

/-- What the parties have of each other: each session sends the items of its
source in order, reader `i` has read the first `taken i` messages of session `i`,
and the page has heard the first `delivered` frames of the relay. -/
structure Connected (runtime : Runtime) (events : Nat → List Stream.Event) (k : Nat) (s : State ts) :
    Prop where
  sessions : ∀ i, Stream.InOrder (events i) (s.adapters i)
  taken : ∀ i, s.taken i ≤ (s.adapters i).written.length
  readers : ∀ {i host}, ts.hosts[i]? = some host → ∃ past, Relay.InOrder host i past s.relay ∧
    Relay.reads i past = ((s.adapters i).written.take (s.taken i)).map (MessageType.text, ·)
  orderly : Relay.Orderly s.relay
  delivered : s.delivered ≤ s.relay.written.length
  page : Streaming runtime .busEvents ts.hosts k
    ((s.relay.written.take s.delivered).filterMap (frameData runtime)) s.page

variable {runtime : Runtime} {events : Nat → List Stream.Event} {k : Nat} {s t : State ts}

theorem take_eq_of_grown {α : Type} {l l' : List α} (h : l <+: l') {n : Nat} (hn : n ≤ l.length) :
    l'.take n = l.take n := by
  obtain ⟨rest, rfl⟩ := h
  rw [List.take_append_of_le_length hn]

theorem take_succ_of_getElem? {α : Type} {l : List α} {n : Nat} {a : α} (h : l[n]? = some a) :
    l.take (n + 1) = l.take n ++ [a] := by
  rw [List.take_add_one, h]
  rfl

/-- Frames are only added. -/
theorem relay_written {s t : Relay.State ts} {a : Relay.Action} (h : Relay.step s a = some t) :
    s.written <+: t.written := by
  have hclose : ∀ sent, s.written <+: (s.closeClient sent).written := by
    intro sent
    unfold Relay.State.closeClient
    split
    · exact List.prefix_append _ _
    · exact List.prefix_rfl
  cases Relay.step_next h with
  | shutdown => exact List.prefix_rfl
  | reader i r a _ hr h => cases h <;> exact List.prefix_rfl
  | client a _ h => cases h <;> exact List.prefix_rfl
  | ping j p a _ hp h => cases h <;> exact List.prefix_rfl
  | writer a _ h =>
      cases h with
      | shutdown sent hpc hstop => exact hclose sent
      | finished sent hpc hnone => exact hclose sent
      | wrote p hpc hb => exact List.prefix_append _ _
      | _ => exact List.prefix_rfl

/-! ## One step -/

theorem adapter_connected (hs : Connected runtime events k s) {i : Nat} {a : Stream.Action}
    {u : Stream.State} (h : Stream.step .busEvents (s.adapters i) a = some u) :
    Connected runtime events k { s with adapters := Function.update s.adapters i u } := by
  have hgrows := Stream.step_written h
  have hsame : ∀ j, (s.adapters j).written <+: (Function.update s.adapters i u j).written := by
    intro j
    by_cases hji : j = i
    · subst hji
      rwa [Function.update_self]
    · rw [Function.update_of_ne hji]
  refine ⟨?_, ?_, ?_, hs.orderly, hs.delivered, hs.page⟩
  · intro j
    dsimp only
    by_cases hji : j = i
    · subst hji
      rw [Function.update_self]
      exact Stream.step_inOrder (hs.sessions j) h
    · rw [Function.update_of_ne hji]
      exact hs.sessions j
  · exact fun j => Nat.le_trans (hs.taken j) (hsame j).length_le
  · intro j host hj
    obtain ⟨past, horder, hreads⟩ := hs.readers hj
    refine ⟨past, horder, ?_⟩
    dsimp only
    rw [take_eq_of_grown (hsame j) (hs.taken j)]
    exact hreads

/-- A step of the relay leaves the page where it is. -/
theorem relay_page (hs : Connected runtime events k s) {a : Relay.Action} {relay : Relay.State ts}
    (h : Relay.step s.relay a = some relay) :
    s.delivered ≤ relay.written.length ∧
      Streaming runtime .busEvents ts.hosts k
        ((relay.written.take s.delivered).filterMap (frameData runtime)) s.page := by
  have hgrows := relay_written h
  rw [take_eq_of_grown hgrows hs.delivered]
  exact ⟨Nat.le_trans hs.delivered hgrows.length_le, hs.page⟩

/-- A step of the relay that reads nothing. -/
theorem idle_connected (hdistinct : ts.hosts.Nodup) (hs : Connected runtime events k s)
    {a : Relay.Action} {relay : Relay.State ts} (hnone : ∀ i, a.read i = none)
    (h : Relay.step s.relay a = some relay) : Connected runtime events k { s with relay } := by
  obtain ⟨hdelivered, hpage⟩ := relay_page hs h
  refine ⟨hs.sessions, hs.taken, ?_, Relay.next_orderly hs.orderly (Relay.step_next h), hdelivered,
    hpage⟩
  intro i host hi
  obtain ⟨past, horder, hreads⟩ := hs.readers hi
  refine ⟨past ++ [a], Relay.step_inOrder hdistinct hi horder h, ?_⟩
  rw [← hreads]
  unfold Relay.reads
  rw [filterMap_concat, hnone i, Option.toList_none, List.append_nil]

theorem read_connected (hdistinct : ts.hosts.Nodup) (hs : Connected runtime events k s) {i : Nat}
    {message : Bytes} {relay : Relay.State ts}
    (hmessage : (s.adapters i).written[s.taken i]? = some message)
    (h : Relay.step s.relay (.reader i (.read .text message)) = some relay) :
    Connected runtime events k
      { s with relay, taken := Function.update s.taken i (s.taken i + 1) } := by
  obtain ⟨hdelivered, hpage⟩ := relay_page hs h
  have hlt : s.taken i < (s.adapters i).written.length :=
    (List.getElem?_eq_some_iff.mp hmessage).choose
  refine ⟨hs.sessions, ?_, ?_, Relay.next_orderly hs.orderly (Relay.step_next h), hdelivered, hpage⟩
  · intro j
    dsimp only
    by_cases hji : j = i
    · subst hji
      rw [Function.update_self]
      exact hlt
    · rw [Function.update_of_ne hji]
      exact hs.taken j
  · intro j host hj
    obtain ⟨past, horder, hreads⟩ := hs.readers hj
    refine ⟨past ++ [.reader i (.read .text message)], Relay.step_inOrder hdistinct hj horder h, ?_⟩
    unfold Relay.reads
    rw [filterMap_concat]
    change Relay.reads j past ++ _ = _
    rw [hreads]
    dsimp only
    by_cases hji : j = i
    · subst hji
      have hread : (Relay.Action.reader j (.read .text message)).read j = some (.text, message) :=
        if_pos rfl
      rw [hread, Function.update_self, take_succ_of_getElem? hmessage, List.map_append]
      rfl
    · have hread : (Relay.Action.reader i (.read .text message)).read j = none :=
        if_neg (Ne.symm hji)
      rw [hread, Option.toList_none, List.append_nil, Function.update_of_ne hji]

theorem relay_connected (hdistinct : ts.hosts.Nodup) (hs : Connected runtime events k s)
    {a : Relay.Action} (h : relayStep s a = some t) : Connected runtime events k t := by
  have hidle : (∀ i, a.read i = none) →
      (Relay.step s.relay a).map (fun relay => { s with relay }) = some t →
      Connected runtime events k t := by
    intro hnone hstep
    obtain ⟨relay, hrelay, rfl⟩ := Option.map_eq_some_iff.mp hstep
    exact idle_connected hdistinct hs hnone hrelay
  cases a with
  | reader i a =>
      cases a with
      | read type message =>
          unfold relayStep at h
          dsimp only at h
          split at h
          · next hread =>
              obtain ⟨relay, hrelay, rfl⟩ := Option.map_eq_some_iff.mp h
              obtain ⟨rfl, hmessage⟩ := hread
              exact read_connected hdistinct hs hmessage hrelay
          · contradiction
      | _ => exact hidle (fun _ => rfl) h
  | _ => exact hidle (fun _ => rfl) h

theorem page_connected (hdistinct : ts.hosts.Nodup) (hs : Connected runtime events k s)
    {a : WebSocketStream.Action} (ha : own a = true) {page : WebSocketStream.State}
    (h : WebSocketStream.step runtime s.page a = some page) :
    Connected runtime events k { s with page } := by
  have hstarts : a.starts = false := by
    cases a with
    | startStream streamType hostIds constructs => cases ha
    | _ => rfl
  have hheard : heard k a = none := by
    cases a with
    | socket j event =>
        cases event with
        | onmessage data now => cases ha
        | _ => rfl
    | _ => rfl
  have hpage := step_streaming hdistinct hs.page hstarts h
  rw [hheard, Option.toList_none, List.append_nil] at hpage
  exact ⟨hs.sessions, hs.taken, hs.readers, hs.orderly, hs.delivered, hpage⟩

theorem deliver_connected (hdistinct : ts.hosts.Nodup) (hs : Connected runtime events k s)
    {now : Nat} {frame : Relay.Frame} (hframe : s.relay.written[s.delivered]? = some frame)
    {page : WebSocketStream.State}
    (h : WebSocketStream.step runtime s.page (.socket k (socketEvent runtime now frame)) =
      some page) :
    Connected runtime events k { s with page, delivered := s.delivered + 1 } := by
  have hlt := (List.getElem?_eq_some_iff.mp hframe).choose
  have hheard : heard k (.socket k (socketEvent runtime now frame)) = frameData runtime frame := by
    cases frame with
    | message p => exact if_pos rfl
    | close => rfl
  have hpage := step_streaming hdistinct hs.page rfl h
  rw [hheard, ← filterMap_concat, ← take_succ_of_getElem? hframe] at hpage
  exact ⟨hs.sessions, hs.taken, hs.readers, hs.orderly, hlt, hpage⟩

theorem step_connected (hdistinct : ts.hosts.Nodup) {a : Action}
    (hs : Connected runtime events k s) (h : step runtime k s a = some t) :
    Connected runtime events k t := by
  cases a with
  | adapter i a =>
      obtain ⟨u, hu, rfl⟩ := Option.map_eq_some_iff.mp h
      exact adapter_connected hs hu
  | relay a => exact relay_connected hdistinct hs h
  | deliver now =>
      obtain ⟨frame, hframe, h⟩ := Option.bind_eq_some_iff.mp h
      obtain ⟨page, hpage, rfl⟩ := Option.map_eq_some_iff.mp h
      exact deliver_connected hdistinct hs hframe hpage
  | page a =>
      unfold step at h
      dsimp only at h
      split at h
      · next ha =>
          obtain ⟨page, hpage, rfl⟩ := Option.map_eq_some_iff.mp h
          exact page_connected hdistinct hs ha hpage
      · contradiction

theorem start_connected (runtime : Runtime) (events : Nat → List Stream.Event)
    {page : WebSocketStream.State} (hclosed : AllClosed page) :
    Connected runtime events page.sockets.length (start ts events page) where
  sessions i := Stream.start_inOrder (events i)
  taken _ := Nat.zero_le _
  readers {i host} _ := ⟨[], Relay.start_inOrder ts host i, rfl⟩
  orderly := Relay.start_orderly ts
  delivered := Nat.zero_le _
  page := start_streaming runtime .busEvents ts.nonempty hclosed

/-! ## Runs -/

/-- What `host`'s pane shows of the items of its source: that the stream is
connecting, or the formatted texts of the first of them, in order, between which
only notices of a closed connection stand, and at most one ending. -/
def Faithful (runtime : Runtime) (items : List Bytes) (pane : Option String) : Prop :=
  pane = some (getConnectingMessage .busEvents) ∨
    ∃ (pieces : List (Option Bytes)), ∃ ending ∈ endings .busEvents,
      pane = some (String.join (pieces.map (pieceText runtime)) ++ ending) ∧
        pieces.filterMap id <+: items

/-- However the parties interleave, every pane is faithful to its host's events. -/
theorem pane_faithful (runtime : Runtime) (ts : Relay.Targets) (hdistinct : ts.hosts.Nodup)
    (events : Nat → List Stream.Event) {page : WebSocketStream.State} (hclosed : AllClosed page)
    {as : List Action} {s : State ts}
    (h : execute (step runtime page.sockets.length) (start ts events page) as = some s) {i : Nat}
    {host : String} (hi : ts.hosts[i]? = some host) (hproto : host ≠ "__proto__") :
    Faithful runtime (Stream.items (events i)) (s.page.streamData host) := by
  have hs : Connected runtime events page.sockets.length s :=
    (execute_reaches h).invariant (fun hs hl => step_connected hdistinct hs hl)
      (start_connected runtime events hclosed)
  have hframes := List.take_prefix s.delivered s.relay.written
  have hauthored : ∀ p, .message p ∈ s.relay.written.take s.delivered → Relay.Authored ts p :=
    fun p hp => hs.orderly.written p (hframes.mem hp)
  obtain ⟨past, horder, hreads⟩ := hs.readers hi
  rcases hs.page.pane (List.mem_of_getElem? hi) hproto with ⟨hconnecting, _⟩ | ⟨ending, hending, htext⟩
  · exact .inl hconnecting
  · refine .inr ⟨(s.relay.written.take s.delivered).filterMap (piece host), ending, hending, ?_, ?_⟩
    · rw [htext, paneText_pieces runtime host hauthored]
    · have hrelayed : (s.relay.written.take s.delivered).filterMap (Relay.Frame.payload host) <+:
          ((s.adapters i).written.take (s.taken i)).map (MessageType.text, ·) :=
        hreads ▸ (hframes.filterMap _).trans horder.relayed
      have hbytes := hrelayed.map Prod.snd
      rw [List.map_map, List.map_filterMap] at hbytes
      have hpayload : (fun frame : Relay.Frame => (frame.payload host).map Prod.snd) =
          fun frame => (piece host frame).bind id := funext fun frame => (piece_payload host frame).symm
      rw [hpayload] at hbytes
      rw [List.filterMap_filterMap]
      refine hbytes.trans ?_
      have hid : (Prod.snd ∘ fun x : Bytes => (MessageType.text, x)) = id := rfl
      rw [hid, List.map_id]
      exact (List.take_prefix _ _).trans (hs.sessions i).written

/-- One event on its way to the page. -/
def oneEvent : List Action :=
  [.adapter 0 (.producer .opened), .adapter 0 (.producer (.next (bytes "up"))),
    .adapter 0 (.writer .receive), .adapter 0 (.writer .written), .relay (.reader 0 .check),
    .relay (.reader 0 (.read .text (bytes "up"))), .relay (.reader 0 .send),
    .relay (.writer .message), .relay (.writer .written), .page (.socket 0 .onopen), .deliver 1]

theorem pane_faithful_one : ∃ s : State ⟨["a"], by simp⟩,
    Faithful noParse (Stream.items [.item (bytes "up")]) (s.page.streamData "a") ∧
      s.delivered = 1 :=
  ⟨_, pane_faithful noParse ⟨["a"], by simp⟩ (by decide) (fun _ => [.item (bytes "up")])
    (show AllClosed idle by simp [AllClosed, idle])
    (show execute (step noParse 0) (start _ _ idle) oneEvent = some _ from rfl) (i := 0) rfl (by decide), rfl⟩

end TSymbiote.Pipeline
