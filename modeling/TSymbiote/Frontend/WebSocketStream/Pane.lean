import TSymbiote.Frontend.WebSocketStream

/-! # The panes of one stream

While no other stream is started, the pane of each host is the text of the
messages its socket has delivered, in their order, from the moment it opened,
and at most one text at the end that says why the stream is over.
-/

namespace TSymbiote.Frontend.WebSocketStream

open Transition

section Text

variable (runtime : Runtime) (streamType : StreamType)

/-- What a decoded message adds to the pane of its host. -/
def shown (decodedMessage : String) : String :=
  if decodedMessage = "websocket closed" then getDisconnectMessage streamType
  else (getMessageFormatter runtime streamType decodedMessage).getD ""

def EventData.piece (hostId : String) : EventData → String
  | .hostMessage hostId' decodedMessage =>
      if hostId' = hostId then shown runtime streamType decodedMessage else ""
  | _ => ""

/-- The pane of a host after the messages of a socket. -/
def paneText (hostId : String) (got : List EventData) : String :=
  got.foldl (fun text data => text ++ data.piece runtime streamType hostId) ""

theorem paneText_concat (hostId : String) (got : List EventData) (data : EventData) :
    paneText runtime streamType hostId (got ++ [data]) =
      paneText runtime streamType hostId got ++ data.piece runtime streamType hostId := by
  unfold paneText
  rw [List.foldl_append]
  rfl

end Text

/-- What can stand at the end of a stream that is over. -/
def endings (streamType : StreamType) : List String :=
  ["", getDisconnectMessage streamType, "\n[connection timeout]"]

/-- How far the stream has got, by the state of its socket. -/
inductive Phase (runtime : Runtime) (streamType : StreamType) (hostIds : List String)
    (got : List EventData) (s : State) : ReadyState → Prop where
  | waiting {r : ReadyState} (hr : r = .connecting ∨ r = .closed) (hgot : got = [])
      (hpong : s.lastPongTime = 0)
      (hdata : ∀ hostId ∈ owning hostIds, s.streamData hostId = some (getConnectingMessage streamType)) :
      Phase runtime streamType hostIds got s r
  | live (hdata : ∀ hostId ∈ owning hostIds,
      s.streamData hostId = some (paneText runtime streamType hostId got)) :
      Phase runtime streamType hostIds got s .opened
  | ended {r : ReadyState} (hr : r = .closing ∨ r = .closed) (href : s.wsRef = none)
      (hdata : ∀ hostId ∈ owning hostIds, ∃ ending ∈ endings streamType,
        s.streamData hostId = some (paneText runtime streamType hostId got ++ ending)) :
      Phase runtime streamType hostIds got s r

/-- Socket `k` is the stream's, and every other one is closed. -/
structure Streaming (runtime : Runtime) (streamType : StreamType) (hostIds : List String) (k : Nat)
    (got : List EventData) (s : State) : Prop where
  socket : ∃ r, s.sockets[k]? = some ⟨streamType, hostIds, r⟩ ∧
    Phase runtime streamType hostIds got s r
  others : ∀ {j : Nat} {sock : Socket}, s.sockets[j]? = some sock → j ≠ k →
    sock.readyState = .closed
  current : ∀ {j}, s.wsRef = some j →
    j = k ∧ s.hostIdsRef = hostIds ∧ s.streamTypeRef = some streamType

/-- The message that socket `k` delivers in a step. -/
def heard (k : Nat) : Action → Option EventData
  | .socket i (.onmessage data _) => if i = k then some data else none
  | _ => none

def Action.starts : Action → Bool
  | .startStream _ _ _ => true
  | _ => false

variable {runtime : Runtime} {streamType : StreamType} {hostIds : List String} {k : Nat}
  {got : List EventData} {s t : State}

/-! ## Texts added to every pane -/

theorem mem_of_owning {hostId : String} (h : hostId ∈ owning hostIds) : hostId ∈ hostIds :=
  (List.mem_filter.mp h).1

theorem append_self (data : Record) (hostId text : String) :
    data.append hostId text hostId = some (data.read hostId ++ text) := by
  unfold Record.append
  rw [Function.update_self]

theorem append_of_ne {hostId other : String} (h : hostId ≠ other) (data : Record) (text : String) :
    data.append other text hostId = data hostId := by
  unfold Record.append
  rw [Function.update_of_ne h]

theorem appendAll_notMem {hostId : String} (h : hostId ∉ hostIds) (data : Record) (text : String) :
    data.appendAll hostIds text hostId = data hostId := by
  induction hostIds generalizing data with
  | nil => rfl
  | cons other rest ih =>
      have hne : hostId ≠ other := List.ne_of_not_mem_cons h
      have hrest : hostId ∉ rest := List.not_mem_of_not_mem_cons h
      exact (ih hrest (data.append other text)).trans (append_of_ne hne data text)

theorem appendAll_mem (hdistinct : hostIds.Nodup) {hostId : String} (h : hostId ∈ hostIds)
    (data : Record) (text : String) :
    data.appendAll hostIds text hostId = some (data.read hostId ++ text) := by
  induction hostIds generalizing data with
  | nil => cases h
  | cons other rest ih =>
      obtain ⟨hother, hrest⟩ := List.nodup_cons.mp hdistinct
      rcases List.mem_cons.mp h with heq | hmem
      · subst heq
        exact (appendAll_notMem hother (data.append hostId text) text).trans
          (append_self data hostId text)
      · have hne : hostId ≠ other := fun heq => hother (heq ▸ hmem)
        have hread : (data.append other text).read hostId = data.read hostId := by
          unfold Record.read
          rw [append_of_ne hne]
        refine (ih hrest hmem (data.append other text)).trans ?_
        rw [hread]

/-- An open socket closes, and `ending` is added to every pane or none is needed. -/
theorem Phase.close {s t : State} (hphase : Phase runtime streamType hostIds got s .opened)
    (href : t.wsRef = none) {r : ReadyState} (hr : r = .closing ∨ r = .closed)
    (hdata : ∀ hostId ∈ owning hostIds, ∃ ending ∈ endings streamType,
      t.streamData hostId = some (s.streamData.read hostId ++ ending)) :
    Phase runtime streamType hostIds got t r := by
  cases hphase with
  | waiting hr' => rcases hr' with hr' | hr' <;> cases hr'
  | ended hr' => rcases hr' with hr' | hr' <;> cases hr'
  | live hlive =>
      refine .ended hr href fun hostId hmem => ?_
      obtain ⟨ending, hending, htext⟩ := hdata hostId hmem
      refine ⟨ending, hending, ?_⟩
      rw [htext, read_some (hlive hostId hmem)]

/-- Steps that touch neither the panes nor the state of the socket. -/
theorem Phase.frame {s t : State} {r : ReadyState}
    (hphase : Phase runtime streamType hostIds got s r) (hdata : t.streamData = s.streamData)
    (href : s.wsRef = none → t.wsRef = none)
    (hpong : r ≠ .opened → s.lastPongTime = 0 → t.lastPongTime = 0) :
    Phase runtime streamType hostIds got t r := by
  cases hphase with
  | waiting hr hgot hzero hwaiting =>
      refine .waiting hr hgot (hpong ?_ hzero) (hdata ▸ hwaiting)
      rcases hr with hr | hr <;> simp [hr]
  | live hlive => exact .live (hdata ▸ hlive)
  | ended hr hnone hover => exact .ended hr (href hnone) (hdata ▸ hover)

theorem close_opened {sock : Socket} (hsock : s.sockets[k]? = some sock)
    (hopen : sock.readyState = .opened) :
    (s.close k).sockets = s.sockets.set k { sock with readyState := .closing } := by
  unfold State.close
  rw [hsock]
  dsimp only
  rw [if_pos (.inr hopen)]
  rfl

/-! ## One step -/

theorem set_others {j : Nat} {sock sock' : Socket}
    (hs : ∀ {j : Nat} {sock : Socket}, s.sockets[j]? = some sock → j ≠ k →
      sock.readyState = .closed)
    (h : (s.sockets.set k sock')[j]? = some sock) (hne : j ≠ k) : sock.readyState = .closed := by
  rw [List.getElem?_set_ne (Ne.symm hne)] at h
  exact hs h hne

theorem Streaming.opened (hs : Streaming runtime streamType hostIds k got s) {j : Nat}
    (h : s.openRef = some j) :
    j = k ∧ s.sockets[k]? = some ⟨streamType, hostIds, .opened⟩ ∧
      Phase runtime streamType hostIds got s .opened := by
  obtain ⟨href, sock, hsock, hopen⟩ := openRef_eq_some h
  obtain ⟨hjk, _⟩ := hs.current href
  obtain ⟨r, hr, hphase⟩ := hs.socket
  subst hjk
  cases hr.symm.trans hsock
  cases hopen
  exact ⟨rfl, hr, hphase⟩

theorem close_streamData (s : State) (i : Nat) : (s.close i).streamData = s.streamData := by
  unfold State.close
  split
  · split <;> rfl
  · rfl

/-- Closing the open socket ends the stream, with a text in every pane or none. -/
theorem Streaming.close (hs : Streaming runtime streamType hostIds k got s)
    (hsock : s.sockets[k]? = some ⟨streamType, hostIds, .opened⟩)
    (hphase : Phase runtime streamType hostIds got s .opened)
    (hsockets : t.sockets = (s.close k).sockets) (href : t.wsRef = none)
    (hdata : ∀ hostId ∈ owning hostIds, ∃ ending ∈ endings streamType,
      t.streamData hostId = some (s.streamData.read hostId ++ ending)) :
    Streaming runtime streamType hostIds k got t := by
  have hlt : k < s.sockets.length := (List.getElem?_eq_some_iff.mp hsock).choose
  rw [close_opened hsock rfl] at hsockets
  refine ⟨⟨.closing, ?_, hphase.close href (.inl rfl) hdata⟩, ?_, ?_⟩
  · rw [hsockets, List.getElem?_set_self hlt]
  · intro j sock hj hne
    rw [hsockets] at hj
    exact set_others hs.others hj hne
  · intro j hj
    rw [href] at hj
    cases hj

theorem Phase.text (hphase : Phase runtime streamType hostIds got s .opened) {hostId : String}
    (hmem : hostId ∈ owning hostIds) :
    s.streamData hostId = some (paneText runtime streamType hostId got) := by
  cases hphase with
  | waiting hr => rcases hr with hr | hr <;> cases hr
  | ended hr => rcases hr with hr | hr <;> cases hr
  | live hlive => exact hlive hostId hmem

theorem Streaming.cancel (hs : Streaming runtime streamType hostIds k got s)
    (hdistinct : hostIds.Nodup) (b : Bool) :
    Streaming runtime streamType hostIds k got (cancelStreaming b s) := by
  have hopen : { s with pingIntervalRef := false }.openRef = s.openRef := rfl
  unfold cancelStreaming
  dsimp only
  rw [hopen]
  cases href : s.openRef with
  | none =>
      obtain ⟨r, hr, hphase⟩ := hs.socket
      exact ⟨⟨r, hr, hphase.frame rfl (fun _ => rfl) fun _ _ => rfl⟩, hs.others, nofun⟩
  | some j =>
      obtain ⟨rfl, hsock, hphase⟩ := hs.opened href
      obtain ⟨_, hhosts, htype⟩ := hs.current (openRef_eq_some href).1
      cases b with
      | false =>
          have hsockets : ({ s with pingIntervalRef := false }.close j).sockets = (s.close j).sockets :=
            close_congr (by rfl) j
          refine hs.close hsock hphase hsockets rfl fun hostId hmem => ?_
          refine ⟨"", by simp [endings], ?_⟩
          have hpanes := congrFun (close_streamData { s with pingIntervalRef := false } j) hostId
          refine hpanes.trans ?_
          dsimp only
          rw [hphase.text hmem, read_some (hphase.text hmem), String.append_empty]
      | true =>
          dsimp only
          rw [htype]
          refine hs.close hsock hphase ?_ rfl fun hostId hmem => ?_
          · dsimp only [State.clearRefs]
            exact close_congr (by rfl) j
          refine ⟨getDisconnectMessage streamType, by simp [endings], ?_⟩
          refine (congrFun (close_streamData _ j) hostId).trans ?_
          rw [hhosts]
          exact appendAll_mem hdistinct (mem_of_owning hmem) s.streamData _

theorem Streaming.keepalive (hs : Streaming runtime streamType hostIds k got s)
    (hdistinct : hostIds.Nodup) (now : Nat) :
    Streaming runtime streamType hostIds k got (keepalive now s) := by
  unfold WebSocketStream.keepalive
  split
  · exact hs
  · next j href =>
      obtain ⟨rfl, hhosts, htype⟩ := hs.current href
      obtain ⟨r, hr, hphase⟩ := hs.socket
      split
      · next htimeout =>
          cases hphase with
          | waiting _ _ hzero => omega
          | ended _ hnone => cases hnone.symm.trans href
          | live hlive =>
              refine hs.close hr (.live hlive) (close_congr (by rfl) j) (close_frame _ j).1
                fun hostId hmem => ?_
              refine ⟨"\n[connection timeout]", by simp [endings], ?_⟩
              refine (congrFun (close_streamData _ j) hostId).trans ?_
              rw [hhosts]
              exact appendAll_mem hdistinct (mem_of_owning hmem) s.streamData _
      · split
        · next hping =>
            obtain ⟨i, hi⟩ := Option.isSome_iff_exists.mp hping.1
            obtain ⟨_, hopened, hopen⟩ := hs.opened hi
            refine ⟨⟨.opened, hopened, hopen.frame rfl id fun hne => absurd rfl hne⟩, hs.others, ?_⟩
            exact hs.current
        · exact hs

/-- A message is added to the pane of its host and to no other. -/
theorem onmessage_text {sock : Socket} (now : Nat) (data : EventData) {hostId : String}
    (hmem : ∃ text, s.streamData hostId = some text) :
    (onmessage runtime sock s now data).streamData hostId =
      some (s.streamData.read hostId ++ data.piece runtime sock.streamType hostId) := by
  have hsame : s.streamData hostId = some (s.streamData.read hostId ++ "") := by
    obtain ⟨text, htext⟩ := hmem
    rw [htext, read_some htext, String.append_empty]
  cases data with
  | pong => exact hsame
  | malformed => exact hsame
  | hostMessage hostId' decodedMessage =>
      unfold onmessage EventData.piece shown
      dsimp only
      by_cases hhost : hostId' = hostId
      · subst hhost
        rw [if_pos rfl]
        split
        · exact append_self _ _ _
        · split
          · next formattedMessage hformatted =>
              rw [hformatted]
              exact append_self _ _ _
          · next hformatted =>
              rw [hformatted]
              exact hsame
      · rw [if_neg hhost]
        split
        · exact (append_of_ne (Ne.symm hhost) _ _).trans hsame
        · split
          · exact (append_of_ne (Ne.symm hhost) _ _).trans hsame
          · exact hsame

theorem onmessage_refs (runtime : Runtime) (sock : Socket) (s : State) (now : Nat) (data : EventData) :
    (onmessage runtime sock s now data).hostIdsRef = s.hostIdsRef ∧
      (onmessage runtime sock s now data).streamTypeRef = s.streamTypeRef := by
  cases data with
  | pong => exact ⟨rfl, rfl⟩
  | malformed => exact ⟨rfl, rfl⟩
  | hostMessage hostId decodedMessage =>
      unfold onmessage
      dsimp only
      split
      · exact ⟨rfl, rfl⟩
      · split <;> exact ⟨rfl, rfl⟩

/-- The socket opens: the panes are cleared. -/
theorem Streaming.onopen (hs : Streaming runtime streamType hostIds k got s)
    (hsock : s.sockets[k]? = some ⟨streamType, hostIds, .connecting⟩) :
    Streaming runtime streamType hostIds k got
      { s.setReadyState k ⟨streamType, hostIds, .connecting⟩ .opened with
        streamData := .of hostIds "" } := by
  obtain ⟨r, hr, hphase⟩ := hs.socket
  cases hr.symm.trans hsock
  have hgot : got = [] := by
    cases hphase with
    | waiting _ hgot => exact hgot
    | ended hr => rcases hr with hr | hr <;> cases hr
  have hlt : k < s.sockets.length := (List.getElem?_eq_some_iff.mp hsock).choose
  refine ⟨⟨.opened, List.getElem?_set_self hlt, .live fun hostId hmem => ?_⟩, ?_, hs.current⟩
  · rw [hgot]
    exact if_pos hmem
  · exact fun hj hne => set_others hs.others hj hne

theorem Streaming.onmessage (hs : Streaming runtime streamType hostIds k got s)
    (hsock : s.sockets[k]? = some ⟨streamType, hostIds, .opened⟩) (data : EventData) (now : Nat) :
    Streaming runtime streamType hostIds k (got ++ [data])
      (onmessage runtime ⟨streamType, hostIds, .opened⟩ s now data) := by
  obtain ⟨r, hr, hphase⟩ := hs.socket
  cases hr.symm.trans hsock
  obtain ⟨hsockets, href, _⟩ := onmessage_frame runtime ⟨streamType, hostIds, .opened⟩ s now data
  obtain ⟨hhosts, htype⟩ := onmessage_refs runtime ⟨streamType, hostIds, .opened⟩ s now data
  refine ⟨⟨.opened, hsockets ▸ hsock, .live fun hostId hmem => ?_⟩, ?_, ?_⟩
  · have htext := hphase.text hmem
    rw [onmessage_text now data ⟨_, htext⟩, read_some htext, paneText_concat]
  · intro j sock hj
    rw [hsockets] at hj
    exact hs.others hj
  · intro j hj
    rw [href] at hj
    rw [hhosts, htype]
    exact hs.current hj

/-- The socket is gone: so is the stream. -/
theorem Streaming.onclose (hs : Streaming runtime streamType hostIds k got s) {r : ReadyState}
    (hsock : s.sockets[k]? = some ⟨streamType, hostIds, r⟩) (halive : r ≠ .closed)
    (hsockets : t.sockets = s.sockets.set k ⟨streamType, hostIds, .closed⟩)
    (hdata : t.streamData = s.streamData) (href : t.wsRef = none)
    (hpong : s.lastPongTime = 0 → t.lastPongTime = 0) :
    Streaming runtime streamType hostIds k got t := by
  obtain ⟨r', hr, hphase⟩ := hs.socket
  cases hr.symm.trans hsock
  have hlt : k < s.sockets.length := (List.getElem?_eq_some_iff.mp hsock).choose
  refine ⟨⟨.closed, ?_, ?_⟩, ?_, ?_⟩
  · rw [hsockets, List.getElem?_set_self hlt]
  · cases hphase with
    | waiting _ hgot hzero hwaiting =>
        exact .waiting (.inr rfl) hgot (hpong hzero) (hdata ▸ hwaiting)
    | live hlive =>
        refine Phase.close (.live hlive) href (.inr rfl) fun hostId hmem => ?_
        refine ⟨"", by simp [endings], ?_⟩
        rw [hdata, hlive hostId hmem, read_some (hlive hostId hmem), String.append_empty]
    | ended _ _ hover => exact .ended (.inr rfl) href (hdata ▸ hover)
  · intro j sock hj hne
    rw [hsockets] at hj
    exact set_others hs.others hj hne
  · intro j hj
    rw [href] at hj
    cases hj

theorem Streaming.event (hs : Streaming runtime streamType hostIds k got s) {j : Nat}
    {sock : Socket} {event : SocketEvent} (hsock : s.sockets[j]? = some sock)
    (h : socketEvent runtime j sock s event = some t) :
    Streaming runtime streamType hostIds k (got ++ (heard k (.socket j event)).toList) t := by
  have halive : j ≠ k → sock.readyState = .closed := hs.others hsock
  obtain ⟨r, hr, _⟩ := hs.socket
  cases event with
  | onopen =>
      obtain ⟨hready, rfl⟩ := onopen_spec h
      have hjk : j = k := by
        by_contra hne
        cases hready.symm.trans (halive hne)
      subst hjk
      cases hr.symm.trans hsock
      cases hready
      rw [show heard j (.socket j .onopen) = none from rfl, Option.toList_none, List.append_nil]
      exact hs.onopen hsock
  | onmessage data now =>
      obtain ⟨hready, rfl⟩ := onmessage_spec h
      have hjk : j = k := by
        by_contra hne
        cases hready.symm.trans (halive hne)
      subst hjk
      cases hr.symm.trans hsock
      cases hready
      have hheard : heard j (.socket j (.onmessage data now)) = some data := if_pos rfl
      rw [hheard, Option.toList_some]
      exact hs.onmessage hsock data now
  | onclose =>
      obtain ⟨hopen, ht⟩ := onclose_spec h
      have hjk : j = k := by
        by_contra hne
        exact hopen (halive hne)
      subst hjk
      cases hr.symm.trans hsock
      rw [show heard j (.socket j .onclose) = none from rfl, Option.toList_none, List.append_nil]
      rcases ht with rfl | ⟨hnone, rfl⟩
      · exact hs.onclose hsock hopen rfl rfl rfl fun _ => rfl
      · exact hs.onclose hsock hopen rfl rfl hnone id

theorem step_streaming (hdistinct : hostIds.Nodup)
    (hs : Streaming runtime streamType hostIds k got s) {a : Action} (ha : a.starts = false)
    (h : step runtime s a = some t) :
    Streaming runtime streamType hostIds k (got ++ (heard k a).toList) t := by
  cases a with
  | startStream streamType' hostIds' constructs => cases ha
  | cancelStreaming b =>
      cases h
      rw [show heard k (.cancelStreaming b) = none from rfl, Option.toList_none, List.append_nil]
      exact hs.cancel hdistinct b
  | tick now =>
      rw [show heard k (.tick now) = none from rfl, Option.toList_none, List.append_nil]
      unfold step at h
      dsimp only at h
      split at h
      · cases h
        exact hs.keepalive hdistinct now
      · contradiction
  | socket j event =>
      obtain ⟨sock, hsock, h⟩ := Option.bind_eq_some_iff.mp h
      exact hs.event hsock h

/-! ## Runs -/

theorem filterMap_concat {α β : Type} (f : α → Option β) (past : List α) (a : α) :
    (past ++ [a]).filterMap f = past.filterMap f ++ (f a).toList := by
  rw [List.filterMap_append]
  cases hf : f a with
  | none => rw [List.filterMap_cons_none hf, List.filterMap_nil, Option.toList_none]
  | some b => rw [List.filterMap_cons_some hf, List.filterMap_nil, Option.toList_some]

/-- All sockets of the streams before are closed. -/
def AllClosed (s : State) : Prop := ∀ sock ∈ s.sockets, sock.readyState = .closed

theorem start_streaming (runtime : Runtime) (streamType : StreamType) (hne : hostIds ≠ [])
    (hclosed : AllClosed s) :
    Streaming runtime streamType hostIds s.sockets.length []
      (startStream streamType hostIds true s) := by
  have hnone : s.openRef = none := by
    cases href : s.openRef with
    | none => rfl
    | some i =>
        obtain ⟨_, sock, hsock, hopen⟩ := openRef_eq_some href
        have hready := hclosed sock (List.mem_of_getElem? hsock)
        rw [hopen] at hready
        cases hready
  have hsockets : (cancelStreaming false s).sockets = s.sockets := by
    rw [cancelStreaming_sockets, hnone]
  have hpong : (cancelStreaming false s).lastPongTime = 0 := by
    have hopen : { s with pingIntervalRef := false }.openRef = s.openRef := rfl
    unfold cancelStreaming
    dsimp only
    rw [hopen, hnone]
    rfl
  unfold startStream
  dsimp only
  rw [if_neg hne, if_pos rfl, hsockets]
  refine ⟨⟨.connecting, ?_, .waiting (.inl rfl) rfl hpong fun hostId hmem => if_pos hmem⟩, ?_, ?_⟩
  · exact List.getElem?_concat_length
  · intro j sock hj hother
    rcases Nat.lt_or_ge j s.sockets.length with hlt | hge
    · rw [List.getElem?_append_left hlt] at hj
      exact hclosed sock (List.mem_of_getElem? hj)
    · have hlen := (List.getElem?_eq_some_iff.mp hj).choose
      rw [List.length_append, List.length_singleton] at hlen
      omega
  · intro j hj
    cases hj
    exact ⟨rfl, rfl, rfl⟩

/-- What the pane of a host of the stream shows, if it has one. -/
def PaneShows (runtime : Runtime) (streamType : StreamType) (hostId : String)
    (got : List EventData) (pane : Option String) : Prop :=
  pane = some (getConnectingMessage streamType) ∧ got = [] ∨
    ∃ ending ∈ endings streamType, pane = some (paneText runtime streamType hostId got ++ ending)

theorem Streaming.pane (hs : Streaming runtime streamType hostIds k got s) {hostId : String}
    (hmem : hostId ∈ hostIds) (hproto : hostId ≠ "__proto__") :
    PaneShows runtime streamType hostId got (s.streamData hostId) := by
  have howning : hostId ∈ owning hostIds := List.mem_filter.mpr ⟨hmem, decide_eq_true hproto⟩
  obtain ⟨r, _, hphase⟩ := hs.socket
  cases hphase with
  | waiting _ hgot _ hwaiting => exact .inl ⟨hwaiting hostId howning, hgot⟩
  | live hlive =>
      refine .inr ⟨"", by simp [endings], ?_⟩
      rw [hlive hostId howning, String.append_empty]
  | ended _ _ hover => exact .inr (hover hostId howning)

/-- Whatever happens after a stream is started, short of starting another one:
each pane says that the stream is connecting, or it is the text of the messages
for its host that the socket has delivered, all of them in order, with at most
one ending. -/
theorem pane_shows (runtime : Runtime) (streamType : StreamType) (hdistinct : hostIds.Nodup)
    (hne : hostIds ≠ []) (hclosed : AllClosed s) {as : List Action}
    (hlater : ∀ a ∈ as, a.starts = false)
    (h : execute (step runtime) (startStream streamType hostIds true s) as = some t)
    {hostId : String} (hmem : hostId ∈ hostIds) (hproto : hostId ≠ "__proto__") :
    PaneShows runtime streamType hostId (as.filterMap (heard s.sockets.length))
      (t.streamData hostId) := by
  let P (past : List Action) (u : State) : Prop :=
    Streaming runtime streamType hostIds s.sockets.length
      (past.filterMap (heard s.sockets.length)) u
  have hstart : P [] (startStream streamType hostIds true s) :=
    start_streaming runtime streamType hne hclosed
  have hs : P ([] ++ as) t := by
    refine execute_invariant_on ?_ hlater hstart h
    intro past u a v hu ha hv
    unfold P
    rw [filterMap_concat]
    exact step_streaming hdistinct hu ha hv
  exact hs.pane hmem hproto

/-- A runtime in which nothing parses. -/
def noParse : Runtime := ⟨fun _ => none, fun _ => false, fun _ => "", fun _ => ""⟩

theorem pane_shows_event : ∃ t : State,
    PaneShows noParse .busEvents "a" [.hostMessage "a" "up"] (t.streamData "a") ∧
      t.streamData "a" = some "up\n" :=
  ⟨_, pane_shows (s := idle) noParse .busEvents (show ["a"].Nodup by decide) (by decide)
    (by simp [AllClosed, idle])
    (show ∀ a ∈ [Action.socket 0 .onopen, .socket 0 (.onmessage (.hostMessage "a" "up") 1)],
      a.starts = false by decide) rfl (by decide) (by decide), by decide⟩

end TSymbiote.Frontend.WebSocketStream
