import TSymbiote.Frontend.WebSocketStream

/-! # The browser's sockets

Every socket the hook creates should be held in `wsRef` until it is closed. Beside
the hook's own callbacks a page sees the component unmount, sockets fail, and
servers close them from their side; `closeCalled` notes what `close()` was called
on. A socket that leaves `wsRef` without that stays with the browser.
-/

namespace TSymbiote.Frontend.WebSocketStream

open Transition

/-! ## The page -/

structure Page where
  hook : State
  closeCalled : List Nat

/-- `serverClosing` is the server's close frame: the socket is CLOSING, though
nobody on the page has called `close()`. -/
inductive Event where
  | call (a : Action)
  | unmount
  | onerror (i : Nat)
  | serverClosing (i : Nat)
  deriving DecidableEq, Repr

/-- The cleanup of the effect. The interval is cleared with the refs. -/
def unmount (s : State) : State :=
  let s := { s with pingIntervalRef := false }
  match s.wsRef with
  | some i =>
      { s.close i with wsRef := none, hostIdsRef := [], streamTypeRef := none, lastPongTime := 0 }
  | none => { s with hostIdsRef := [], streamTypeRef := none, lastPongTime := 0 }

/-- The socket that a callback calls `close()` on. -/
def closes (s : State) : Action → Option Nat
  | .startStream _ _ _ => s.openRef
  | .cancelStreaming _ => s.openRef
  | .tick now => if 0 < s.lastPongTime ∧ pongTimeout < now - s.lastPongTime then s.wsRef else none
  | .socket _ _ => none

def Page.step (runtime : Runtime) (p : Page) : Event → Option Page
  | .call a =>
      (WebSocketStream.step runtime p.hook a).map fun t =>
        { hook := t, closeCalled := p.closeCalled ++ (closes p.hook a).toList }
  | .unmount => some { hook := unmount p.hook, closeCalled := p.closeCalled ++ p.hook.wsRef.toList }
  | .onerror i =>
      -- The handler only logs; the close event follows.
      match p.hook.sockets[i]? with
      | some sock => if sock.readyState = .closed then none else some p
      | none => none
  | .serverClosing i =>
      match p.hook.sockets[i]? with
      | some sock =>
          if sock.readyState = .opened then some { p with hook := p.hook.setReadyState i sock .closing }
          else none
      | none => none

def blank : Page := ⟨idle, []⟩

/-- Some socket outside `wsRef` is not closed, and nobody has called `close()` on it. -/
def Unclosed (p : Page) : Prop :=
  ∃ i sock, p.hook.sockets[i]? = some sock ∧ p.hook.wsRef ≠ some i ∧ sock.readyState ≠ .closed ∧
    i ∉ p.closeCalled

/-- A stream is cancelled or started anew only when the current socket is OPEN,
and while there is a current socket no other one closes. -/
def Careful (p : Page) : Event → Prop
  | .call (.startStream _ _ _) => ∀ i, p.hook.wsRef = some i → p.hook.openRef = some i
  | .call (.cancelStreaming _) => ∀ i, p.hook.wsRef = some i → p.hook.openRef = some i
  | .call (.socket i .onclose) => ∀ j, p.hook.wsRef = some j → j = i
  | _ => True

variable {runtime : Runtime} {s t : State} {called : List Nat} {p q : Page}

/-- The keepalive closes the current socket, or leaves the sockets alone. -/
theorem keepalive_cases (now : Nat) (s : State) :
    (closes s (.tick now) = none ∧ (keepalive now s).sockets = s.sockets ∧
        (keepalive now s).wsRef = s.wsRef) ∨
      ∃ i, closes s (.tick now) = some i ∧ s.wsRef = some i ∧
        (keepalive now s).sockets = (s.close i).sockets ∧ (keepalive now s).wsRef = none := by
  unfold closes keepalive
  dsimp only
  by_cases htimeout : 0 < s.lastPongTime ∧ pongTimeout < now - s.lastPongTime
  · simp only [if_pos htimeout]
    split
    · next hws => exact .inl ⟨hws, rfl, rfl⟩
    · next i hws =>
        right
        refine ⟨i, hws, hws, ?_, (close_frame _ i).1⟩
        apply close_congr
        rfl
  · simp only [if_neg htimeout]
    left
    refine ⟨trivial, ?_⟩
    split
    · exact ⟨rfl, rfl⟩
    · split <;> exact ⟨rfl, rfl⟩

/-- The callbacks do to the sockets that are there what `close()` does to the one
they call it on, and nothing else. -/
theorem closes_sockets {a : Action} (ha : ∀ i event, a ≠ .socket i event)
    (h : WebSocketStream.step runtime s a = some t) {i : Nat} (hi : i < s.sockets.length) :
    t.sockets[i]? = ((closes s a).elim s s.close).sockets[i]? := by
  have hcancelled : ∀ b, (cancelStreaming b s).sockets = (s.openRef.elim s s.close).sockets := by
    intro b
    rw [cancelStreaming_sockets]
    cases s.openRef <;> rfl
  cases a with
  | startStream streamType hostIds constructs =>
      cases h
      by_cases hcreates : Creates hostIds constructs
      · obtain ⟨_, _, _, hsockets⟩ := startStream_creates streamType hcreates s
        have hlen : (s.openRef.elim s s.close).sockets.length = s.sockets.length := by
          cases s.openRef with
          | none => rfl
          | some j => exact close_length s j
        rw [hsockets, hcancelled, List.getElem?_append_left (hlen ▸ hi)]
        rfl
      · rw [(startStream_refs streamType hcreates s).2.2, hcancelled]
        rfl
  | cancelStreaming b =>
      cases h
      rw [hcancelled]
      rfl
  | tick now =>
      unfold WebSocketStream.step at h
      dsimp only at h
      split at h
      · cases h
        rcases keepalive_cases now s with ⟨hcloses, hsockets, _⟩ | ⟨j, hcloses, _, hsockets, _⟩
        · rw [hcloses, hsockets]
          rfl
        · rw [hcloses, hsockets]
          rfl
      · contradiction
  | socket j event => exact absurd rfl (ha j event)

/-! ## Pages without such sockets -/

/-- The current socket is not closed, nor has `close()` been called on it; every
other socket is closed or has been told to. -/
structure Tidy (s : State) (called : List Nat) : Prop where
  live : ∀ {i}, s.wsRef = some i →
    i ∉ called ∧ ∃ sock, s.sockets[i]? = some sock ∧ sock.readyState ≠ .closed
  range : ∀ {i}, i ∈ called → i < s.sockets.length
  closed : ∀ {i sock}, s.sockets[i]? = some sock → s.wsRef ≠ some i → sock.readyState ≠ .closed →
    i ∈ called

theorem tidy_blank : Tidy idle [] where
  live h := by cases h
  range h := by cases h
  closed h := by cases h

theorem Tidy.not_unclosed (h : Tidy p.hook p.closeCalled) : ¬ Unclosed p := by
  intro hunclosed
  rcases hunclosed with ⟨i, sock, hsock, href, halive, hcalled⟩
  exact hcalled (h.closed hsock href halive)

theorem Tidy.keep (h : Tidy s called) (hsockets : t.sockets = s.sockets) (href : t.wsRef = s.wsRef) :
    Tidy t called where
  live hi := by
    rw [hsockets]
    exact h.live (href ▸ hi)
  range hi := by
    rw [hsockets]
    exact h.range hi
  closed hsock hne halive := h.closed (hsockets ▸ hsock) (href ▸ hne) halive

/-- The current socket is closed and leaves `wsRef`. -/
theorem Tidy.close {i : Nat} (h : Tidy s called) (hi : s.wsRef = some i)
    (hsockets : t.sockets = (s.close i).sockets) (href : t.wsRef = none) :
    Tidy t (called ++ [i]) := by
  constructor
  · intro j hj
    rw [href] at hj
    cases hj
  · intro j hj
    rw [hsockets, close_length]
    rcases List.mem_append.mp hj with hj | hj
    · exact h.range hj
    · obtain ⟨_, sock, hsock, _⟩ := h.live hi
      rw [List.mem_singleton.mp hj]
      exact (List.getElem?_eq_some_iff.mp hsock).choose
  · intro j sock hsock _ halive
    rw [hsockets] at hsock
    by_cases hji : j = i
    · rw [hji]
      exact List.mem_append_right called (List.mem_singleton_self i)
    · rcases close_getElem? hsock with ⟨hold, _⟩ | ⟨heq, _⟩
      · refine List.mem_append_left _ (h.closed hold ?_ halive)
        rw [hi]
        exact fun heq => hji (Option.some.inj heq).symm
      · exact absurd heq hji

theorem Tidy.create (h : Tidy s called) {sock : Socket} (hnew : sock.readyState ≠ .closed)
    (hnone : s.wsRef = none) (hsockets : t.sockets = s.sockets ++ [sock])
    (href : t.wsRef = some s.sockets.length) : Tidy t called := by
  constructor
  · intro i hi
    rw [href] at hi
    cases hi
    constructor
    · exact fun hcalled => absurd (h.range hcalled) (Nat.lt_irrefl _)
    · refine ⟨sock, ?_, hnew⟩
      rw [hsockets, List.getElem?_concat_length]
  · intro i hi
    rw [hsockets, List.length_append]
    exact Nat.lt_add_right _ (h.range hi)
  · intro i other hother hne halive
    have hlt : i < s.sockets.length := by
      have hlen := (List.getElem?_eq_some_iff.mp hother).choose
      rw [hsockets, List.length_append, List.length_singleton] at hlen
      have hi : i ≠ s.sockets.length := fun heq => hne (heq ▸ href)
      omega
    rw [hsockets, List.getElem?_append_left hlt] at hother
    refine h.closed hother ?_ halive
    rw [hnone]
    exact (Option.some_ne_none i).symm

/-- A socket that is not closed moves on, to any state but CLOSED. -/
theorem Tidy.setReadyState (h : Tidy s called) {i : Nat} {sock : Socket} {readyState : ReadyState}
    (hsock : s.sockets[i]? = some sock) (hold : sock.readyState ≠ .closed)
    (hnew : readyState ≠ .closed) : Tidy (s.setReadyState i sock readyState) called := by
  have hlt := (List.getElem?_eq_some_iff.mp hsock).choose
  constructor
  · intro j hj
    obtain ⟨hcalled, old, hget, halive⟩ := h.live hj
    refine ⟨hcalled, ?_⟩
    by_cases hji : j = i
    · subst hji
      exact ⟨_, List.getElem?_set_self hlt, hnew⟩
    · refine ⟨old, ?_, halive⟩
      rw [State.setReadyState, List.getElem?_set_ne (Ne.symm hji)]
      exact hget
  · intro j hj
    rw [State.setReadyState, List.length_set]
    exact h.range hj
  · intro j other hother hne halive
    rcases setReadyState_getElem? hother with ⟨hji, _⟩ | ⟨_, hget⟩
    · subst hji
      exact h.closed hsock hne hold
    · exact h.closed hget hne halive

/-- A socket closes while no other is current. -/
theorem Tidy.closeEvent (h : Tidy s called) {i : Nat} {sock : Socket}
    (hother : ∀ j, s.wsRef = some j → j = i)
    (hsockets : t.sockets = (s.setReadyState i sock .closed).sockets) (href : t.wsRef = none) :
    Tidy t called := by
  constructor
  · intro j hj
    rw [href] at hj
    cases hj
  · intro j hj
    rw [hsockets, State.setReadyState, List.length_set]
    exact h.range hj
  · intro j other hget _ halive
    rw [hsockets] at hget
    rcases setReadyState_getElem? hget with ⟨_, hclosed⟩ | ⟨hji, hold⟩
    · exact absurd hclosed halive
    · exact h.closed hold (fun hj => hji (hother j hj)) halive

/-! ## Steps of a careful page -/

theorem cancelStreaming_tidy (h : Tidy s called) (hopen : ∀ i, s.wsRef = some i → s.openRef = some i)
    (b : Bool) : Tidy (cancelStreaming b s) (called ++ s.openRef.toList) := by
  have hsockets := cancelStreaming_sockets b s
  have href := (cancelStreaming_refs b s).1
  cases hcurrent : s.openRef with
  | some i =>
      rw [hcurrent] at hsockets
      exact h.close (openRef_eq_some hcurrent).1 hsockets href
  | none =>
      rw [hcurrent] at hsockets
      rw [Option.toList_none, List.append_nil]
      refine h.keep hsockets ?_
      cases hws : s.wsRef with
      | none => exact href
      | some i => exact absurd ((hopen i hws).symm.trans hcurrent) (Option.some_ne_none i)

theorem startStream_tidy (h : Tidy s called) (hopen : ∀ i, s.wsRef = some i → s.openRef = some i)
    (streamType : StreamType) (hostIds : List String) (constructs : Bool) :
    Tidy (startStream streamType hostIds constructs s) (called ++ s.openRef.toList) := by
  have hcancelled := cancelStreaming_tidy h hopen false
  have hnone := (cancelStreaming_refs false s).1
  by_cases hcreates : Creates hostIds constructs
  · obtain ⟨_, href, _, hsockets⟩ := startStream_creates streamType hcreates s
    exact hcancelled.create (by simp) hnone hsockets href
  · obtain ⟨_, href, hsockets⟩ := startStream_refs streamType hcreates s
    exact hcancelled.keep hsockets (href.trans hnone.symm)

theorem keepalive_tidy (h : Tidy s called) (now : Nat) :
    Tidy (keepalive now s) (called ++ (closes s (.tick now)).toList) := by
  rcases keepalive_cases now s with ⟨hcloses, hsockets, href⟩ | ⟨i, hcloses, hws, hsockets, href⟩
  · rw [hcloses, Option.toList_none, List.append_nil]
    exact h.keep hsockets href
  · rw [hcloses]
    exact h.close hws hsockets href

theorem socketEvent_tidy (h : Tidy s called) {i : Nat} {sock : Socket} {event : SocketEvent}
    (hsock : s.sockets[i]? = some sock) (hother : event = .onclose → ∀ j, s.wsRef = some j → j = i)
    (hstep : socketEvent runtime i sock s event = some t) : Tidy t called := by
  cases event with
  | onopen =>
      obtain ⟨hready, ht⟩ := onopen_spec hstep
      subst ht
      exact (h.setReadyState hsock (by simp [hready]) (by simp)).keep rfl rfl
  | onmessage data now =>
      obtain ⟨_, ht⟩ := onmessage_spec hstep
      subst ht
      obtain ⟨hsockets, href, _⟩ := onmessage_frame runtime sock s now data
      exact h.keep hsockets href
  | onclose =>
      obtain ⟨_, ht | ⟨hnone, ht⟩⟩ := onclose_spec hstep
      · subst ht
        exact h.closeEvent (hother rfl) rfl rfl
      · subst ht
        exact h.closeEvent (hother rfl) rfl hnone

theorem unmount_tidy (h : Tidy s called) : Tidy (unmount s) (called ++ s.wsRef.toList) := by
  unfold unmount
  dsimp only
  split
  · next i hws =>
      rw [hws]
      refine h.close hws ?_ rfl
      apply close_congr
      rfl
  · next hws =>
      rw [hws, Option.toList_none, List.append_nil]
      exact h.keep rfl hws.symm

theorem action_tidy {a : Action} (h : Tidy p.hook p.closeCalled) (hok : Careful p (.call a))
    (ht : WebSocketStream.step runtime p.hook a = some t) :
    Tidy t (p.closeCalled ++ (closes p.hook a).toList) := by
  cases a with
  | startStream streamType hostIds constructs =>
      cases ht
      exact startStream_tidy h hok streamType hostIds constructs
  | cancelStreaming b =>
      cases ht
      exact cancelStreaming_tidy h hok b
  | tick now =>
      unfold WebSocketStream.step at ht
      dsimp only at ht
      split at ht
      · cases ht
        exact keepalive_tidy h now
      · contradiction
  | socket i event =>
      obtain ⟨sock, hsock, ht⟩ := Option.bind_eq_some_iff.mp ht
      rw [closes, Option.toList_none, List.append_nil]
      refine socketEvent_tidy h hsock ?_ ht
      intro hclose
      subst hclose
      exact hok

theorem pageStep_tidy {event : Event} (h : Tidy p.hook p.closeCalled) (hok : Careful p event)
    (hstep : p.step runtime event = some q) : Tidy q.hook q.closeCalled := by
  cases event with
  | call a =>
      obtain ⟨t, ht, hq⟩ := Option.map_eq_some_iff.mp hstep
      subst hq
      exact action_tidy h hok ht
  | unmount =>
      cases hstep
      exact unmount_tidy h
  | onerror i =>
      unfold Page.step at hstep
      dsimp only at hstep
      split at hstep
      · split at hstep
        · contradiction
        · cases hstep
          exact h
      · contradiction
  | serverClosing i =>
      unfold Page.step at hstep
      dsimp only at hstep
      split at hstep
      · next sock hsock =>
          split at hstep
          · next hready =>
              cases hstep
              exact h.setReadyState hsock (by simp [hready]) (by simp)
          · contradiction
      · contradiction

/-! ## Sockets that are dropped -/

theorem Tidy.unopened (h : Tidy s called) (hopen : ¬ ∀ i, s.wsRef = some i → s.openRef = some i) :
    ∃ i sock, s.wsRef = some i ∧ s.openRef = none ∧ s.sockets[i]? = some sock ∧
      sock.readyState ≠ .closed := by
  obtain ⟨i, hi⟩ := not_forall.mp hopen
  obtain ⟨hws, hne⟩ := Classical.not_imp.mp hi
  obtain ⟨_, sock, hsock, halive⟩ := h.live hws
  refine ⟨i, sock, hws, ?_, hsock, halive⟩
  cases hcurrent : s.openRef with
  | none => rfl
  | some j =>
      have hj := (openRef_eq_some hcurrent).1
      rw [← hj.symm.trans hws] at hne
      exact absurd hcurrent hne

/-- `cancelStreaming` forgets a socket that is not OPEN. -/
theorem cancelStreaming_drops (hcurrent : s.openRef = none) (b : Bool) :
    (cancelStreaming b s).sockets = s.sockets ∧ (cancelStreaming b s).wsRef = none := by
  have hsockets := cancelStreaming_sockets b s
  rw [hcurrent] at hsockets
  exact ⟨hsockets, (cancelStreaming_refs b s).1⟩

theorem startStream_drops (hcurrent : s.openRef = none) (streamType : StreamType)
    (hostIds : List String) (constructs : Bool) {i : Nat} {sock : Socket}
    (hsock : s.sockets[i]? = some sock) :
    (startStream streamType hostIds constructs s).sockets[i]? = some sock ∧
      (startStream streamType hostIds constructs s).wsRef ≠ some i := by
  have hlt := (List.getElem?_eq_some_iff.mp hsock).choose
  have hkept := (cancelStreaming_drops hcurrent false).1
  by_cases hcreates : Creates hostIds constructs
  · obtain ⟨_, href, _, hsockets⟩ := startStream_creates streamType hcreates s
    rw [hsockets, href, hkept]
    constructor
    · rw [List.getElem?_append_left hlt, hsock]
    · intro heq
      exact Nat.lt_irrefl _ (Option.some.inj heq ▸ hlt)
  · obtain ⟨_, href, hsockets⟩ := startStream_refs streamType hcreates s
    rw [hsockets, href, hkept]
    exact ⟨hsock, (Option.some_ne_none i).symm⟩

/-- The close event of another socket takes the current one out of `wsRef`. -/
theorem onclose_drops {i j : Nat} {sock other : Socket} (hws : s.wsRef = some j) (hne : j ≠ i)
    (hother : s.sockets[j]? = some other) (hstep : socketEvent runtime i sock s .onclose = some t) :
    t.sockets[j]? = some other ∧ t.wsRef = none := by
  obtain ⟨_, ht | ⟨hnone, _⟩⟩ := onclose_spec hstep
  · subst ht
    constructor
    · rw [clearRefs_sockets, State.setReadyState, List.getElem?_set_ne (Ne.symm hne), hother]
    · rfl
  · rw [hws] at hnone
    cases hnone

theorem careless_unclosed {event : Event} (h : Tidy p.hook p.closeCalled) (hok : ¬ Careful p event)
    (hstep : p.step runtime event = some q) : Unclosed q := by
  match event, hok with
  | .call (.startStream streamType hostIds constructs), hok =>
      obtain ⟨i, sock, hws, hcurrent, hsock, halive⟩ := h.unopened hok
      cases hstep
      obtain ⟨hkept, href⟩ := startStream_drops hcurrent streamType hostIds constructs hsock
      refine ⟨i, sock, hkept, href, halive, ?_⟩
      rw [closes, hcurrent, Option.toList_none, List.append_nil]
      exact (h.live hws).1
  | .call (.cancelStreaming b), hok =>
      obtain ⟨i, sock, hws, hcurrent, hsock, halive⟩ := h.unopened hok
      cases hstep
      obtain ⟨hsockets, href⟩ := cancelStreaming_drops hcurrent b
      refine ⟨i, sock, hsockets ▸ hsock, ?_, halive, ?_⟩
      · rw [href]
        exact (Option.some_ne_none i).symm
      · rw [closes, hcurrent, Option.toList_none, List.append_nil]
        exact (h.live hws).1
  | .call (.socket i .onclose), hok =>
      obtain ⟨j, hj⟩ := not_forall.mp hok
      obtain ⟨hws, hne⟩ := Classical.not_imp.mp hj
      obtain ⟨hcalled, other, hother, halive⟩ := h.live hws
      obtain ⟨t, ht, hq⟩ := Option.map_eq_some_iff.mp hstep
      subst hq
      obtain ⟨sock, _, ht⟩ := Option.bind_eq_some_iff.mp ht
      obtain ⟨hkept, href⟩ := onclose_drops hws hne hother ht
      refine ⟨j, other, hkept, ?_, halive, ?_⟩
      · rw [href]
        exact (Option.some_ne_none j).symm
      · rw [closes, Option.toList_none, List.append_nil]
        exact hcalled
  | .call (.socket i .onopen), hok => exact absurd trivial hok
  | .call (.socket i (.onmessage data now)), hok => exact absurd trivial hok
  | .call (.tick now), hok => exact absurd trivial hok
  | .unmount, hok => exact absurd trivial hok
  | .onerror i, hok => exact absurd trivial hok
  | .serverClosing i, hok => exact absurd trivial hok

/-- `Careful` is exactly what keeps sockets from being dropped unclosed. -/
theorem unclosed_guards (runtime : Runtime) :
    Guards (Page.step runtime) Careful Unclosed blank := by
  refine Guards.of_invariant (P := fun p => Tidy p.hook p.closeCalled) tidy_blank pageStep_tidy
    Tidy.not_unclosed ?_
  intro p event q h hstep hok
  exact ⟨q, Reaches.refl q, careless_unclosed h hok hstep⟩

/-- A stream is cancelled while its socket is still connecting. -/
theorem connecting_socket_dropped :
    ∃ runtime p,
      execute (Page.step runtime) blank [.call (.startStream .logs ["node"] true),
        .call (.cancelStreaming true)] = some p ∧
      p.hook.sockets = [⟨.logs, ["node"], .connecting⟩] ∧ p.hook.wsRef = none ∧
      p.closeCalled = [] ∧ Unclosed p := by
  refine ⟨⟨fun _ => none, fun _ => false, fun _ => "", fun _ => ""⟩, _, rfl, rfl, rfl, rfl, ?_⟩
  refine ⟨0, ⟨.logs, ["node"], .connecting⟩, rfl, ?_, ?_, ?_⟩
  · exact (Option.some_ne_none 0).symm
  · decide
  · exact List.not_mem_nil

end TSymbiote.Frontend.WebSocketStream
