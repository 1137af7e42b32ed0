import TSymbiote.Shared.Paths
import TSymbiote.WebUI.Relay

/-! # Setting up a relay session

`RelativeWebsocket` is called with the client's connection already upgraded. It
dials the adapters of the requested hosts one after the other, keeps the
connections in a map by host, and starts the goroutines of the session when it
has reached the last host. An adapter that is unknown or cannot be dialed makes
it return in the middle of the loop.
-/

namespace TSymbiote.WebUI.Relay

open Shared

/-- An adapter's connection is numbered by the turn of the loop that opened it. -/
inductive Conn where
  | client
  | adapter (i : Nat)
  deriving DecidableEq, Repr

/-- What the goroutines of a session are given. -/
structure Session where
  adapterConns : GoMap Nat
  readerFuncs : List (String × Nat)

inductive Effect where
  /-- A close frame to the client; the handler ignores its error. -/
  | writeClose
  | opened (i : Nat)
  | close (conn : Conn)
  | runWSFuncs (session : Session)

/-- What `GetAdapter` and `DialContext` return in each turn of the loop. -/
structure Outcomes where
  getAdapter : Nat → Option String
  dial : Nat → (host path : String) → Bool

/-- The loop over the targets; it ends with a session unless it has returned. -/
def dialTargets (o : Outcomes) (targetPath : String) :
    List (String × Nat) → Session → List Effect × Option Session
  | [], session => ([], some session)
  | (target, i) :: targets, session =>
      match o.getAdapter i with
      | none => ([], none)
      | some adapterHost =>
          if adapterHost = "" then ([], none)
          else if o.dial i (adapterHost ++ ":3621") targetPath = true then
            let rest := dialTargets o targetPath targets
              { adapterConns := session.adapterConns.insert target i
                readerFuncs := session.readerFuncs ++ [(target, i)] }
            (.opened i :: rest.1, rest.2)
          else ([], none)

/-- `rawTargets` is the query parameter, empty when it is missing. -/
def relativeWebsocket (urlPath rawTargets : String) (o : Outcomes) : List Effect :=
  match KnownPath.targetPath urlPath with
  | none => [.close .client]
  | some targetPath =>
      if rawTargets = "" then [.writeClose, .close .client]
      else
        let targets := Strings.split rawTargets ','
        -- The source does not return here; `strings.Split` never gives no target.
        let zeroTargets := if targets = [] then [.writeClose, .close .client] else []
        match dialTargets o targetPath targets.zipIdx { adapterConns := ∅, readerFuncs := [] } with
        | (effects, none) => zeroTargets ++ effects
        | (effects, some session) => zeroTargets ++ effects ++ [.runWSFuncs session]

/-! ## Who closes the connections -/

/-- A session that was started knows every connection that was opened; without
one, all of them and the client's have been closed. -/
structure Owned (effects : List Effect) : Prop where
  handedOver : ∀ session, .runWSFuncs session ∈ effects → ∀ i, .opened i ∈ effects →
    ∃ target, session.adapterConns.lookup target = some i
  released : (∀ session, .runWSFuncs session ∉ effects) → .close .client ∈ effects ∧
    ∀ i, .opened i ∈ effects → .close (.adapter i) ∈ effects

/-- The turn opens a connection. -/
def Outcomes.Connects (o : Outcomes) (targetPath : String) (i : Nat) : Prop :=
  ∃ adapterHost, o.getAdapter i = some adapterHost ∧ adapterHost ≠ "" ∧
    o.dial i (adapterHost ++ ":3621") targetPath = true

section Loop

variable {o : Outcomes} {targetPath : String}

theorem dialTargets_connected {targets : List (String × Nat)}
    (h : ∀ t ∈ targets, o.Connects targetPath t.2) (session : Session) :
    dialTargets o targetPath targets session =
      (targets.map fun t => .opened t.2, some
        { adapterConns := insertAll session.adapterConns targets
          readerFuncs := session.readerFuncs ++ targets }) := by
  induction targets generalizing session with
  | nil => simp [dialTargets, insertAll]
  | cons t targets ih =>
      rcases t with ⟨target, i⟩
      rcases h _ List.mem_cons_self with ⟨adapterHost, hadapter, hne, hdial⟩
      have hrest := ih fun t ht => h t (List.mem_cons_of_mem _ ht)
      unfold dialTargets
      rw [hadapter]
      dsimp only
      rw [if_neg hne, if_pos hdial, hrest]
      simp [insertAll]

/-- Without a session, nothing has happened but that connections were opened. -/
theorem dialTargets_returned {targets : List (String × Nat)}
    (h : ∃ t ∈ targets, ¬ o.Connects targetPath t.2) (session : Session) :
    (dialTargets o targetPath targets session).2 = none ∧
      ∀ e ∈ (dialTargets o targetPath targets session).1, ∃ i, e = .opened i := by
  induction targets generalizing session with
  | nil =>
      rcases h with ⟨t, ht, _⟩
      cases ht
  | cons t targets ih =>
      rcases t with ⟨target, i⟩
      unfold dialTargets
      split
      · exact ⟨rfl, fun e he => nomatch he⟩
      · next adapterHost hadapter =>
          split
          · exact ⟨rfl, fun e he => nomatch he⟩
          · next hne =>
              split
              · next hdial =>
                  have hrest : ∃ t ∈ targets, ¬ o.Connects targetPath t.2 := by
                    rcases h with ⟨t, ht, hfails⟩
                    rcases List.mem_cons.mp ht with heq | ht
                    · subst heq
                      exact absurd ⟨adapterHost, hadapter, hne, hdial⟩ hfails
                    · exact ⟨t, ht, hfails⟩
                  rcases ih hrest { adapterConns := session.adapterConns.insert target i
                                    readerFuncs := session.readerFuncs ++ [(target, i)] } with
                    ⟨hnone, hopened⟩
                  constructor
                  · exact hnone
                  · intro e he
                    rcases List.mem_cons.mp he with heq | he
                    · exact ⟨i, heq⟩
                    · exact hopened e he
              · exact ⟨rfl, fun e he => nomatch he⟩

end Loop

theorem zipIdx_forall {targets : List String} {P : Nat → Prop} :
    (∀ t ∈ targets.zipIdx, P t.2) ↔ ∀ i < targets.length, P i := by
  constructor
  · intro h i hi
    exact h (targets[i], i) (List.mem_zipIdx_iff_getElem?.mpr (List.getElem?_eq_getElem hi))
  · rintro h ⟨target, i⟩ ht
    exact h i (List.getElem?_eq_some_iff.mp (List.mem_zipIdx_iff_getElem?.mp ht)).1

/-- The map of a session names every connection exactly when no host repeats. -/
theorem adapterConns_complete_iff (ts : Targets) :
    (∀ t ∈ ts.hosts.zipIdx, ∃ target, (adapterConns ts).lookup target = some t.2) ↔
      ts.hosts.Nodup := by
  constructor
  · intro h
    rw [List.nodup_iff_getElem?_ne_getElem?]
    intro i j hij hj heq
    have hconn : ∀ i < ts.hosts.length, ∃ target, (adapterConns ts).lookup target = some i :=
      zipIdx_forall.mp h
    rcases hconn i (hij.trans hj) with ⟨a, ha⟩
    rcases hconn j hj with ⟨b, hb⟩
    rw [adapterConns_lookup ha, adapterConns_lookup hb] at heq
    rw [Option.some.inj heq, hb] at ha
    cases ha
    exact Nat.lt_irrefl i hij
  · rintro h ⟨target, i⟩ ht
    refine ⟨target, lookup_insertAll_of_nodup ?_ ht⟩
    rwa [List.zipIdx_map_fst]

/-! ## The handler -/

/-- The hosts of a query parameter that is not empty. -/
def targets (rawTargets : String) : Targets where
  hosts := Strings.split rawTargets ','
  nonempty := Strings.split_ne_nil rawTargets ','

section Handler

variable {urlPath rawTargets targetPath : String} {o : Outcomes}

theorem relativeWebsocket_eq (hpath : KnownPath.targetPath urlPath = some targetPath)
    (hraw : rawTargets ≠ "") :
    relativeWebsocket urlPath rawTargets o =
      match dialTargets o targetPath (targets rawTargets).hosts.zipIdx
        { adapterConns := ∅, readerFuncs := [] } with
      | (effects, none) => effects
      | (effects, some session) => effects ++ [.runWSFuncs session] := by
  unfold relativeWebsocket
  rw [hpath]
  dsimp only
  rw [if_neg hraw, if_neg (Strings.split_ne_nil rawTargets ',')]
  rfl

/-- When every turn connects, the handler starts the session the relay is about. -/
theorem relativeWebsocket_started (hpath : KnownPath.targetPath urlPath = some targetPath)
    (hraw : rawTargets ≠ "")
    (hconnects : ∀ i < (targets rawTargets).hosts.length, o.Connects targetPath i) :
    relativeWebsocket urlPath rawTargets o =
      ((targets rawTargets).hosts.zipIdx.map fun t => Effect.opened t.2) ++
        [.runWSFuncs
          { adapterConns := (start (targets rawTargets)).living
            readerFuncs := (targets rawTargets).hosts.zipIdx }] := by
  rw [relativeWebsocket_eq hpath hraw, dialTargets_connected (zipIdx_forall.mpr hconnects)]
  rfl

theorem relativeWebsocket_returned (hpath : KnownPath.targetPath urlPath = some targetPath)
    (hraw : rawTargets ≠ "")
    (hfails : ¬ ∀ i < (targets rawTargets).hosts.length, o.Connects targetPath i) :
    ∀ e ∈ relativeWebsocket urlPath rawTargets o, ∃ i, e = .opened i := by
  have hturn : ∃ t ∈ (targets rawTargets).hosts.zipIdx, ¬ o.Connects targetPath t.2 := by
    by_contra hall
    refine hfails (zipIdx_forall.mp ?_)
    intro t ht
    by_contra hconnects
    exact hall ⟨t, ht, hconnects⟩
  rcases dialTargets_returned hturn { adapterConns := ∅, readerFuncs := [] } with ⟨hnone, hopened⟩
  rw [relativeWebsocket_eq hpath hraw]
  split
  · next effects heq =>
      rw [heq] at hopened
      exact hopened
  · next effects session heq =>
      rw [heq] at hnone
      cases hnone

/-- A handler that has only opened connections leaves the client's open. -/
theorem not_owned_of_opened {effects : List Effect} (h : ∀ e ∈ effects, ∃ i, e = .opened i) :
    ¬ Owned effects := by
  intro howned
  have hnone : ∀ session, .runWSFuncs session ∉ effects := by
    intro session hrun
    rcases h _ hrun with ⟨i, hi⟩
    cases hi
  rcases h _ (howned.released hnone).1 with ⟨i, hi⟩
  cases hi

theorem owned_started_iff {session : Session} {opened : List (String × Nat)} :
    Owned ((opened.map fun t => Effect.opened t.2) ++ [.runWSFuncs session]) ↔
      ∀ t ∈ opened, ∃ target, session.adapterConns.lookup target = some t.2 := by
  constructor
  · intro h t ht
    refine h.handedOver session ?_ t.2 ?_
    · exact List.mem_append_right _ List.mem_cons_self
    · exact List.mem_append_left _ (List.mem_map.mpr ⟨t, ht, rfl⟩)
  · intro h
    constructor
    · intro other hother i hi
      rcases List.mem_append.mp hother with hother | hother
      · rcases List.mem_map.mp hother with ⟨_, _, heq⟩
        cases heq
      · rcases List.mem_append.mp hi with hi | hi
        · rcases List.mem_map.mp hi with ⟨t, ht, heq⟩
          cases heq
          cases List.mem_singleton.mp hother
          exact h t ht
        · cases List.mem_singleton.mp hi
    · intro hnone
      exact absurd (List.mem_append_right _ List.mem_cons_self) (hnone session)

/-- Before the first dial every way out closes the client. -/
theorem owned_of_close {effects : List Effect}
    (h : effects = [.close .client] ∨ effects = [.writeClose, .close .client]) : Owned effects := by
  rcases h with h | h <;> subst h <;> constructor <;> simp

end Handler

/-- Every connection has someone to close it exactly when the request names no
path or no host, or all its hosts are dialed and no host is named twice. -/
theorem connections_owned_iff (urlPath rawTargets : String) (o : Outcomes) :
    Owned (relativeWebsocket urlPath rawTargets o) ↔
      ∀ targetPath, KnownPath.targetPath urlPath = some targetPath → rawTargets ≠ "" →
        (∀ i < (Strings.split rawTargets ',').length, o.Connects targetPath i) ∧
          (Strings.split rawTargets ',').Nodup := by
  cases hpath : KnownPath.targetPath urlPath with
  | none =>
      refine iff_of_true (owned_of_close (.inl ?_)) (fun _ h => nomatch h)
      unfold relativeWebsocket
      rw [hpath]
  | some targetPath =>
      by_cases hraw : rawTargets = ""
      · refine iff_of_true (owned_of_close (.inr ?_)) (fun _ _ hne => absurd hraw hne)
        unfold relativeWebsocket
        rw [hpath]
        exact if_pos hraw
      · by_cases hconnects : ∀ i < (targets rawTargets).hosts.length, o.Connects targetPath i
        · rw [relativeWebsocket_started hpath hraw hconnects, owned_started_iff]
          refine (adapterConns_complete_iff (targets rawTargets)).trans ?_
          constructor
          · intro hnodup _ heq _
            cases heq
            exact ⟨hconnects, hnodup⟩
          · intro h
            exact (h targetPath rfl hraw).2
        · refine iff_of_false ?_ (fun h => hconnects (h targetPath rfl hraw).1)
          exact not_owned_of_opened (relativeWebsocket_returned hpath hraw hconnects)

/-- Only the first host of a request has an adapter. -/
def secondUnknown : Outcomes where
  getAdapter i := if i = 0 then some "ts-a" else none
  dial _ _ _ := true

def allDialed : Outcomes where
  getAdapter _ := some "ts-a"
  dial _ _ _ := true

/-- The connections to the first adapter and to the client stay open; and when a
host is named twice, the session does not know the first of its connections. -/
theorem connections_leak :
    ¬ Owned (relativeWebsocket KnownPath.logs.webUI "node,laptop" secondUnknown) ∧
      ¬ Owned (relativeWebsocket KnownPath.logs.webUI "node,node" allDialed) := by
  have hpath := KnownPath.targetPath_webUI .logs
  constructor
  · refine not_owned_of_opened (relativeWebsocket_returned hpath (by decide) ?_)
    intro h
    rcases h 1 (by decide) with ⟨adapterHost, hadapter, _⟩
    cases hadapter
  · rw [relativeWebsocket_started hpath (by decide) fun _ _ => ⟨"ts-a", rfl, by decide, rfl⟩,
      owned_started_iff]
    intro h
    exact absurd ((adapterConns_complete_iff (targets "node,node")).mp h) (by decide)

end TSymbiote.WebUI.Relay
