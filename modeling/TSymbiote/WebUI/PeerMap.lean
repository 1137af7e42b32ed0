import TSymbiote.Lib.FanOut.Schedule
import TSymbiote.WebUI.Client
import TSymbiote.Adapter.Status

/-! # The peer map

`PeerMap` asks every device tagged as an adapter for its status, each from a
goroutine of its own, and merges the peers they see into one graph. A goroutine
registers its host with the client, or removes its adapter when the call fails,
while the others run. The decoder of a status asserts the types it expects; an
answer of another shape panics the goroutine, and with it the process.
-/

namespace TSymbiote.WebUI

open Transition FanOut

structure Edge where
  id : String
  source : String
  target : String
  deriving DecidableEq

structure Node where
  id : String
  label : String
  data : Json

structure NodeGraph where
  hosts : List String
  nodes : List Node
  edges : List Edge

structure PeerMapResult where
  nodes : GoMap Node := ∅
  edges : List Edge := []
  error : String := ""

/-- A tailnet device as the control plane lists it. -/
structure Device where
  hostname : String
  tags : List String
  connectedToControl : Bool

def getDevices (devices : List Device) : List Device := devices.filter (·.connectedToControl)

def getDevicesWithTag (devices : List Device) (filterTag : String) : List Device :=
  (getDevices devices).filter (·.tags.contains filterTag)

/-- The order in which `range` visits a map. -/
structure RangeOrder where
  visit : List (String × Json) → List (String × Json)
  perm : ∀ m, (visit m).Perm m

def RangeOrder.asListed : RangeOrder := { visit := id, perm := fun m => List.Perm.refl m }

/-- A device with what `CallAdapter` returns for it. -/
structure AdapterCall where
  knownAdapter : Device
  answer : Except String Body
  order : RangeOrder

/-! ## The goroutine of one device -/

/-- `DeleteAdapter` as a sequence of map operations. -/
def deleteAdapterThen (adapter : String) (next : Go Client PeerMapResult) : Go Client PeerMapResult :=
  .load fun c =>
    match c.getHost adapter with
    | none => next
    | some host => .store (·.eraseAdapter adapter) (.store (·.eraseHost host) next)

/-- `SetKnownHost` as a sequence of map operations. -/
def setKnownHostThen (host adapter : String) (next : Go Client PeerMapResult) :
    Go Client PeerMapResult :=
  .store (·.storeAdapter adapter host) (.store (·.storeHost host adapter) next)

/-- `v.(map[string]any)["HostName"].(string)`; none where an assertion fails. -/
def hostName (v : Json) : Option String := do
  let m ← v.asMap
  (Json.get m "HostName").asString

/-- The loop over the peers of one status. -/
def collectPeers (hostname : String) : List (String × Json) → PeerMapResult → Option PeerMapResult
  | [], result => some result
  | (_, peer) :: peers, result =>
      match hostName peer with
      | none => none
      | some peerhostname =>
          collectPeers hostname peers
            { result with
              edges := result.edges ++
                [{ id := hostname ++ "->" ++ peerhostname, source := hostname, target := peerhostname }]
              nodes :=
                if peerhostname ∈ result.nodes then result.nodes
                else result.nodes.insert peerhostname
                  { id := peerhostname, label := peerhostname, data := peer } }

def peerMapWorker (call : AdapterCall) : Go Client PeerMapResult :=
  match call.answer with
  | .error err => deleteAdapterThen call.knownAdapter.hostname (.send { error := err } .ret)
  | .ok body =>
      match decodeObject body with
      | .error err => .send { error := err } .ret
      | .ok status =>
          match hostName (Json.get status "Self") with
          | none => .panic
          | some hostname =>
              setKnownHostThen hostname call.knownAdapter.hostname <|
                match (Json.get status "Peer").asMap with
                | none => .panic
                | some peers =>
                    match collectPeers hostname (call.order.visit peers) {} with
                    | none => .panic
                    | some result => .send result .ret

/-- The reply the handler writes once it has collected all results. -/
def nodeGraph (c : Client) (results : List PeerMapResult) : NodeGraph :=
  { hosts := c.getHosts
    nodes := (results.foldl (fun merged res => res.nodes ∪ merged) (∅ : GoMap Node)).entries.map (·.2)
    edges := results.flatMap (·.edges) }

/-! ## Which answers the decoder survives -/

/-- An object under `Self` with a string `HostName`, and an object under `Peer`
all of whose entries are objects with a string `HostName`. -/
def WellFormed (status : List (String × Json)) : Prop :=
  (∃ hostname, hostName (Json.get status "Self") = some hostname) ∧
    ∃ peers, (Json.get status "Peer").asMap = some peers ∧
      ∀ e ∈ peers, ∃ peerhostname, hostName e.2 = some peerhostname

/-- The status, when a body arrived and decoded. -/
def AdapterCall.status (call : AdapterCall) : Option (List (String × Json)) :=
  match call.answer with
  | .error _ => none
  | .ok body => (decodeObject body).toOption

def AdapterCall.WellFormed (call : AdapterCall) : Prop :=
  ∀ status, call.status = some status → WebUI.WellFormed status

/-- What one adapter contributes to the reply; none where its goroutine panics. -/
def AdapterCall.result (call : AdapterCall) : Option PeerMapResult :=
  match call.answer with
  | .error err => some { error := err }
  | .ok body =>
      match decodeObject body with
      | .error err => some { error := err }
      | .ok status => do
          let hostname ← hostName (Json.get status "Self")
          let peers ← (Json.get status "Peer").asMap
          collectPeers hostname (call.order.visit peers) {}

theorem collectPeers_isSome (hostname : String) (peers : List (String × Json))
    (result : PeerMapResult) :
    (collectPeers hostname peers result).isSome ↔
      ∀ e ∈ peers, ∃ peerhostname, hostName e.2 = some peerhostname := by
  induction peers generalizing result with
  | nil => simp [collectPeers]
  | cons e peers ih =>
      rcases e with ⟨k, peer⟩
      cases hp : hostName peer with
      | none => simp [collectPeers, hp]
      | some name => simp [collectPeers, hp, ih]

theorem result_isSome (call : AdapterCall) : call.result.isSome ↔ call.WellFormed := by
  unfold AdapterCall.result AdapterCall.WellFormed AdapterCall.status WellFormed
  cases call.answer with
  | error err => simp
  | ok body =>
      cases hd : decodeObject body with
      | error err => simp [hd, Except.toOption]
      | ok status =>
          cases hs : hostName (Json.get status "Self") with
          | none => simp [hd, hs, Except.toOption]
          | some hostname =>
              cases hp : (Json.get status "Peer").asMap with
              | none => simp [hd, hs, hp, Except.toOption]
              | some peers =>
                  have hvisit : ∀ e, e ∈ call.order.visit peers ↔ e ∈ peers :=
                    fun e => (call.order.perm peers).mem_iff
                  simp [hd, hs, hp, Except.toOption, collectPeers_isSome, hvisit]

/-! ## What the adapter's own handler answers -/

theorem hostName_pointer (p : Option Adapter.PeerStatus) :
    hostName (Adapter.pointerTo p).json = p.map (·.hostName) := by
  cases p with
  | none => rfl
  | some p =>
      have h := Adapter.hostName_encoded p
      simp only [hostName, Adapter.pointerTo, Adapter.PeerStatus.value, Shared.Value.json,
        Json.asMap, Option.bind_eq_bind, Option.bind_some, Option.map_some] at h ⊢
      rw [h]
      rfl

theorem status_keys (st : Adapter.Status) {k : String} (hk : k = "Self" ∨ k = "Peer") :
    k ∉ (Shared.jsonAnys (Shared.structFields st.rest)).map Prod.fst := by
  intro h
  obtain ⟨f, hf, hname⟩ := Adapter.structFields_keys _ _ h
  rcases hk with rfl | rfl
  · exact (st.fresh f hf).1 hname
  · exact (st.fresh f hf).2 hname

/-- The decoded document of a status: its peer map is there, as null when nil;
its own status only when there is one. -/
theorem status_decodes (st : Adapter.Status) : ∃ body m, Adapter.status (.ok st) = .ok body ∧
    decodeObject body = .ok m ∧
      hostName (Json.get m "Self") = st.self.map (·.hostName) ∧
      Json.get m "Peer" = (Adapter.peerMap st.peer).json := by
  have hself := status_keys st (.inl rfl)
  have hpeer := status_keys st (.inr rfl)
  have hpeerAny : Shared.fieldAny (Adapter.peerMap st.peer) =
      some (.value (Adapter.peerMap st.peer)) := by
    cases st.peer <;> rfl
  refine ⟨_, _, rfl, rfl, ?_⟩
  simp only [Shared.structFields, hpeerAny]
  cases hs : st.self with
  | none =>
      simp only [Adapter.pointerTo, Shared.fieldAny, Shared.jsonAnys, Shared.Any.json]
      rw [Json.lastWins_cons hpeer, Json.get_cons_self]
      refine ⟨?_, rfl⟩
      have hmiss : Json.get (("Peer", (Adapter.peerMap st.peer).json) ::
          Json.lastWins (Shared.jsonAnys (Shared.structFields st.rest))) "Self" = .null := by
        rw [Json.get_cons_ne _ _ (by decide), Json.get, List.lookup_eq_none_iff.mpr]
        · rfl
        · intro e he
          have hek := List.mem_map_of_mem (f := Prod.fst) he
          rw [Json.lastWins_keys] at hek
          simpa using fun heq : "Self" = e.1 => hself (heq ▸ hek)
      rw [hmiss]
      rfl
  | some p =>
      have hname := Adapter.hostName_reflected p
      have hself' : "Self" ∉ (("Peer", (Adapter.peerMap st.peer).json) ::
          Shared.jsonAnys (Shared.structFields st.rest)).map Prod.fst := by
        simpa using hself
      simp only [Adapter.pointerTo, Adapter.PeerStatus.value, Shared.fieldAny, Shared.jsonAnys,
        Shared.Any.json] at hname ⊢
      rw [Json.lastWins_cons hself', Json.lastWins_cons hpeer, Json.get_cons_self,
        Json.get_cons_ne _ _ (by decide), Json.get_cons_self]
      refine ⟨?_, rfl⟩
      simp only [hostName, Json.asMap, Option.bind_eq_bind, Option.bind_some, hname]
      rfl

/-- The decoder survives a status of the adapter's own handler exactly when the
host has a status and a peer map, and no entry of the map is nil. -/
theorem status_wellFormed_iff {st : Adapter.Status} {call : AdapterCall}
    (h : call.answer = Adapter.status (.ok st)) :
    call.WellFormed ↔
      st.self.isSome ∧ ∃ peers, st.peer = some peers ∧ ∀ e ∈ peers.entries, e.2.isSome := by
  obtain ⟨body, m, hbody, hm, hself, hpeer⟩ := status_decodes st
  have hstatus : call.status = some m := by
    rw [AdapterCall.status, h, hbody]
    simp [hm, Except.toOption]
  simp only [AdapterCall.WellFormed, hstatus, Option.some.injEq, forall_eq', WellFormed, hself, hpeer]
  refine and_congr ?_ ?_
  · cases st.self <;> simp
  · cases hp : st.peer with
    | none => simp [Adapter.peerMap, Shared.Value.json, Json.asMap]
    | some peers =>
        have hentries : Shared.jsonEntries (Adapter.peerEntries peers) =
            peers.entries.map fun e => (e.1, (Adapter.pointerTo e.2).json) := by
          simp [Adapter.jsonEntries_eq_map, Adapter.peerEntries]
        have hkeys : ((peers.entries.map fun e => (e.1, (Adapter.pointerTo e.2).json)).map
            Prod.fst).Nodup := by
          have := peers.nodupKeys
          simpa [List.map_map, List.NodupKeys, List.keys, Function.comp_def] using this
        simp only [Adapter.peerMap, Shared.Value.json, Json.asMap, hentries,
          Json.lastWins_of_nodup hkeys, Option.some.injEq, exists_eq_left', List.forall_mem_map,
          hostName_pointer]
        refine forall₂_congr fun e _ => ?_
        cases e.2 <;> simp

/-! ## Every run of a request -/

theorem deleteAdapterThen_does {adapter : String} {next : Go Client PeerMapResult}
    {d : Option (List PeerMapResult)} (h : next.Does d) : (deleteAdapterThen adapter next).Does d := by
  intro c
  dsimp only
  split
  · exact h
  · exact h

theorem setKnownHostThen_does {host adapter : String} {next : Go Client PeerMapResult}
    {d : Option (List PeerMapResult)} (h : next.Does d) :
    (setKnownHostThen host adapter next).Does d := h

theorem peerMapWorker_does (call : AdapterCall) :
    (peerMapWorker call).Does (call.result.map fun r => [r]) := by
  unfold peerMapWorker AdapterCall.result
  cases call.answer with
  | error err => exact deleteAdapterThen_does (by simp [Go.Does])
  | ok body =>
      cases hd : decodeObject body with
      | error err => simp [hd, Go.Does]
      | ok status =>
          cases hs : hostName (Json.get status "Self") with
          | none => simp [hd, hs, Go.Does]
          | some hostname =>
              simp only [hd, hs, Option.bind_eq_bind, Option.bind_some]
              apply setKnownHostThen_does
              cases hp : (Json.get status "Peer").asMap with
              | none => simp [Go.Does]
              | some peers =>
                  simp only [Option.bind_some]
                  cases hc : collectPeers hostname (call.order.visit peers) {} <;>
                    simp [Go.Does]

/-- Goroutines whose answers are survived send one result each. -/
theorem peerMapWorkers_send {calls : List AdapterCall} (h : ∀ call ∈ calls, call.WellFormed) :
    ∃ results : List PeerMapResult, calls.map AdapterCall.result = results.map some ∧
      List.Forall₂ Go.Does (calls.map peerMapWorker) (results.map fun r => some [r]) := by
  induction calls with
  | nil => exact ⟨[], rfl, .nil⟩
  | cons call calls ih =>
      have hsome := (result_isSome call).mpr (h call List.mem_cons_self)
      obtain ⟨r, hr⟩ := Option.isSome_iff_exists.mp hsome
      obtain ⟨results, hres, hdo⟩ := ih fun other hother => h other (List.mem_cons_of_mem _ hother)
      have hdoes := peerMapWorker_does call
      rw [hr] at hdoes
      exact ⟨r :: results, by simp only [List.map_cons, hr, hres], .cons hdoes hdo⟩

/-- Whatever the client knows, no goroutine panics; and when no goroutine can
move any more, each has sent its one result and the reply has all of them. -/
def Survives (calls : List AdapterCall) : Prop :=
  ∀ c s, Reaches step (start (calls.map peerMapWorker) c) s →
    s.crashed = false ∧
      (Stuck step s →
        ∃ results, calls.map AdapterCall.result = results.map some ∧ Complete s results)

/-- A request survives its adapters exactly when each answer that decodes at all
is a well-formed status. -/
theorem survives_iff (calls : List AdapterCall) :
    Survives calls ↔ ∀ call ∈ calls, call.WellFormed := by
  have hne : ∀ d ∈ calls.map (fun call => call.result.map fun r => [r]), d ≠ some [] := by
    intro d hd
    obtain ⟨call, _, rfl⟩ := List.mem_map.mp hd
    cases call.result <;> simp
  constructor
  · intro h call hcall
    have hone := (never_crashes_iff newClient (bodies_do peerMapWorker_does calls) hne).mp
      fun s hs => (h newClient s hs).1
    obtain ⟨r, hr⟩ := hone _ (List.mem_map_of_mem hcall)
    rw [← result_isSome]
    obtain ⟨r', hr', _⟩ := Option.map_eq_some_iff.mp hr
    simp [hr']
  · intro h c s hs
    obtain ⟨results, hres, hdo⟩ := peerMapWorkers_send h
    have halive := reaches_alive c hdo hs
    exact ⟨halive.1, fun hstuck => ⟨results, hres, halive.2 hstuck⟩⟩

/-- The status of a host that sees no peers. -/
def lonelyStatus : Adapter.Status where
  self := some { hostName := "node", rest := [], fresh := by simp }
  peer := none
  rest := []
  fresh := by simp

def lonelyAdapter : AdapterCall where
  knownAdapter := { hostname := "ts-a", tags := ["tag:tsymbiote-adapter"], connectedToControl := true }
  answer := Adapter.status (.ok lonelyStatus)
  order := .asListed

/-- Its peer map arrives as null, and the assertion on it ends the process. -/
theorem lonely_host_crashes : ¬ Survives [lonelyAdapter] := by
  intro h
  have hrun : ∃ t, execute step (start ([lonelyAdapter].map peerMapWorker) newClient)
      [.spawn, .work 0, .work 0, .work 0] = some t ∧ t.crashed = true := ⟨_, rfl, rfl⟩
  rcases hrun with ⟨t, ht, hcrashed⟩
  have halive := (h newClient t (execute_reaches ht)).1
  rw [hcrashed] at halive
  cases halive

end TSymbiote.WebUI
