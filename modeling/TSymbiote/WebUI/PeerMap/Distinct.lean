import TSymbiote.WebUI.PeerMap.Merge

/-! # Machines of the peer map

A status lists its peers by node key, while nodes and edges are named after host
names, which two machines may share. The edges are appended without the lookup
that keeps the nodes apart.
-/

namespace TSymbiote.WebUI

open Transition FanOut

/-- The status lists a peer under this node key. -/
def AdapterCall.Lists (call : AdapterCall) (key host : String) (data : Json) : Prop :=
  ∃ status peers, call.status = some status ∧ (Json.get status "Peer").asMap = some peers ∧
    (key, data) ∈ peers ∧ hostName data = some host

/-- The adapter's own host name beside that of each peer it lists. -/
def AdapterCall.links (call : AdapterCall) : List (String × String) :=
  (do
    let status ← call.status
    let hostname ← hostName (Json.get status "Self")
    let peers ← (Json.get status "Peer").asMap
    some (peers.filterMap fun (e : String × Json) => (hostName e.2).map (hostname, ·))).getD []

def edgeID (link : String × String) : String := link.1 ++ "->" ++ link.2

namespace Request

def Reported (req : Request) (key host : String) (data : Json) : Prop :=
  ∃ call ∈ req.calls, call.Lists key host data

def links (req : Request) : List (String × String) := req.calls.flatMap (·.links)

/-- The node has the host name of the machine, and data reported of it. -/
structure Represents (req : Request) (key host : String) (node : Node) : Prop where
  id : node.id = host
  data : req.Reported key host node.data

/-- Machines with different node keys have different nodes of their own, and no
two edges have one id. -/
structure Distinct (req : Request) (graph : NodeGraph) : Prop where
  machines : ∀ key host data key' host' data', req.Reported key host data →
    req.Reported key' host' data' → key ≠ key' →
    ∃ node ∈ graph.nodes, ∃ node' ∈ graph.nodes, node ≠ node' ∧
      req.Represents key host node ∧ req.Represents key' host' node'
  edges : (graph.edges.map (·.id)).Nodup

/-- No two machines are reported under one host name, and the host names of no
two reports read the same once joined. -/
structure Separate (req : Request) : Prop where
  machines : ∀ key host data key' data', req.Reported key host data →
    req.Reported key' host data' → key = key'
  edges : req.links.Pairwise fun link link' => edgeID link ≠ edgeID link'

end Request

/-! ## Edges -/

theorem edges_ids {hostname : String} {peers : List (String × Json)} {edges : List Edge}
    (h : List.Forall₂ (EdgeFor hostname) peers edges) :
    edges.map (·.id) =
      (peers.filterMap fun e => (hostName e.2).map (hostname, ·)).map edgeID := by
  induction h with
  | nil => rfl
  | cons hedge _ ih =>
      rw [List.map_cons, ih, List.filterMap_cons, hedge.target, Option.map_some, List.map_cons,
        hedge.id, hedge.source]
      rfl

/-- The loop visits the peers in some order. -/
theorem AdapterCall.Edges.ids {call : AdapterCall} {edges : List Edge} (h : call.Edges edges) :
    (edges.map (·.id)).Perm (call.links.map edgeID) := by
  cases h with
  | failed hstatus =>
      rw [AdapterCall.links, hstatus]
      exact List.Perm.refl _
  | answered hstatus hself hpeers hedges =>
      simp only [AdapterCall.links, hstatus, hself, hpeers, Option.bind_eq_bind, Option.bind_some,
        Option.getD_some]
      rw [edges_ids hedges]
      exact ((call.order.perm _).filterMap _).map _

theorem flatten_ids {calls : List AdapterCall} {parts : List (List Edge)}
    (h : List.Forall₂ AdapterCall.Edges calls parts) :
    (parts.flatten.map (·.id)).Perm ((calls.flatMap (·.links)).map edgeID) := by
  induction h with
  | nil => exact List.Perm.refl _
  | cons hedges _ ih =>
      rw [List.flatten_cons, List.map_append, List.flatMap_cons, List.map_append]
      exact hedges.ids.append ih

theorem Request.Merged.nodup_iff {req : Request} {graph : NodeGraph} (h : req.Merged graph) :
    (graph.edges.map (·.id)).Nodup ↔
      req.links.Pairwise fun link link' => edgeID link ≠ edgeID link' := by
  rcases h.edges with ⟨parts, hparts, hedges⟩
  rw [hedges, (flatten_ids hparts).nodup_iff, List.Nodup, List.pairwise_map]
  exact Iff.rfl

/-! ## Nodes -/

section Nodes

variable {req : Request} {graph : NodeGraph}

/-- The node of a host that is reported of one machine only. -/
theorem Request.Merged.represents (h : req.Merged graph) {key host : String} {data : Json}
    (hreported : req.Reported key host data)
    (hone : ∀ key' data', req.Reported key' host data' → key = key') :
    ∃ node ∈ graph.nodes, req.Represents key host node := by
  have hseen : req.Seen host := by
    rcases hreported with ⟨call, hcall, status, peers, hstatus, hpeers, he, hname⟩
    exact ⟨call, hcall, status, peers, hstatus, hpeers, _, he, hname⟩
  obtain ⟨node, hnode, hid⟩ := List.mem_map.mp ((h.ids host).mpr hseen)
  subst hid
  obtain ⟨before, call, after, hcalls, hentry, _⟩ := (h.nodes node hnode).data
  obtain ⟨status, peers, hstatus, hpeers, ⟨key', data'⟩, he, hname, hdata⟩ := hentry
  subst hdata
  have hcall : call ∈ req.calls := by
    rw [hcalls]
    exact List.mem_append_right _ List.mem_cons_self
  have hreported' : req.Reported key' node.id node.data :=
    ⟨call, hcall, status, peers, hstatus, hpeers, he, hname⟩
  have hkey := hone key' node.data hreported'
  subst hkey
  exact ⟨node, hnode, rfl, hreported'⟩

theorem Request.Merged.node_eq (h : req.Merged graph) {node node' : Node}
    (hnode : node ∈ graph.nodes) (hnode' : node' ∈ graph.nodes) (hid : node.id = node'.id) :
    node = node' := List.inj_on_of_nodup_map h.nodup hnode hnode' hid

theorem distinct_of_separate (hmerged : req.Merged graph) (h : req.Separate) :
    req.Distinct graph where
  machines := by
    intro key host data key' host' data' hreported hreported' hkeys
    obtain ⟨node, hnode, hrep⟩ := hmerged.represents hreported fun k d hk =>
      h.machines key host data k d hreported hk
    obtain ⟨node', hnode', hrep'⟩ := hmerged.represents hreported' fun k d hk =>
      h.machines key' host' data' k d hreported' hk
    refine ⟨node, hnode, node', hnode', ?_, hrep, hrep'⟩
    intro heq
    subst heq
    have hhosts : host = host' := hrep.id.symm.trans hrep'.id
    subst hhosts
    exact hkeys (h.machines key host data key' data' hreported hreported')
  edges := hmerged.nodup_iff.mpr h.edges

theorem separate_of_distinct (hmerged : req.Merged graph) (h : req.Distinct graph) :
    req.Separate where
  machines := by
    intro key host data key' data' hreported hreported'
    by_contra hkeys
    obtain ⟨node, hnode, node', hnode', hne, hrep, hrep'⟩ :=
      h.machines key host data key' host data' hreported hreported' hkeys
    exact hne (hmerged.node_eq hnode hnode' (hrep.id.trans hrep'.id.symm))
  edges := hmerged.nodup_iff.mp h.edges

end Nodes

/-- The replies of a request keep machines and edges apart exactly when their
host names do. -/
theorem distinct_iff (req : Request) (c : Client) :
    (∀ c' graph, req.Serves c c' graph → req.Distinct graph) ↔ req.Separate := by
  constructor
  · intro h
    obtain ⟨graph, hserves, _⟩ := req.serves_in_order c (List.Perm.refl req.calls)
    exact separate_of_distinct hserves.merged (h _ graph hserves)
  · intro h c' graph hserves
    exact distinct_of_separate hserves.merged h

/-! ## Two phones -/

theorem localhost_fresh : ∀ f ∈ ([] : List (Shared.Field × Shared.Value)),
    f.1.name ≠ "HostName" ∧ f.1.jsonName ≠ "HostName" := List.forall_mem_nil _

def phone : Adapter.PeerStatus := { hostName := "localhost", rest := [], fresh := localhost_fresh }

/-- The adapter of `node` sees two machines that both go by `localhost`. -/
def twoPhones : Request where
  devices := [adapterDevice "ts-a"]
  calls := [{ nodeAnswers "ts-a" with
    answer := Adapter.status (.ok { lonelyStatus with
      peer := some ((AList.singleton "nodekey:1" (some phone)).insert "nodekey:2" (some phone)) }) }]
  found := rfl
  wellFormed := by
    intro call hcall
    cases List.mem_singleton.mp hcall
    rw [status_wellFormed_iff rfl]
    refine ⟨rfl, _, rfl, ?_⟩
    decide

/-- They are one node, behind two edges of one id. -/
theorem phones_collapsed : ∃ c' graph, twoPhones.Serves newClient c' graph ∧
    graph.ids = ["localhost"] ∧
    graph.edges.map (·.id) = ["node->localhost", "node->localhost"] ∧
    ¬ twoPhones.Distinct graph := by
  have hrun : ∃ s, execute step (start twoPhones.workers newClient)
      [.spawn, .work 0, .work 0, .deliver, .close] = some s ∧ Replied s ∧
        (nodeGraph s.shared s.results).ids = ["localhost"] ∧
        (nodeGraph s.shared s.results).edges.map (·.id) = ["node->localhost", "node->localhost"] :=
    ⟨_, rfl, ⟨rfl, rfl, rfl⟩, rfl, rfl⟩
  rcases hrun with ⟨s, hs, hreplied, hids, hedges⟩
  refine ⟨_, _, ⟨s, execute_reaches hs, hreplied, rfl, rfl⟩, hids, hedges, ?_⟩
  intro hdistinct
  have hnodup := hdistinct.edges
  rw [hedges] at hnodup
  simp at hnodup

end TSymbiote.WebUI
