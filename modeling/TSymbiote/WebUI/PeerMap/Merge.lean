import TSymbiote.WebUI.PeerMap.Graph

/-! # The merged peer map

The goroutines of a request finish in any order, but their results are merged in
the order of the devices: the edges one after the other, the nodes each over the
ones before it. The reply does not depend on the interleaving.
-/

namespace TSymbiote.WebUI

open Transition FanOut

/-! ## What a reply should have -/

/-- The edge for one entry of a peer map. -/
structure EdgeFor (hostname : String) (e : String × Json) (edge : Edge) : Prop where
  source : edge.source = hostname
  target : hostName e.2 = some edge.target
  id : edge.id = edge.source ++ "->" ++ edge.target

/-- One edge for each entry of the peer map, in the order of the loop. A device
that fails has none. -/
inductive AdapterCall.Edges (call : AdapterCall) : List Edge → Prop where
  | failed (hstatus : call.status = none) : Edges call []
  | answered {status : List (String × Json)} {hostname : String} {peers : List (String × Json)}
      {edges : List Edge} (hstatus : call.status = some status)
      (hself : hostName (Json.get status "Self") = some hostname)
      (hpeers : (Json.get status "Peer").asMap = some peers)
      (hedges : List.Forall₂ (EdgeFor hostname) (call.order.visit peers) edges) : Edges call edges

/-- `data` is an entry of the adapter's peer map with this host name. -/
def AdapterCall.Entry (call : AdapterCall) (host : String) (data : Json) : Prop :=
  ∃ status peers, call.status = some status ∧ (Json.get status "Peer").asMap = some peers ∧
    ∃ e ∈ peers, hostName e.2 = some host ∧ e.2 = data

/-- A node for `host` with an entry of the last device that reports it. -/
structure Request.NodeFor (req : Request) (node : Node) : Prop where
  label : node.label = node.id
  data : ∃ before call after, req.calls = before ++ call :: after ∧ call.Entry node.id node.data ∧
    ∀ later ∈ after, ¬ later.Reports node.id

structure Request.Merged (req : Request) (graph : NodeGraph) : Prop where
  edges : ∃ parts, List.Forall₂ AdapterCall.Edges req.calls parts ∧ graph.edges = parts.flatten
  nodup : graph.ids.Nodup
  ids : ∀ host, host ∈ graph.ids ↔ req.Seen host
  nodes : ∀ node ∈ graph.nodes, req.NodeFor node

/-! ## One device -/

theorem collectPeers_forall₂ {hostname : String} {peers : List (String × Json)}
    {result result' : PeerMapResult} (h : collectPeers hostname peers result = some result') :
    ∃ edges, result'.edges = result.edges ++ edges ∧ List.Forall₂ (EdgeFor hostname) peers edges := by
  induction peers generalizing result with
  | nil =>
      cases h
      exact ⟨[], (List.append_nil _).symm, .nil⟩
  | cons e peers ih =>
      obtain ⟨peerhostname, hname, hrest⟩ := collectPeers_cons h
      rcases ih hrest with ⟨edges, hedges, hforall⟩
      have hedge : EdgeFor hostname e
          { id := hostname ++ "->" ++ peerhostname, source := hostname, target := peerhostname } :=
        ⟨rfl, hname, rfl⟩
      refine ⟨_, ?_, .cons hedge hforall⟩
      rw [hedges, PeerMapResult.addPeer, List.append_assoc, List.singleton_append]

/-- A node is of the first entry with its host name, or was there before. -/
theorem collectPeers_data {hostname : String} {peers : List (String × Json)}
    {result result' : PeerMapResult} (h : collectPeers hostname peers result = some result')
    {k : String} {node : Node} (hk : result'.nodes.lookup k = some node) :
    result.nodes.lookup k = some node ∨
      ∃ e ∈ peers, hostName e.2 = some k ∧ node = { id := k, label := k, data := e.2 } := by
  induction peers generalizing result with
  | nil =>
      cases h
      exact .inl hk
  | cons e peers ih =>
      obtain ⟨peerhostname, hname, hrest⟩ := collectPeers_cons h
      rcases ih hrest with hold | ⟨e, he, hk, hnode⟩
      · unfold PeerMapResult.addPeer at hold
        dsimp only at hold
        split at hold
        · exact .inl hold
        · rcases lookup_insert_cases hold with ⟨hkey, hnode⟩ | ⟨_, hold⟩
          · subst hkey
            exact .inr ⟨e, List.mem_cons_self, hname, hnode.symm⟩
          · exact .inl hold
      · exact .inr ⟨e, List.mem_cons_of_mem _ he, hk, hnode⟩

/-- The result of one device, entry by entry. -/
structure Collected (call : AdapterCall) (r : PeerMapResult) : Prop where
  edges : call.Edges r.edges
  data : ∀ k node, r.nodes.lookup k = some node →
    node.id = k ∧ node.label = k ∧ call.Entry k node.data

theorem result_collected {call : AdapterCall} {r : PeerMapResult} (h : call.result = some r) :
    Collected call r := by
  rcases result_cases h with ⟨hnone, err, rfl⟩ |
    ⟨status, hostname, peers, hstatus, hself, hpeers, hcollect⟩
  · exact ⟨.failed hnone, fun k node hk => by cases hk⟩
  · constructor
    · obtain ⟨edges, hedges, hrel⟩ := collectPeers_forall₂ hcollect
      rw [hedges, List.nil_append]
      exact .answered hstatus hself hpeers hrel
    · intro k node hk
      rcases collectPeers_data hcollect hk with hnil | ⟨e, he, hname, hnode⟩
      · cases hnil
      · subst hnode
        refine ⟨rfl, rfl, status, peers, hstatus, hpeers, e, ?_, hname, rfl⟩
        exact (call.order.perm peers).mem_iff.mp he

/-! ## All devices -/

section Pairs

variable {α β : Type} {R : α → β → Prop} {l : List α}

/-- Related lists are split at the same place. -/
theorem forall₂_split {before after : List β} {b : β} (h : List.Forall₂ R l (before ++ b :: after)) :
    ∃ l₁ a l₂, l = l₁ ++ a :: l₂ ∧ R a b ∧ List.Forall₂ R l₂ after := by
  have hdrop := List.forall₂_drop_append l before (b :: after) h
  rcases List.forall₂_cons_right_iff.mp hdrop with ⟨a, l₂, hab, hl₂, heq⟩
  refine ⟨l.take before.length, a, l₂, ?_, hab, hl₂⟩
  rw [← heq, List.take_append_drop]

theorem forall₂_mem_left {l' : List β} (h : List.Forall₂ R l l') {a : α} (ha : a ∈ l) :
    ∃ b ∈ l', R a b := by
  induction h with
  | nil => cases ha
  | cons hab _ ih =>
      rcases List.mem_cons.mp ha with heq | ha
      · subst heq
        exact ⟨_, List.mem_cons_self, hab⟩
      · rcases ih ha with ⟨b, hb, hrel⟩
        exact ⟨b, List.mem_cons_of_mem _ hb, hrel⟩

end Pairs

/-- The nodes of a reply, by key. -/
def mergedNodes (results : List PeerMapResult) : GoMap Node := copyAll ∅ (results.map (·.nodes))

theorem nodeGraph_nodes (c : Client) (results : List PeerMapResult) :
    (nodeGraph c results).nodes = (mergedNodes results).entries.map (·.2) := by
  unfold nodeGraph mergedNodes copyAll
  rw [List.foldl_map]

section Results

variable {calls : List AdapterCall} {results : List PeerMapResult}

theorem results_forall₂ (h : calls.map AdapterCall.result = results.map some) :
    List.Forall₂ (fun call r => call.result = some r) calls results := by
  have heq : List.Forall₂ Eq (calls.map AdapterCall.result) (results.map some) := by
    rw [List.forall₂_eq_eq_eq]
    exact h
  rwa [List.forall₂_map_left_iff, List.forall₂_map_right_iff] at heq

/-- The last device that reports a host gives the node of that host. -/
theorem mergedNodes_lookup (h : calls.map AdapterCall.result = results.map some) {k : String}
    {node : Node} (hk : (mergedNodes results).lookup k = some node) :
    node.id = k ∧ node.label = k ∧ ∃ before call after, calls = before ++ call :: after ∧
      call.Entry k node.data ∧ ∀ later ∈ after, ¬ later.Reports k := by
  rcases lookup_copyAll hk with ⟨before, n, after, hsplit, hn, hafter⟩ | ⟨_, hempty⟩
  · rcases List.map_eq_append_iff.mp hsplit with ⟨rs, rs', hresults, _, hrest⟩
    rcases List.map_eq_cons_iff.mp hrest with ⟨r, later, hrs', hr, hlater⟩
    subst hresults hrs' hr hlater
    rcases forall₂_split (results_forall₂ h) with ⟨l₁, call, l₂, hcalls, hresult, hrel⟩
    obtain ⟨hid, hlabel, hentry⟩ := (result_collected hresult).data k node hn
    refine ⟨hid, hlabel, l₁, call, l₂, hcalls, hentry, ?_⟩
    intro other hother hreports
    rcases forall₂_mem_left hrel hother with ⟨r', hr', hresult'⟩
    have hmem := ((result_contributes hresult').nodes k).mpr hreports
    exact hafter r'.nodes (List.mem_map_of_mem hr') hmem
  · cases hempty

end Results

/-! ## Every reply -/

variable {req : Request} {c c' : Client} {graph : NodeGraph}

theorem Request.Serves.merged (h : req.Serves c c' graph) : req.Merged graph := by
  obtain ⟨results, hresults, hgraph⟩ := h.results
  have hnodes : graph.nodes = (mergedNodes results).entries.map (·.2) := by
    rw [hgraph, nodeGraph_nodes]
  have hkeyed : ∀ e ∈ (mergedNodes results).entries, e.2.id = e.1 := by
    intro e he
    exact (mergedNodes_lookup hresults (AList.mem_lookup_iff.mpr he)).1
  constructor
  · refine ⟨results.map (·.edges), ?_, ?_⟩
    · rw [List.forall₂_map_right_iff]
      exact (results_forall₂ hresults).imp fun call r hresult => (result_collected hresult).edges
    · rw [hgraph, nodeGraph, List.flatMap_def]
  · have hids : graph.ids = (mergedNodes results).keys := by
      unfold NodeGraph.ids AList.keys
      rw [hnodes, List.map_map]
      exact List.map_congr_left hkeyed
    rw [hids]
    exact (mergedNodes results).keys_nodup
  · exact h.ids
  · intro node hnode
    rw [hnodes] at hnode
    rcases List.mem_map.mp hnode with ⟨e, he, heq⟩
    subst heq
    obtain ⟨hid, hlabel, hlast⟩ := mergedNodes_lookup hresults (AList.mem_lookup_iff.mpr he)
    constructor
    · rw [hlabel, hid]
    · rw [hid]
      exact hlast

/-- A request is always answered, and every interleaving answers with the merge
of what the devices returned. -/
theorem peerMap_merged (req : Request) (c : Client) :
    (∀ s, Reaches step (start req.workers c) s →
      s.crashed = false ∧ (Stuck step s → Replied s)) ∧
    ∀ c' graph, req.Serves c c' graph → req.Merged graph := by
  constructor
  · intro s hs
    rcases peerMapWorkers_send req.wellFormed with ⟨results, _, hdo⟩
    obtain ⟨halive, hcomplete⟩ := reaches_alive c hdo hs
    refine ⟨halive, ?_⟩
    intro hstuck
    have hdone := hcomplete hstuck
    exact ⟨halive, hdone.started, hdone.closed⟩
  · intro c' graph hserves
    exact hserves.merged

end TSymbiote.WebUI
