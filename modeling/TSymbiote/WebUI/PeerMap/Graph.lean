import TSymbiote.WebUI.PeerMap.Hosts

/-! # Edges and nodes of the peer map

The nodes of a reply are the peers that the answering adapters report, while the
source of an edge, like an entry of the host list, is what an adapter reports of
itself. The graph is closed only when every host that answers is seen by another.
-/

namespace TSymbiote.WebUI

open Transition FanOut

def NodeGraph.ids (graph : NodeGraph) : List String := graph.nodes.map (·.id)

/-- The adapter's status lists a peer with this host name. -/
def AdapterCall.Reports (call : AdapterCall) (host : String) : Prop :=
  ∃ status peers, call.status = some status ∧ (Json.get status "Peer").asMap = some peers ∧
    ∃ e ∈ peers, hostName e.2 = some host

namespace Request

/-- The ends of every edge, and every listed host that answered, are nodes. -/
structure Closed (req : Request) (graph : NodeGraph) : Prop where
  sources : ∀ e ∈ graph.edges, e.source ∈ graph.ids
  targets : ∀ e ∈ graph.edges, e.target ∈ graph.ids
  hosts : ∀ h ∈ graph.hosts, (∃ a, req.Answered h a) → h ∈ graph.ids

/-- Some adapter of the request reports the host as a peer. -/
def Seen (req : Request) (host : String) : Prop := ∃ call ∈ req.calls, call.Reports host

end Request

/-! ## One result -/

/-- The result after one entry of the loop. -/
def PeerMapResult.addPeer (result : PeerMapResult) (hostname peerhostname : String) (peer : Json) :
    PeerMapResult :=
  { result with
    edges := result.edges ++
      [{ id := hostname ++ "->" ++ peerhostname, source := hostname, target := peerhostname }]
    nodes :=
      if peerhostname ∈ result.nodes then result.nodes
      else result.nodes.insert peerhostname
        { id := peerhostname, label := peerhostname, data := peer } }

theorem collectPeers_cons {hostname : String} {e : String × Json} {peers : List (String × Json)}
    {result result' : PeerMapResult} (h : collectPeers hostname (e :: peers) result = some result') :
    ∃ peerhostname, hostName e.2 = some peerhostname ∧
      collectPeers hostname peers (result.addPeer hostname peerhostname e.2) = some result' := by
  rcases e with ⟨key, peer⟩
  unfold collectPeers at h
  split at h
  · contradiction
  · next peerhostname hname => exact ⟨peerhostname, hname, h⟩

/-- A goroutine that survives its answer sends an error alone, or what the loop
has collected from the status. -/
theorem result_cases {call : AdapterCall} {r : PeerMapResult} (h : call.result = some r) :
    (call.status = none ∧ ∃ err, r = { error := err }) ∨
      ∃ status hostname peers, call.status = some status ∧
        hostName (Json.get status "Self") = some hostname ∧
        (Json.get status "Peer").asMap = some peers ∧
        collectPeers hostname (call.order.visit peers) {} = some r := by
  unfold AdapterCall.result at h
  unfold AdapterCall.status
  split at h
  · next err hanswer =>
      cases h
      exact .inl ⟨rfl, err, rfl⟩
  · next body hanswer =>
      cases hdecode : decodeObject body with
      | error err =>
          rw [hdecode, Option.some.injEq] at h
          exact .inl ⟨rfl, err, h.symm⟩
      | ok status =>
          simp only [hdecode, Option.bind_eq_bind, Option.bind_eq_some_iff] at h
          rcases h with ⟨hostname, hself, peers, hpeers, hcollect⟩
          exact .inr ⟨status, hostname, peers, rfl, hself, hpeers, hcollect⟩

/-- Nodes are kept under their own ids. -/
def Labelled (nodes : GoMap Node) : Prop := ∀ k n, nodes.lookup k = some n → n.id = k

theorem collectPeers_labelled {hostname : String} {peers : List (String × Json)}
    {result result' : PeerMapResult} (h : collectPeers hostname peers result = some result')
    (hlabelled : Labelled result.nodes) : Labelled result'.nodes := by
  induction peers generalizing result with
  | nil =>
      cases h
      exact hlabelled
  | cons e peers ih =>
      obtain ⟨peerhostname, _, hrest⟩ := collectPeers_cons h
      refine ih hrest ?_
      unfold PeerMapResult.addPeer
      dsimp only
      split
      · exact hlabelled
      · intro k n hk
        rcases lookup_insert_cases hk with ⟨hkey, hn⟩ | ⟨_, hold⟩
        · rw [← hn, hkey]
        · exact hlabelled k n hold

theorem collectPeers_nodes {hostname : String} {peers : List (String × Json)}
    {result result' : PeerMapResult} (h : collectPeers hostname peers result = some result')
    (k : String) :
    k ∈ result'.nodes ↔ k ∈ result.nodes ∨ ∃ e ∈ peers, hostName e.2 = some k := by
  induction peers generalizing result with
  | nil =>
      cases h
      simp
  | cons e peers ih =>
      obtain ⟨peerhostname, hname, hrest⟩ := collectPeers_cons h
      have hmem : k ∈ (result.addPeer hostname peerhostname e.2).nodes ↔
          k = peerhostname ∨ k ∈ result.nodes := by
        unfold PeerMapResult.addPeer
        dsimp only
        split
        · next hold => exact ⟨.inr, fun h => h.elim (fun heq => heq ▸ hold) id⟩
        · exact AList.mem_insert _
      rw [ih hrest, hmem, List.exists_mem_cons_iff, hname, Option.some.injEq, eq_comm (a := k)]
      tauto

theorem collectPeers_edges {hostname : String} {peers : List (String × Json)}
    {result result' : PeerMapResult} (h : collectPeers hostname peers result = some result')
    {edge : Edge} (hedge : edge ∈ result'.edges) :
    edge ∈ result.edges ∨
      edge.source = hostname ∧ ∃ e ∈ peers, hostName e.2 = some edge.target := by
  induction peers generalizing result with
  | nil =>
      cases h
      exact .inl hedge
  | cons e peers ih =>
      obtain ⟨peerhostname, hname, hrest⟩ := collectPeers_cons h
      rcases ih hrest with hmem | ⟨hsource, e, he, htarget⟩
      · rcases List.mem_append.mp hmem with hold | hnew
        · exact .inl hold
        · right
          rw [List.mem_singleton.mp hnew]
          exact ⟨rfl, _, List.mem_cons_self, hname⟩
      · exact .inr ⟨hsource, e, List.mem_cons_of_mem _ he, htarget⟩

/-- What an adapter contributes: one node for each host it reports, and edges
from itself to those. -/
structure Contributes (call : AdapterCall) (r : PeerMapResult) : Prop where
  labelled : Labelled r.nodes
  nodes : ∀ k, k ∈ r.nodes ↔ call.Reports k
  edges : ∀ edge ∈ r.edges, call.selfHost = some edge.source ∧ call.Reports edge.target

theorem contributes_nothing {call : AdapterCall} (h : call.status = none) (err : String) :
    Contributes call { error := err } where
  labelled := fun k n hk => by cases hk
  nodes := by
    intro k
    unfold AdapterCall.Reports
    rw [h]
    simp
  edges := fun edge hedge => absurd hedge List.not_mem_nil

theorem result_contributes {call : AdapterCall} {r : PeerMapResult} (h : call.result = some r) :
    Contributes call r := by
  rcases result_cases h with ⟨hnone, err, rfl⟩ |
    ⟨status, hostname, peers, hstatus, hself, hpeers, hcollect⟩
  · exact contributes_nothing hnone err
  · have hreports : ∀ k, call.Reports k ↔
        ∃ e ∈ call.order.visit peers, hostName e.2 = some k := by
      intro k
      unfold AdapterCall.Reports
      simp only [hstatus, Option.some.injEq, exists_and_left, exists_eq_left', hpeers,
        (call.order.perm peers).mem_iff]
    constructor
    · exact collectPeers_labelled hcollect fun k n hk => by cases hk
    · intro k
      rw [collectPeers_nodes hcollect, hreports]
      exact or_iff_right (AList.notMem_empty k)
    · intro edge hedge
      rcases collectPeers_edges hcollect hedge with hnil | ⟨hsource, htarget⟩
      · exact absurd hnil List.not_mem_nil
      · refine ⟨?_, (hreports _).mpr htarget⟩
        rw [AdapterCall.selfHost, hstatus, Option.bind_some, hself, hsource]

/-! ## The merged graph -/

theorem labelled_union {nodes nodes' : GoMap Node} (h : Labelled nodes) (h' : Labelled nodes') :
    Labelled (nodes ∪ nodes') := by
  intro k n hk
  rcases AList.lookup_union_eq_some.mp hk with hk | ⟨_, hk⟩
  · exact h k n hk
  · exact h' k n hk

theorem labelled_ids {nodes : GoMap Node} (h : Labelled nodes) :
    (nodes.entries.map (·.2)).map (·.id) = nodes.keys := by
  rw [List.map_map]
  refine List.map_congr_left fun e he => ?_
  exact h e.1 e.2 (AList.mem_lookup_iff.mpr he)

theorem merged_nodes {results : List PeerMapResult} (h : ∀ r ∈ results, Labelled r.nodes)
    {merged : GoMap Node} (hmerged : Labelled merged) :
    Labelled (results.foldl (fun merged res => res.nodes ∪ merged) merged) ∧
      ∀ k, k ∈ results.foldl (fun merged res => res.nodes ∪ merged) merged ↔
        (∃ r ∈ results, k ∈ r.nodes) ∨ k ∈ merged := by
  induction results generalizing merged with
  | nil => exact ⟨hmerged, by simp⟩
  | cons r results ih =>
      have hr := h r List.mem_cons_self
      obtain ⟨hlabelled, hmem⟩ := ih (fun o ho => h o (List.mem_cons_of_mem _ ho))
        (labelled_union hr hmerged)
      refine ⟨hlabelled, ?_⟩
      intro k
      rw [List.foldl_cons, hmem, AList.mem_union, List.exists_mem_cons_iff]
      exact or_left_comm.trans or_assoc.symm

theorem nodeGraph_ids {results : List PeerMapResult} (h : ∀ r ∈ results, Labelled r.nodes)
    (c : Client) (k : String) : k ∈ (nodeGraph c results).ids ↔ ∃ r ∈ results, k ∈ r.nodes := by
  have hempty : Labelled ∅ := fun k n hk => by cases hk
  obtain ⟨hlabelled, hmem⟩ := merged_nodes h hempty
  unfold NodeGraph.ids nodeGraph
  dsimp only
  rw [labelled_ids hlabelled, ← AList.mem_keys, hmem]
  exact or_iff_left (AList.notMem_empty k)

section Reply

variable {req : Request} {c c' : Client} {graph : NodeGraph}

/-- A reply has one contribution of each call, whatever the interleaving. -/
theorem Request.Serves.results (h : req.Serves c c' graph) :
    ∃ results : List PeerMapResult, req.calls.map AdapterCall.result = results.map some ∧
      graph = nodeGraph c' results := by
  rcases h with ⟨s, hs, hreplied, hc, hgraph⟩
  obtain ⟨results, hresults, hdo⟩ := peerMapWorkers_send req.wellFormed
  have hsent := (replied_does (reaches_invariant c hdo hs) hreplied).1
  exact ⟨results, hresults, by rw [hgraph, hc, hsent]⟩

theorem Request.Serves.hosts (h : req.Serves c c' graph) : graph.hosts = c'.getHosts := by
  obtain ⟨results, _, hgraph⟩ := h.results
  rw [hgraph]
  rfl

theorem mem_results {calls : List AdapterCall} {results : List PeerMapResult}
    (h : calls.map AdapterCall.result = results.map some) (r : PeerMapResult) :
    r ∈ results ↔ ∃ call ∈ calls, call.result = some r := by
  rw [← List.mem_map_of_injective (Option.some_injective _), ← h, List.mem_map]

theorem Request.Serves.ids (h : req.Serves c c' graph) (k : String) :
    k ∈ graph.ids ↔ req.Seen k := by
  obtain ⟨results, hresults, hgraph⟩ := h.results
  have hcontributes : ∀ r ∈ results, ∃ call ∈ req.calls, call.result = some r ∧
      Contributes call r := by
    intro r hr
    obtain ⟨call, hcall, hresult⟩ := (mem_results hresults r).mp hr
    exact ⟨call, hcall, hresult, result_contributes hresult⟩
  have hlabelled : ∀ r ∈ results, Labelled r.nodes := by
    intro r hr
    obtain ⟨_, _, _, hcontribution⟩ := hcontributes r hr
    exact hcontribution.labelled
  rw [hgraph, nodeGraph_ids hlabelled]
  constructor
  · intro hk
    rcases hk with ⟨r, hr, hk⟩
    obtain ⟨call, hcall, _, hcontribution⟩ := hcontributes r hr
    exact ⟨call, hcall, (hcontribution.nodes k).mp hk⟩
  · intro hk
    rcases hk with ⟨call, hcall, hreports⟩
    obtain ⟨r, hr⟩ := Option.isSome_iff_exists.mp ((result_isSome call).mpr (req.wellFormed call hcall))
    refine ⟨r, (mem_results hresults r).mpr ⟨call, hcall, hr⟩, ?_⟩
    exact ((result_contributes hr).nodes k).mpr hreports

theorem Request.Serves.edges (h : req.Serves c c' graph) {edge : Edge} (hedge : edge ∈ graph.edges) :
    (∃ a, req.Answered edge.source a) ∧ req.Seen edge.target := by
  obtain ⟨results, hresults, hgraph⟩ := h.results
  rw [hgraph] at hedge
  obtain ⟨r, hr, hedge⟩ := List.mem_flatMap.mp hedge
  obtain ⟨call, hcall, hresult⟩ := (mem_results hresults r).mp hr
  obtain ⟨hself, hreports⟩ := (result_contributes hresult).edges edge hedge
  exact ⟨⟨call.adapter, call, hcall, hself, rfl⟩, call, hcall, hreports⟩

/-- The adapter that answers for a host last has it. -/
theorem answered_last {host adapter : String} (h : req.Answered host adapter) (c : Client) :
    ∃ c' graph, req.Serves c c' graph ∧ c'.getAdapter host = some adapter := by
  rcases h with ⟨call, hcall, hself, hadapter⟩
  subst hadapter
  obtain ⟨before, after, hsplit⟩ := List.append_of_mem hcall
  have hperm : (before ++ after ++ [call]).Perm req.calls := by
    rw [hsplit, List.append_assoc]
    exact List.Perm.append_left before (List.perm_append_singleton call after)
  obtain ⟨graph, hserves, _⟩ := req.serves_in_order c hperm
  refine ⟨_, graph, hserves, ?_⟩
  rw [updateAll_append, updateAll_cons, updateAll_nil, update_answered hself,
    Client.getAdapter_setKnownHost, if_pos rfl]

/-- A host that answers is listed by the reply that registers it last. -/
theorem answered_listed {host adapter : String} (h : req.Answered host adapter) (c : Client) :
    ∃ c' graph, req.Serves c c' graph ∧ host ∈ graph.hosts := by
  obtain ⟨c', graph, hserves, hlast⟩ := answered_last h c
  refine ⟨c', graph, hserves, ?_⟩
  rw [hserves.hosts, Client.mem_getHosts]
  exact ⟨adapter, hlast⟩

end Reply

/-- The replies of a request are closed graphs exactly when each host that
answers is a peer of some adapter that answers. -/
theorem graph_closed_iff (req : Request) (c : Client) :
    (∀ c' graph, req.Serves c c' graph → req.Closed graph) ↔
      ∀ host adapter, req.Answered host adapter → req.Seen host := by
  constructor
  · intro hclosed host adapter hanswered
    obtain ⟨c', graph, hserves, hlisted⟩ := answered_listed hanswered c
    exact (hserves.ids host).mp ((hclosed c' graph hserves).hosts host hlisted ⟨adapter, hanswered⟩)
  · intro hseen c' graph hserves
    constructor
    · intro edge hedge
      obtain ⟨⟨adapter, hanswered⟩, _⟩ := hserves.edges hedge
      exact (hserves.ids _).mpr (hseen _ adapter hanswered)
    · intro edge hedge
      exact (hserves.ids _).mpr (hserves.edges hedge).2
    · intro host _ hanswered
      rcases hanswered with ⟨adapter, hanswered⟩
      exact (hserves.ids _).mpr (hseen _ adapter hanswered)

theorem laptop_fresh : ∀ f ∈ ([] : List (Shared.Field × Shared.Value)),
    f.1.name ≠ "HostName" ∧ f.1.jsonName ≠ "HostName" := List.forall_mem_nil _

/-- The only adapter, on the host `node`, which sees the peer `laptop`. -/
def oneAdapter : Request where
  devices := [adapterDevice "ts-a"]
  calls := [{ nodeAnswers "ts-a" with
    answer := Adapter.status (.ok { lonelyStatus with
      peer := some (AList.singleton "nodekey:1"
        (some { hostName := "laptop", rest := [], fresh := laptop_fresh })) }) }]
  found := rfl
  wellFormed := by
    intro call hcall
    cases List.mem_singleton.mp hcall
    rw [status_wellFormed_iff rfl]
    refine ⟨rfl, _, rfl, ?_⟩
    intro e he
    cases List.mem_singleton.mp he
    rfl

/-- Its edge starts at a host that is not among the nodes. -/
theorem lone_source_not_a_node :
    ∃ c' graph, oneAdapter.Serves newClient c' graph ∧ graph.hosts = ["node"] ∧
      graph.edges = [⟨"node->laptop", "node", "laptop"⟩] ∧ graph.ids = ["laptop"] ∧
      ¬ oneAdapter.Closed graph := by
  have hrun : ∃ s, execute step (start oneAdapter.workers newClient)
      [.spawn, .work 0, .work 0, .deliver, .close] = some s ∧ Replied s ∧
        (nodeGraph s.shared s.results).hosts = ["node"] ∧
        (nodeGraph s.shared s.results).edges = [⟨"node->laptop", "node", "laptop"⟩] ∧
        (nodeGraph s.shared s.results).ids = ["laptop"] :=
    ⟨_, rfl, ⟨rfl, rfl, rfl⟩, rfl, rfl, rfl⟩
  rcases hrun with ⟨s, hs, hreplied, hhosts, hedges, hids⟩
  refine ⟨_, _, ⟨s, execute_reaches hs, hreplied, rfl, rfl⟩, hhosts, hedges, hids, ?_⟩
  intro hclosed
  have hsource := hclosed.sources ⟨"node->laptop", "node", "laptop"⟩ (by simp [hedges])
  rw [hids] at hsource
  simp at hsource

end TSymbiote.WebUI
