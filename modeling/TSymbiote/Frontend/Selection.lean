import TSymbiote.Frontend.Ping
import TSymbiote.Lib.Hooks
import TSymbiote.Lib.Transition

/-! # Selected hosts and peers

The page keeps the selected hosts and the selected targets. Which targets can be
reached is a chain of memos over the peer map, the selected hosts and the Hide
Offline option; three effects rewrite the selected targets when what they depend
on has changed.
-/

namespace TSymbiote.Frontend.Selection

open Hooks Transition

/-- `Online` is missing for a node that does not have it. -/
structure Node where
  id : String
  Online : Option Bool
  deriving DecidableEq, Repr

def isOnline (nodes : List Node) (nodeId : String) : Bool :=
  match nodes.find? fun n => n.id == nodeId with
  | some node => node.Online != some false
  | none => true

/-! ## What the memos compute -/

def targetNodesOf (nodes : List Node) (hosts : List String) : List String :=
  (nodes.map Node.id).filter fun nodeId => !hosts.contains nodeId

def reachableBaseOf (targetNodes : List String) (selectedHosts : OrderedSet String)
    (edges : List Edge) : List String :=
  if selectedHosts.size = 0 then []
  else targetNodes.filter fun targetId =>
    selectedHosts.toList.any fun hostId => hasEdge edges hostId targetId

/-! ## The page -/

/-- The state variables, the memos of the last render with the function `isOnline`,
which stands for the nodes it looks at, and the dependencies of the effects then. -/
structure Page where
  nodes : Ref (List Node)
  edges : Ref (List Edge)
  hosts : Ref (List String)
  selectedHosts : Ref (OrderedSet String)
  selectedTargets : OrderedSet String
  hideOfflinePeers : Bool
  isOnline : Memo (List Node)
  targetNodes : Memo (List String)
  reachableTargetsBase : Memo (List String)
  reachableTargets : Memo (List String)
  effectDeps : List (List Dep)
  nextId : Nat

namespace Page

/-- Without the option the base is returned, under its own identity. -/
def render (p : Page) : Page :=
  let isOnline := p.isOnline.render [.ref p.nodes.id] ⟨p.nextId, p.nodes.val⟩
  let targetNodes := p.targetNodes.render [.ref p.nodes.id, .ref p.hosts.id]
    ⟨p.nextId + 1, targetNodesOf p.nodes.val p.hosts.val⟩
  let reachableTargetsBase := p.reachableTargetsBase.render
    [.ref targetNodes.value.id, .ref p.selectedHosts.id, .ref p.edges.id]
    ⟨p.nextId + 2, reachableBaseOf targetNodes.value.val p.selectedHosts.val p.edges.val⟩
  let reachableTargets := p.reachableTargets.render
    [.ref reachableTargetsBase.value.id, .bool p.hideOfflinePeers, .ref isOnline.value.id]
    (if p.hideOfflinePeers = true then
      ⟨p.nextId + 3, reachableTargetsBase.value.val.filter (Selection.isOnline isOnline.value.val)⟩
    else reachableTargetsBase.value)
  { p with isOnline, targetNodes, reachableTargetsBase, reachableTargets, nextId := p.nextId + 4 }

/-- Select all targets when nodes and hosts are loaded. -/
def selectAll (p : Page) (prevSelected : OrderedSet String) : OrderedSet String :=
  if p.nodes.val ≠ [] ∧ p.hosts.val ≠ [] then
    .ofList ((targetNodesOf p.nodes.val p.hosts.val).filter fun nodeId =>
      !p.hideOfflinePeers || Selection.isOnline p.nodes.val nodeId)
  else prevSelected

/-- Deselect offline peers when the option is on. -/
def deselectOffline (p : Page) (prevSelected : OrderedSet String) : OrderedSet String :=
  if p.hideOfflinePeers = true then prevSelected.filter (Selection.isOnline p.nodes.val)
  else prevSelected

/-- Clean up targets that are no longer reachable; a set of the same size stays. -/
def cleanUp (p : Page) (prevSelected : OrderedSet String) : OrderedSet String :=
  let newSelected := prevSelected.filter fun targetId => p.reachableTargets.value.val.contains targetId
  if newSelected.size ≠ prevSelected.size then newSelected else prevSelected

def effects (p : Page) : List (Effect (OrderedSet String)) :=
  [⟨[.ref p.nodes.id, .ref p.hosts.id, .bool p.hideOfflinePeers], p.selectAll⟩,
    ⟨[.bool p.hideOfflinePeers, .ref p.nodes.id], p.deselectOffline⟩,
    ⟨[.ref p.reachableTargets.value.id], p.cleanUp⟩]

/-- A render and its effects. The render that their updates lead to is the same but
for the selected targets, on which no memo and no effect depends. -/
def commit (p : Page) : Page :=
  let r := p.render
  { r with
    selectedTargets := runEffects r.effects r.effectDeps r.selectedTargets
    effectDeps := r.effects.map Effect.deps }

/-- The page before its first render, when no dependencies are known. -/
def blank : Page where
  nodes := ⟨0, []⟩
  edges := ⟨1, []⟩
  hosts := ⟨2, []⟩
  selectedHosts := ⟨3, .empty⟩
  selectedTargets := .empty
  hideOfflinePeers := true
  isOnline := ⟨[], ⟨4, []⟩⟩
  targetNodes := ⟨[], ⟨5, []⟩⟩
  reachableTargetsBase := ⟨[], ⟨6, []⟩⟩
  reachableTargets := ⟨[], ⟨7, []⟩⟩
  effectDeps := [[], [], []]
  nextId := 8

def setSelectedHosts (p : Page) (selectedHosts : OrderedSet String) : Page :=
  { p with selectedHosts := ⟨p.nextId, selectedHosts⟩, nextId := p.nextId + 1 }

end Page

/-- A decoded peer map; the ids of its nodes are distinct. -/
structure PeerMap where
  nodes : List Node
  edges : List Edge
  hosts : List String
  distinct : (nodes.map Node.id).Nodup

/-- The updates of `fetchData`. -/
def Page.setPeerMap (p : Page) (data : PeerMap) : Page :=
  { p with
    hosts := ⟨p.nextId, data.hosts⟩
    selectedHosts := ⟨p.nextId + 1, .ofList data.hosts⟩
    nodes := ⟨p.nextId + 2, data.nodes⟩
    edges := ⟨p.nextId + 3, data.edges⟩
    nextId := p.nextId + 4 }

/-- The page when the peer map has been loaded. -/
def loaded (data : PeerMap) : Page := (Page.blank.commit.setPeerMap data).commit

/-! ## Actions -/

inductive Action where
  | toggleHost (hostId : String)
  | toggleAllHosts
  | toggleTarget (targetId : String)
  | toggleAllTargets
  /-- The entry of a host's context menu. -/
  | filterToHost (hostId : String)
  | toggleHideOffline
  /-- By the button or by the key. -/
  | reset
  deriving DecidableEq, Repr

/-- The lists show hosts, and targets that are reachable. -/
def enabled (p : Page) : Action → Bool
  | .toggleHost hostId | .filterToHost hostId => p.hosts.val.contains hostId
  | .toggleTarget targetId => p.reachableTargets.value.val.contains targetId
  | .toggleAllTargets => !p.reachableTargets.value.val.isEmpty
  | _ => true

def Page.toggleAllTargets (p : Page) : Page :=
  if p.selectedTargets.size = p.reachableTargets.value.val.length then
    { p with selectedTargets := .empty }
  else { p with selectedTargets := .ofList p.reachableTargets.value.val }

/-- The state updates of an action. -/
def update (p : Page) : Action → Page
  | .toggleHost hostId => p.setSelectedHosts (p.selectedHosts.val.toggle hostId)
  | .toggleAllHosts =>
      p.setSelectedHosts
        (if p.selectedHosts.val.size = p.hosts.val.length then .empty else .ofList p.hosts.val)
  | .toggleTarget targetId => { p with selectedTargets := p.selectedTargets.toggle targetId }
  | .toggleAllTargets => p.toggleAllTargets
  | .filterToHost hostId => p.setSelectedHosts (.ofList [hostId])
  | .toggleHideOffline => { p with hideOfflinePeers := !p.hideOfflinePeers }
  | .reset =>
      { p.setSelectedHosts (.ofList p.hosts.val) with
        selectedTargets := .ofList p.targetNodes.value.val }

/-- An action, with its updates and effects. -/
def step (p : Page) (a : Action) : Option Page :=
  if enabled p a = true then some (update p a).commit else none

/-! ## A render -/

/-- The targets that can be reached, by the state variables alone. -/
def reachableIn (nodes : List Node) (hosts : List String) (edges : List Edge)
    (selectedHosts : OrderedSet String) (hideOfflinePeers : Bool) : List String :=
  let base := reachableBaseOf (targetNodesOf nodes hosts) selectedHosts edges
  if hideOfflinePeers = true then base.filter (isOnline nodes) else base

/-- The memos are those of the state variables, every identity has been given, and
the last effects were those of this render. -/
structure Current (p : Page) : Prop where
  nodesId : p.nodes.id < p.nextId
  edgesId : p.edges.id < p.nextId
  hostsId : p.hosts.id < p.nextId
  selectedHostsId : p.selectedHosts.id < p.nextId
  isOnlineId : p.isOnline.value.id < p.nextId
  targetNodesId : p.targetNodes.value.id < p.nextId
  baseId : p.reachableTargetsBase.value.id < p.nextId
  reachableId : p.reachableTargets.value.id < p.nextId
  isOnlineDeps : p.isOnline.deps = [.ref p.nodes.id]
  targetNodesDeps : p.targetNodes.deps = [.ref p.nodes.id, .ref p.hosts.id]
  baseDeps : p.reachableTargetsBase.deps =
    [.ref p.targetNodes.value.id, .ref p.selectedHosts.id, .ref p.edges.id]
  reachableDeps : p.reachableTargets.deps =
    [.ref p.reachableTargetsBase.value.id, .bool p.hideOfflinePeers, .ref p.isOnline.value.id]
  isOnlineVal : p.isOnline.value.val = p.nodes.val
  targetNodesVal : p.targetNodes.value.val = targetNodesOf p.nodes.val p.hosts.val
  baseVal : p.reachableTargetsBase.value.val =
    reachableBaseOf p.targetNodes.value.val p.selectedHosts.val p.edges.val
  filtered : p.hideOfflinePeers = true →
    p.reachableTargets.value.val =
        p.reachableTargetsBase.value.val.filter (isOnline p.isOnline.value.val) ∧
      p.reachableTargets.value.id ≠ p.reachableTargetsBase.value.id
  unfiltered : p.hideOfflinePeers = false → p.reachableTargets.value = p.reachableTargetsBase.value
  effectDeps : p.effectDeps = p.effects.map Effect.deps

/-- State updates: of the state variables that are compared by identity, each is
kept or gets a new one. -/
structure Updates (p q : Page) : Prop where
  nodes : p.nodes.Renews p.nextId q.nodes
  edges : p.edges.Renews p.nextId q.edges
  hosts : p.hosts.Renews p.nextId q.hosts
  selectedHosts : p.selectedHosts.Renews p.nextId q.selectedHosts
  nextId : p.nextId ≤ q.nextId
  nodesId : q.nodes.id < q.nextId
  edgesId : q.edges.id < q.nextId
  hostsId : q.hosts.id < q.nextId
  selectedHostsId : q.selectedHosts.id < q.nextId
  isOnline : q.isOnline = p.isOnline
  targetNodes : q.targetNodes = p.targetNodes
  reachableTargetsBase : q.reachableTargetsBase = p.reachableTargetsBase
  reachableTargets : q.reachableTargets = p.reachableTargets
  effectDeps : q.effectDeps = p.effectDeps

section Render

variable {p q : Page}

theorem Updates.isOnline_renews (hp : Current p) (h : Updates p q) :
    p.isOnline.value.Renews p.nextId q.render.isOnline.value ∧
      q.render.isOnline.value.val = q.nodes.val := by
  have hdeps := hp.isOnlineDeps
  rw [← h.isOnline] at hdeps ⊢
  refine ⟨Memo.render_renews _ _ h.nextId, Memo.render_val ?_⟩
  intro heq
  rw [hdeps] at heq
  have hnodes := h.nodes.eq_of_id hp.nodesId (by simpa using heq.symm)
  rw [h.isOnline, hp.isOnlineVal, hnodes]

theorem Updates.targetNodes_renews (hp : Current p) (h : Updates p q) :
    p.targetNodes.value.Renews p.nextId q.render.targetNodes.value ∧
      q.render.targetNodes.value.val = targetNodesOf q.nodes.val q.hosts.val := by
  have hdeps := hp.targetNodesDeps
  rw [← h.targetNodes] at hdeps ⊢
  refine ⟨Memo.render_renews _ _ (Nat.le_succ_of_le h.nextId), Memo.render_val ?_⟩
  intro heq
  rw [hdeps] at heq
  simp only [List.cons.injEq, Dep.ref.injEq, and_true] at heq
  have hnodes := h.nodes.eq_of_id hp.nodesId heq.1.symm
  have hhosts := h.hosts.eq_of_id hp.hostsId heq.2.symm
  rw [h.targetNodes, hp.targetNodesVal, hnodes, hhosts]

theorem Updates.base_renews (hp : Current p) (h : Updates p q) :
    p.reachableTargetsBase.value.Renews p.nextId q.render.reachableTargetsBase.value ∧
      q.render.reachableTargetsBase.value.val =
        reachableBaseOf q.render.targetNodes.value.val q.selectedHosts.val q.edges.val := by
  have hdeps := hp.baseDeps
  have hrenews := (h.targetNodes_renews hp).1
  rw [← h.reachableTargetsBase] at hdeps ⊢
  refine ⟨Memo.render_renews _ _ (by have := h.nextId; dsimp only; omega), Memo.render_val ?_⟩
  intro heq
  rw [hdeps] at heq
  simp only [List.cons.injEq, Dep.ref.injEq, and_true] at heq
  have htargets := hrenews.eq_of_id hp.targetNodesId heq.1.symm
  have hhosts := h.selectedHosts.eq_of_id hp.selectedHostsId heq.2.1.symm
  have hedges := h.edges.eq_of_id hp.edgesId heq.2.2.symm
  have hvalue : q.render.targetNodes.value = p.targetNodes.value := htargets
  rw [h.reachableTargetsBase, hp.baseVal, ← hhosts, ← hedges, ← hvalue]
  rfl

/-- A base with an old identity comes from the old state variables. -/
theorem Updates.kept_of_base (hp : Current p) (h : Updates p q)
    (hid : q.render.reachableTargetsBase.value.id < p.nextId) :
    q.nodes = p.nodes ∧ q.hosts = p.hosts ∧ q.selectedHosts = p.selectedHosts ∧ q.edges = p.edges := by
  have hle := h.nextId
  have hbase := Memo.deps_of_lt (by dsimp only; omega) hid
  rw [h.reachableTargetsBase, hp.baseDeps] at hbase
  simp only [List.cons.injEq, Dep.ref.injEq, and_true] at hbase
  have htargets := Memo.deps_of_lt (by dsimp only; omega) (hbase.1 ▸ hp.targetNodesId)
  rw [h.targetNodes, hp.targetNodesDeps] at htargets
  simp only [List.cons.injEq, Dep.ref.injEq, and_true] at htargets
  exact ⟨h.nodes.eq_of_id hp.nodesId htargets.1.symm, h.hosts.eq_of_id hp.hostsId htargets.2.symm,
    h.selectedHosts.eq_of_id hp.selectedHostsId hbase.2.1.symm,
    h.edges.eq_of_id hp.edgesId hbase.2.2.symm⟩

/-- The reachable targets are kept with all that they depend on, or they get
another identity. -/
inductive Reachable (p q : Page) : Prop where
  | kept (reachable : q.render.reachableTargets = p.reachableTargets)
      (base : q.render.reachableTargetsBase.value = p.reachableTargetsBase.value)
      (isOnline : q.render.isOnline.value = p.isOnline.value) (nodes : q.nodes = p.nodes)
      (hosts : q.hosts = p.hosts) (hide : q.hideOfflinePeers = p.hideOfflinePeers)
  | renewed (id : q.render.reachableTargets.value.id ≠ p.reachableTargets.value.id)
      (value : q.render.reachableTargets.value =
        if q.hideOfflinePeers = true then
          ⟨q.nextId + 3, q.render.reachableTargetsBase.value.val.filter
            (isOnline q.render.isOnline.value.val)⟩
        else q.render.reachableTargetsBase.value)

/-- Where a new memo is the base itself, the base is not what was there before. -/
theorem Updates.base_ne (hp : Current p) (h : Updates p q) (hhide : q.hideOfflinePeers = false)
    (hdeps : q.reachableTargets.deps ≠
      [.ref q.render.reachableTargetsBase.value.id, .bool q.hideOfflinePeers,
        .ref q.render.isOnline.value.id]) :
    q.render.reachableTargetsBase.value.id ≠ p.reachableTargets.value.id := by
  have hle := h.nextId
  have hold := hp.reachableId
  rcases (h.base_renews hp).1 with hsame | hnew
  · -- the base is old, so that the option must have changed
    obtain ⟨hnodes, _, _, _⟩ := h.kept_of_base hp (hsame ▸ hp.baseId)
    cases hpast : p.hideOfflinePeers with
    | true =>
        intro hid
        exact (hp.filtered hpast).2 (hid.symm.trans (congrArg Ref.id hsame))
    | false =>
        have honline : q.render.isOnline = p.isOnline := by
          refine (Memo.render_of_eq ?_).trans h.isOnline
          rw [h.isOnline, hp.isOnlineDeps, hnodes]
        rw [h.reachableTargets, hp.reachableDeps, hsame, honline, hhide, hpast] at hdeps
        exact absurd rfl hdeps
  · omega

theorem Updates.reachable (hp : Current p) (h : Updates p q) : Reachable p q := by
  have hle := h.nextId
  have hold := hp.reachableId
  have hbase := (h.base_renews hp).1
  have honline := (h.isOnline_renews hp).1
  by_cases hdeps : q.reachableTargets.deps =
      [.ref q.render.reachableTargetsBase.value.id, .bool q.hideOfflinePeers,
        .ref q.render.isOnline.value.id]
  · have hkept : q.render.reachableTargets = p.reachableTargets :=
      (Memo.render_of_eq hdeps).trans h.reachableTargets
    rw [h.reachableTargets, hp.reachableDeps] at hdeps
    simp only [List.cons.injEq, Dep.ref.injEq, Dep.bool.injEq, and_true] at hdeps
    obtain ⟨hnodes, hhosts, _, _⟩ := h.kept_of_base hp (hdeps.1 ▸ hp.baseId)
    exact .kept hkept (hbase.eq_of_id hp.baseId hdeps.1.symm)
      (honline.eq_of_id hp.isOnlineId hdeps.2.2.symm) hnodes hhosts hdeps.2.1.symm
  · have hvalue : q.render.reachableTargets.value = _ :=
      congrArg Memo.value (Memo.render_of_ne hdeps)
    refine .renewed ?_ hvalue
    rw [hvalue]
    dsimp only
    cases hhide : q.hideOfflinePeers with
    | true =>
        rw [if_pos rfl]
        dsimp only
        omega
    | false =>
        rw [if_neg (by decide)]
        exact h.base_ne hp hhide hdeps

/-! ### What is current after a render -/

theorem Updates.isOnline_lt (hp : Current p) (h : Updates p q) :
    q.render.isOnline.value.id < q.nextId + 1 := by
  have hle := h.nextId
  have hold := hp.isOnlineId
  refine Memo.render_lt ?_ (Nat.lt_succ_self _)
  rw [h.isOnline]
  omega

theorem Updates.targetNodes_lt (hp : Current p) (h : Updates p q) :
    q.render.targetNodes.value.id < q.nextId + 2 := by
  have hle := h.nextId
  have hold := hp.targetNodesId
  refine Memo.render_lt ?_ (Nat.lt_succ_self _)
  rw [h.targetNodes]
  omega

theorem Updates.base_lt (hp : Current p) (h : Updates p q) :
    q.render.reachableTargetsBase.value.id < q.nextId + 3 := by
  have hle := h.nextId
  have hold := hp.baseId
  refine Memo.render_lt ?_ (Nat.lt_succ_self _)
  rw [h.reachableTargetsBase]
  omega

theorem Updates.reachable_lt (hp : Current p) (h : Updates p q) :
    q.render.reachableTargets.value.id < q.nextId + 4 := by
  have hle := h.nextId
  have hold := hp.reachableId
  refine Memo.render_lt ?_ ?_
  · rw [h.reachableTargets]
    omega
  · split
    · exact Nat.lt_succ_self _
    · exact Nat.lt_add_right 1 (h.base_lt hp)

theorem Updates.filtered (hp : Current p) (h : Updates p q) (hhide : q.hideOfflinePeers = true) :
    q.render.reachableTargets.value.val = q.render.reachableTargetsBase.value.val.filter
        (Selection.isOnline q.render.isOnline.value.val) ∧
      q.render.reachableTargets.value.id ≠ q.render.reachableTargetsBase.value.id := by
  have hbaseId := h.base_lt hp
  cases h.reachable hp with
  | kept hkept hsame honline _ _ hpast =>
      rw [hkept, hsame, honline]
      exact hp.filtered (hpast.symm.trans hhide)
  | renewed _ hvalue =>
      rw [hvalue, if_pos hhide]
      refine ⟨rfl, ?_⟩
      dsimp only
      omega

theorem Updates.unfiltered (hp : Current p) (h : Updates p q) (hhide : q.hideOfflinePeers = false) :
    q.render.reachableTargets.value = q.render.reachableTargetsBase.value := by
  cases h.reachable hp with
  | kept hkept hsame _ _ _ hpast =>
      rw [hkept, hsame]
      exact hp.unfiltered (hpast.symm.trans hhide)
  | renewed _ hvalue => rw [hvalue, if_neg (by simp [hhide])]

theorem commit_current (hp : Current p) (h : Updates p q) : Current q.commit := by
  constructor
  case nodesId => exact Nat.lt_add_right 4 h.nodesId
  case edgesId => exact Nat.lt_add_right 4 h.edgesId
  case hostsId => exact Nat.lt_add_right 4 h.hostsId
  case selectedHostsId => exact Nat.lt_add_right 4 h.selectedHostsId
  case isOnlineId => exact Nat.lt_add_right 3 (h.isOnline_lt hp)
  case targetNodesId => exact Nat.lt_add_right 2 (h.targetNodes_lt hp)
  case baseId => exact Nat.lt_add_right 1 (h.base_lt hp)
  case reachableId => exact h.reachable_lt hp
  case isOnlineDeps => exact Memo.render_deps _ _ _
  case targetNodesDeps => exact Memo.render_deps _ _ _
  case baseDeps => exact Memo.render_deps _ _ _
  case reachableDeps => exact Memo.render_deps _ _ _
  case isOnlineVal => exact (h.isOnline_renews hp).2
  case targetNodesVal => exact (h.targetNodes_renews hp).2
  case baseVal => exact (h.base_renews hp).2
  case filtered => exact h.filtered hp
  case unfiltered => exact h.unfiltered hp
  case effectDeps => rfl

/-! ### The effects -/

theorem mem_cleanUp {s : OrderedSet String} {x : String} :
    x ∈ p.cleanUp s ↔ x ∈ s ∧ x ∈ p.reachableTargets.value.val := by
  unfold Page.cleanUp
  dsimp only
  split
  · simp
  · next hsize =>
      have hsame := OrderedSet.filter_eq_self_of_size (not_not.mp hsize)
      constructor
      · intro hx
        rw [← hsame] at hx
        simpa using hx
      · exact And.left

theorem effects_deps (p : Page) : p.effects.map Effect.deps =
    [[.ref p.nodes.id, .ref p.hosts.id, .bool p.hideOfflinePeers],
      [.bool p.hideOfflinePeers, .ref p.nodes.id], [.ref p.reachableTargets.value.id]] := rfl

/-- Without another identity no effect runs; else the last one does. -/
theorem commit_selected (hp : Current p) (h : Updates p q) :
    q.render.reachableTargets = p.reachableTargets ∧
        q.render.reachableTargetsBase.value = p.reachableTargetsBase.value ∧
        q.commit.selectedTargets = q.selectedTargets ∨
      ∃ s, q.commit.selectedTargets = q.render.cleanUp s := by
  cases h.reachable hp with
  | kept hkept hbase _ hnodes hhosts hhide =>
      refine .inl ⟨hkept, hbase, ?_⟩
      have hdeps : q.render.effectDeps = q.render.effects.map Effect.deps := by
        have hsame : q.render.effects.map Effect.deps = p.effects.map Effect.deps := by
          have hnodes' : q.render.nodes = p.nodes := hnodes
          have hhosts' : q.render.hosts = p.hosts := hhosts
          have hhide' : q.render.hideOfflinePeers = p.hideOfflinePeers := hhide
          rw [effects_deps, effects_deps, hnodes', hhosts', hhide', hkept]
        rw [hsame, ← hp.effectDeps]
        exact h.effectDeps
      change runEffects q.render.effects q.render.effectDeps q.selectedTargets = q.selectedTargets
      rw [hdeps, runEffects_unchanged]
  | renewed hid _ =>
      right
      have hdeps : q.render.effectDeps = p.effects.map Effect.deps := h.effectDeps.trans hp.effectDeps
      have hlast : ([.ref q.render.reachableTargets.value.id] : List Dep) ≠
          [.ref p.reachableTargets.value.id] := by simpa using hid
      change ∃ s, runEffects q.render.effects q.render.effectDeps q.selectedTargets =
        q.render.cleanUp s
      rw [hdeps]
      simp only [Page.effects, List.map_cons, List.map_nil, runEffects]
      rw [if_neg hlast]
      exact ⟨_, rfl⟩

/-- After the effects the selected targets are reachable, if they were so where
the reachable targets are kept. -/
theorem commit_subset (hp : Current p) (h : Updates p q)
    (hkept : q.render.reachableTargetsBase.value = p.reachableTargetsBase.value →
      ∀ x ∈ q.selectedTargets, x ∈ p.reachableTargets.value.val) :
    ∀ x ∈ q.commit.selectedTargets, x ∈ q.commit.reachableTargets.value.val := by
  intro x hx
  rcases commit_selected hp h with ⟨hreachable, hbase, hselected⟩ | ⟨s, hselected⟩
  · rw [hselected] at hx
    exact (congrArg (fun m => x ∈ m.value.val) hreachable).mpr (hkept hbase x hx)
  · rw [hselected] at hx
    exact (mem_cleanUp.mp hx).2

/-- The render that the effects lead to changes nothing any more. -/
theorem commit_again (hp : Current p) : p.commit = { p with nextId := p.nextId + 4 } := by
  have hrender : p.render = { p with nextId := p.nextId + 4 } := by
    unfold Page.render
    dsimp only
    rw [Memo.render_of_eq hp.isOnlineDeps, Memo.render_of_eq hp.targetNodesDeps,
      Memo.render_of_eq hp.baseDeps, Memo.render_of_eq hp.reachableDeps]
  have heffects : p.render.effects.map Effect.deps = p.render.effectDeps := by
    rw [hrender]
    exact hp.effectDeps.symm
  unfold Page.commit
  dsimp only
  rw [heffects, ← heffects, runEffects_unchanged, heffects, hrender]

end Render

end TSymbiote.Frontend.Selection
