import TSymbiote.Frontend.Selection

/-! # Selected peers are reachable peers

Every action that changes what can be reached gives the reachable targets another
identity, so that the clean-up runs last; the others select reachable targets only.
-/

namespace TSymbiote.Frontend.Selection

open Hooks Transition

variable {p q : Page}

/-- The page between two actions. -/
structure Settled (p : Page) : Prop where
  current : Current p
  distinct : (p.nodes.val.map Node.id).Nodup
  subset : ∀ x ∈ p.selectedTargets, x ∈ p.reachableTargets.value.val

theorem Current.reachable_eq (hp : Current p) :
    p.reachableTargets.value.val =
      reachableIn p.nodes.val p.hosts.val p.edges.val p.selectedHosts.val p.hideOfflinePeers := by
  unfold reachableIn
  dsimp only
  rw [← hp.targetNodesVal, ← hp.baseVal]
  split
  · next hhide => rw [(hp.filtered hhide).1, hp.isOnlineVal]
  · next hhide => rw [hp.unfiltered (by simpa using hhide)]

theorem reachableIn_nodup {nodes : List Node} (h : (nodes.map Node.id).Nodup) (hosts : List String)
    (edges : List Edge) (selectedHosts : OrderedSet String) (hideOfflinePeers : Bool) :
    (reachableIn nodes hosts edges selectedHosts hideOfflinePeers).Nodup := by
  have hbase : (reachableBaseOf (targetNodesOf nodes hosts) selectedHosts edges).Nodup := by
    unfold reachableBaseOf
    split
    · exact List.nodup_nil
    · exact (h.filter _).filter _
  unfold reachableIn
  dsimp only
  split
  · exact hbase.filter _
  · exact hbase

/-! ## What the actions update -/

theorem Updates.setSelectedHosts (hp : Current p) (selectedHosts : OrderedSet String) :
    Updates p (p.setSelectedHosts selectedHosts) where
  nodes := .inl rfl
  edges := .inl rfl
  hosts := .inl rfl
  selectedHosts := .inr (Nat.le_refl _)
  nextId := Nat.le_succ _
  nodesId := Nat.lt_succ_of_lt hp.nodesId
  edgesId := Nat.lt_succ_of_lt hp.edgesId
  hostsId := Nat.lt_succ_of_lt hp.hostsId
  selectedHostsId := Nat.lt_succ_self _
  isOnline := rfl
  targetNodes := rfl
  reachableTargetsBase := rfl
  reachableTargets := rfl
  effectDeps := rfl

/-- The selected targets and the option are compared by no identity. -/
theorem Updates.setSelectedTargets (h : Updates p q) (selectedTargets : OrderedSet String)
    (hideOfflinePeers : Bool) : Updates p { q with selectedTargets, hideOfflinePeers } :=
  { h with }

theorem Updates.refl (hp : Current p) : Updates p p where
  nodes := .inl rfl
  edges := .inl rfl
  hosts := .inl rfl
  selectedHosts := .inl rfl
  nextId := Nat.le_refl _
  nodesId := hp.nodesId
  edgesId := hp.edgesId
  hostsId := hp.hostsId
  selectedHostsId := hp.selectedHostsId
  isOnline := rfl
  targetNodes := rfl
  reachableTargetsBase := rfl
  reachableTargets := rfl
  effectDeps := rfl

theorem Updates.setPeerMap (data : PeerMap) : Updates p (p.setPeerMap data) where
  nodes := .inr (Nat.le_add_right _ 2)
  edges := .inr (Nat.le_add_right _ 3)
  hosts := .inr (Nat.le_refl _)
  selectedHosts := .inr (Nat.le_add_right _ 1)
  nextId := Nat.le_add_right _ 4
  nodesId := Nat.add_lt_add_left (by decide) _
  edgesId := Nat.add_lt_add_left (by decide) _
  hostsId := Nat.lt_add_of_pos_right (by decide)
  selectedHostsId := Nat.add_lt_add_left (by decide) _
  isOnline := rfl
  targetNodes := rfl
  reachableTargetsBase := rfl
  reachableTargets := rfl
  effectDeps := rfl

theorem Updates.update (hp : Current p) (a : Action) : Updates p (update p a) := by
  cases a with
  | toggleHost hostId => exact .setSelectedHosts hp _
  | toggleAllHosts => exact .setSelectedHosts hp _
  | toggleTarget targetId => exact (Updates.refl hp).setSelectedTargets _ _
  | toggleAllTargets =>
      unfold Selection.update Page.toggleAllTargets
      dsimp only
      split
      · exact (Updates.refl hp).setSelectedTargets _ _
      · exact (Updates.refl hp).setSelectedTargets _ _
  | filterToHost hostId => exact .setSelectedHosts hp _
  | toggleHideOffline => exact (Updates.refl hp).setSelectedTargets _ _
  | reset => exact (Updates.setSelectedHosts hp _).setSelectedTargets _ _

/-- An action selects what is reachable, or something else can be reached then. -/
theorem update_selected (hp : Settled p) {a : Action} (ha : enabled p a = true)
    (hbase : (update p a).render.reachableTargetsBase.value = p.reachableTargetsBase.value) :
    ∀ x ∈ (update p a).selectedTargets, x ∈ p.reachableTargets.value.val := by
  cases a with
  | toggleHost hostId => exact hp.subset
  | toggleAllHosts => exact hp.subset
  | filterToHost hostId => exact hp.subset
  | toggleHideOffline => exact hp.subset
  | toggleTarget targetId =>
      intro x hx
      rcases OrderedSet.mem_of_toggle hx with hx | rfl
      · exact hp.subset x hx
      · exact List.contains_iff_mem.mp ha
  | toggleAllTargets =>
      unfold update Page.toggleAllTargets
      dsimp only
      split
      · intro x hx
        exact absurd hx OrderedSet.notMem_empty
      · intro x hx
        exact OrderedSet.mem_ofList.mp hx
  | reset =>
      -- the selected hosts are a new set, on which the base depends
      have hupdates := Updates.update hp.current .reset
      have hkept := hupdates.kept_of_base hp.current (hbase ▸ hp.current.baseId)
      have hid : p.nextId = p.selectedHosts.id := congrArg Ref.id hkept.2.2.1
      exact absurd hp.current.selectedHostsId (by omega)

/-! ## Runs of the page -/

theorem blank_settled : Settled Page.blank.commit where
  current := by
    constructor
    case unfiltered => intro h; cases h
    all_goals decide
  distinct := List.nodup_nil
  subset := by
    intro x hx
    cases hx

theorem loaded_settled (data : PeerMap) : Settled (loaded data) where
  current := commit_current blank_settled.current (.setPeerMap data)
  distinct := data.distinct
  subset := commit_subset blank_settled.current (.setPeerMap data) fun _ => blank_settled.subset

theorem update_nodes (p : Page) (a : Action) : (update p a).nodes = p.nodes := by
  cases a with
  | toggleAllTargets =>
      unfold update Page.toggleAllTargets
      dsimp only
      split <;> rfl
  | _ => rfl

theorem step_settled {a : Action} (hp : Settled p) (h : step p a = some q) : Settled q := by
  unfold step at h
  split at h
  · next ha =>
      cases h
      have hupdates := Updates.update hp.current a
      refine ⟨commit_current hp.current hupdates, ?_, ?_⟩
      · have hnodes : (update p a).commit.nodes = p.nodes := update_nodes p a
        rw [hnodes]
        exact hp.distinct
      · exact commit_subset hp.current hupdates (update_selected hp ha)
  · contradiction

/-- The selected peers are reachable, so that their number tells whether all are
selected. -/
def SelectsReachable (p : Page) : Prop :=
  (∀ x ∈ p.selectedTargets, x ∈ p.reachableTargets.value.val) ∧
    (p.selectedTargets.size = p.reachableTargets.value.val.length ↔
      ∀ x, x ∈ p.selectedTargets ↔ x ∈ p.reachableTargets.value.val)

theorem Settled.selectsReachable (hp : Settled p) : SelectsReachable p := by
  refine ⟨hp.subset, OrderedSet.size_eq_length_iff ?_ hp.subset⟩
  rw [hp.current.reachable_eq]
  exact reachableIn_nodup hp.distinct _ _ _ _

/-- For every peer map, after every action of any sequence. -/
theorem selected_reachable (data : PeerMap) (actions : List Action) :
    Throughout step SelectsReachable (loaded data) actions :=
  .of_invariant Settled.selectsReachable step_settled (loaded_settled data) actions

end TSymbiote.Frontend.Selection
