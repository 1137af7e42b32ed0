import TSymbiote.Frontend.Selection.Subset

/-! # The Hide Offline option

A toggle of the option runs all three effects. The first selects all targets, as it
does when the peer map is loaded, so that the selection becomes what can be reached
then.
-/

namespace TSymbiote.Frontend.Selection

open Hooks Transition

variable {p : Page} {x : String}

/-- The page after a toggle of the option. -/
def toggled (p : Page) : Page := (update p .toggleHideOffline).commit

example (p : Page) : step p .toggleHideOffline = some (toggled p) := rfl

/-- What can be reached after the toggle. -/
def reachableAfter (p : Page) : List String :=
  reachableIn p.nodes.val p.hosts.val p.edges.val p.selectedHosts.val (!p.hideOfflinePeers)

theorem mem_reachableIn {nodes : List Node} {hosts : List String} {edges : List Edge}
    {selectedHosts : OrderedSet String} {hideOfflinePeers : Bool} :
    x ∈ reachableIn nodes hosts edges selectedHosts hideOfflinePeers ↔
      x ∈ reachableBaseOf (targetNodesOf nodes hosts) selectedHosts edges ∧
        (hideOfflinePeers = true → isOnline nodes x = true) := by
  unfold reachableIn
  cases hideOfflinePeers <;> simp

theorem mem_targetNodesOf_of_base {nodes : List Node} {hosts : List String} {edges : List Edge}
    {selectedHosts : OrderedSet String}
    (h : x ∈ reachableBaseOf (targetNodesOf nodes hosts) selectedHosts edges) :
    x ∈ targetNodesOf nodes hosts := by
  unfold reachableBaseOf at h
  split at h
  · cases h
  · exact List.mem_of_mem_filter h

/-- The three effects, in their order. -/
theorem toggled_selected (hp : Current p) :
    (toggled p).selectedTargets =
      (update p .toggleHideOffline).render.cleanUp
        ((update p .toggleHideOffline).render.deselectOffline
          ((update p .toggleHideOffline).render.selectAll p.selectedTargets)) := by
  have hupdates := Updates.update hp .toggleHideOffline
  have hhide : (!p.hideOfflinePeers) ≠ p.hideOfflinePeers := Bool.not_ne_self _
  cases hupdates.reachable hp with
  | kept _ _ _ _ _ hsame => exact absurd hsame hhide
  | renewed hid _ =>
      have hall : (update p .toggleHideOffline).render.effectDeps = p.effects.map Effect.deps :=
        hupdates.effectDeps.trans hp.effectDeps
      have hfirst : ([.ref p.nodes.id, .ref p.hosts.id, .bool (!p.hideOfflinePeers)] : List Dep) ≠
          [.ref p.nodes.id, .ref p.hosts.id, .bool p.hideOfflinePeers] := by simp
      have hsecond : ([.bool (!p.hideOfflinePeers), .ref p.nodes.id] : List Dep) ≠
          [.bool p.hideOfflinePeers, .ref p.nodes.id] := by simp
      have hthird : ([.ref (update p .toggleHideOffline).render.reachableTargets.value.id] : List Dep) ≠
          [.ref p.reachableTargets.value.id] := by simpa using hid
      have hrun : (toggled p).selectedTargets = runEffects (update p .toggleHideOffline).render.effects
          (update p .toggleHideOffline).render.effectDeps p.selectedTargets := rfl
      rw [hrun, hall, effects_deps]
      exact (if_neg hthird).trans (congrArg _ ((if_neg hsecond).trans (congrArg _ (if_neg hfirst))))

theorem mem_toggled (hp : Current p) : x ∈ (toggled p).selectedTargets ↔
    x ∈ reachableAfter p ∧
      (p.nodes.val ≠ [] ∧ p.hosts.val ≠ [] ∨ x ∈ p.selectedTargets) := by
  have hreachable : (update p .toggleHideOffline).render.reachableTargets.value.val =
      reachableAfter p := (commit_current hp (.update hp .toggleHideOffline)).reachable_eq
  rw [toggled_selected hp, mem_cleanUp, hreachable, and_comm]
  refine and_congr_right fun hx => ?_
  obtain ⟨hbase, honline⟩ := mem_reachableIn.mp hx
  have htarget := mem_targetNodesOf_of_base hbase
  have hnodes : (update p .toggleHideOffline).render.nodes = p.nodes := rfl
  have hhosts : (update p .toggleHideOffline).render.hosts = p.hosts := rfl
  have hoption : (update p .toggleHideOffline).render.hideOfflinePeers = !p.hideOfflinePeers := rfl
  unfold Page.deselectOffline Page.selectAll
  rw [hnodes, hhosts, hoption]
  -- what is reachable then is online where that matters
  cases hhide : (!p.hideOfflinePeers) with
  | false =>
      rw [if_neg (by decide)]
      split
      · next hloaded => simp [htarget, hloaded]
      · next hloaded => simp [hloaded]
  | true =>
      have hx' := honline hhide
      rw [if_pos rfl]
      split
      · next hloaded => simp [htarget, hx', hloaded]
      · next hloaded => simp [hx', hloaded]

/-! ## What a toggle should do -/

/-- No peer is selected that was not selected before, turning the option on takes
offline peers out only, and without nodes or hosts there is no select-all. -/
structure Gentle (p q : Page) : Prop where
  keeps : ∀ x ∈ q.selectedTargets, x ∈ p.selectedTargets
  offline : q.hideOfflinePeers = true →
    ∀ x ∈ p.selectedTargets, x ∉ q.selectedTargets → isOnline p.nodes.val x = false
  unloaded : q.nodes.val = [] ∨ q.hosts.val = [] → ∀ s, q.selectAll s = s

theorem selectAll_unloaded (h : p.nodes.val = [] ∨ p.hosts.val = []) (s : OrderedSet String) :
    p.selectAll s = s := by
  refine if_neg ?_
  rintro ⟨hnodes, hhosts⟩
  rcases h with h | h
  · exact hnodes h
  · exact hhosts h

theorem toggled_offline (hp : Settled p) (hx : x ∈ p.selectedTargets)
    (hout : x ∉ (toggled p).selectedTargets) : isOnline p.nodes.val x = false := by
  have hreachable := hp.subset x hx
  rw [hp.current.reachable_eq] at hreachable
  by_contra honline
  refine hout ((mem_toggled hp.current).mpr ⟨mem_reachableIn.mpr ⟨?_, fun _ => ?_⟩, .inr hx⟩)
  · exact (mem_reachableIn.mp hreachable).1
  · simpa using honline

/-- A page that a sequence of actions leads to. -/
structure Session where
  data : PeerMap
  page : Page
  reached : Reaches step (loaded data) page

theorem Session.settled (s : Session) : Settled s.page :=
  s.reached.invariant step_settled (loaded_settled s.data)

/-- A toggle is gentle just when nodes or hosts are missing, or else every peer
that can be reached after it is selected already. -/
theorem gentle_iff (s : Session) :
    Gentle s.page (toggled s.page) ↔
      s.page.nodes.val = [] ∨ s.page.hosts.val = [] ∨
        ∀ x ∈ reachableAfter s.page, x ∈ s.page.selectedTargets := by
  have hcurrent := s.settled.current
  constructor
  · intro h
    by_cases hnodes : s.page.nodes.val = []
    · exact .inl hnodes
    · by_cases hhosts : s.page.hosts.val = []
      · exact .inr (.inl hhosts)
      · exact .inr (.inr fun x hx =>
          h.keeps x ((mem_toggled hcurrent).mpr ⟨hx, .inl ⟨hnodes, hhosts⟩⟩))
  · intro h
    refine ⟨?_, fun _ x hx => toggled_offline s.settled hx, selectAll_unloaded⟩
    intro x hx
    obtain ⟨hreachable, hloaded | hselected⟩ := (mem_toggled hcurrent).mp hx
    · rcases h with hnodes | hhosts | hall
      · exact absurd hnodes hloaded.1
      · exact absurd hhosts hloaded.2
      · exact hall x hreachable
    · exact hselected

/-- A host and one peer. -/
def twoNodes : PeerMap where
  nodes := [⟨"node", some true⟩, ⟨"laptop", some true⟩]
  edges := [⟨"node->laptop", "node", "laptop"⟩]
  hosts := ["node"]
  distinct := by decide

/-- The peer is deselected, and selected again by the toggle. -/
theorem laptop_selected_again :
    ∃ p, execute step (loaded twoNodes) [.toggleTarget "laptop"] = some p ∧
      ¬ Gentle p (toggled p) := by
  refine ⟨_, rfl, ?_⟩
  intro h
  exact absurd (h.keeps "laptop" (by decide)) (by decide)

end TSymbiote.Frontend.Selection
