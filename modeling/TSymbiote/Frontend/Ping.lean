import TSymbiote.Lib.OrderedSet

/-! # What a ping command asks for

The front end pings from every selected host to every selected target, and to
every other selected host, where the peer map has an edge from the one to the
other. It groups the pairs by host for the request.
-/

namespace TSymbiote.Frontend

structure Edge where
  id : String
  source : String
  target : String
  deriving DecidableEq, Repr

structure Combination where
  hostId : String
  peerId : String
  deriving DecidableEq, Repr

def hasEdge (edgeList : List Edge) (source target : String) : Bool :=
  edgeList.any fun edge => edge.source == source && edge.target == target

/-- An edge in either direction. -/
def hasConnection (edgeList : List Edge) (hostId otherHostId : String) : Bool :=
  edgeList.any fun edge =>
    (edge.source == hostId && edge.target == otherHostId) ||
      (edge.source == otherHostId && edge.target == hostId)

/-- The selected targets, and the selected hosts that are connected with this one. -/
def targetsForHost (sourceHosts targetPeers : OrderedSet String) (edgeList : List Edge)
    (hostId : String) : OrderedSet String :=
  sourceHosts.toList.foldl (fun targets otherHostId =>
    if otherHostId ≠ hostId ∧ hasConnection edgeList hostId otherHostId = true then
      targets.add otherHostId
    else targets) targetPeers

def getTargetedCombinations (sourceHosts targetPeers : OrderedSet String) (edgeList : List Edge) :
    List Combination :=
  sourceHosts.toList.flatMap fun hostId =>
    ((targetsForHost sourceHosts targetPeers edgeList hostId).toList.filter
      (hasEdge edgeList hostId)).map fun peerId => ⟨hostId, peerId⟩

/-- An element of the request's `args`. -/
structure PingArg where
  host : String
  targets : List String
  deriving DecidableEq, Repr

def hostTargetsMap (pingCombinations : List Combination) : List (String × List String) :=
  grouped (pingCombinations.map fun c => (c.hostId, c.peerId))

def pingArgs (pingCombinations : List Combination) : List PingArg :=
  (hostTargetsMap pingCombinations).map fun e => ⟨e.1, e.2⟩

/-- The pairs of a request, in the order of its arguments. -/
def flattenArgs (args : List PingArg) : List Combination :=
  args.flatMap fun arg => arg.targets.map fun target => ⟨arg.host, target⟩

variable {sourceHosts targetPeers : OrderedSet String} {edgeList : List Edge} {h p : String}

theorem hasEdge_iff : hasEdge edgeList h p = true ↔ ∃ e ∈ edgeList, e.source = h ∧ e.target = p := by
  simp [hasEdge]

theorem hasConnection_of_hasEdge (hedge : hasEdge edgeList h p = true) :
    hasConnection edgeList h p = true := by
  rw [hasEdge_iff] at hedge
  rcases hedge with ⟨e, he, hsource, htarget⟩
  simp only [hasConnection, List.any_eq_true]
  exact ⟨e, he, by simp [hsource, htarget]⟩

theorem mem_targetsForHost : p ∈ targetsForHost sourceHosts targetPeers edgeList h ↔
    p ∈ targetPeers ∨ p ∈ sourceHosts ∧ p ≠ h ∧ hasConnection edgeList h p = true := by
  have hfilter : targetsForHost sourceHosts targetPeers edgeList h =
      (sourceHosts.toList.filter fun otherHostId =>
        decide (otherHostId ≠ h ∧ hasConnection edgeList h otherHostId = true)).foldl
          OrderedSet.add targetPeers := by
    rw [List.foldl_filter]
    simp only [decide_eq_true_iff]
    rfl
  rw [hfilter, OrderedSet.mem_foldl_add, List.mem_filter, decide_eq_true_iff, OrderedSet.mem_toList]

/-- The undirected test lets in every host that the directed one asks for. -/
theorem mem_combinations : ⟨h, p⟩ ∈ getTargetedCombinations sourceHosts targetPeers edgeList ↔
    h ∈ sourceHosts ∧ (p ∈ targetPeers ∨ p ∈ sourceHosts ∧ p ≠ h) ∧
      ∃ e ∈ edgeList, e.source = h ∧ e.target = p := by
  rw [← hasEdge_iff]
  constructor
  · intro hmem
    rcases List.mem_flatMap.mp hmem with ⟨h', hh, hmap⟩
    rcases List.mem_map.mp hmap with ⟨p', hp, heq⟩
    cases heq
    rcases List.mem_filter.mp hp with ⟨htarget, hedge⟩
    rcases mem_targetsForHost.mp htarget with htarget | ⟨hhost, hne, _⟩
    · exact ⟨hh, .inl htarget, hedge⟩
    · exact ⟨hh, .inr ⟨hhost, hne⟩, hedge⟩
  · rintro ⟨hh, htarget, hedge⟩
    have hp : p ∈ targetsForHost sourceHosts targetPeers edgeList h := by
      rw [mem_targetsForHost]
      rcases htarget with htarget | ⟨hhost, hne⟩
      · exact .inl htarget
      · exact .inr ⟨hhost, hne, hasConnection_of_hasEdge hedge⟩
    exact List.mem_flatMap.mpr
      ⟨h, hh, List.mem_map.mpr ⟨p, List.mem_filter.mpr ⟨hp, hedge⟩, rfl⟩⟩

theorem combinations_nodup (sourceHosts targetPeers : OrderedSet String) (edgeList : List Edge) :
    (getTargetedCombinations sourceHosts targetPeers edgeList).Nodup := by
  refine List.nodup_flatMap.mpr ⟨?_, ?_⟩
  · intro hostId _
    refine ((targetsForHost _ _ _ hostId).nodup.filter _).map ?_
    intro p q heq
    exact congrArg Combination.peerId heq
  · refine sourceHosts.nodup.imp ?_
    intro h h' hne c hc hc'
    rcases List.mem_map.mp hc with ⟨p, _, rfl⟩
    rcases List.mem_map.mp hc' with ⟨p', _, heq⟩
    exact hne (congrArg Combination.hostId heq).symm

theorem flattenArgs_perm (pingCombinations : List Combination) :
    (flattenArgs (pingArgs pingCombinations)).Perm pingCombinations := by
  have hungroup : flattenArgs (pingArgs pingCombinations) =
      (ungroup (hostTargetsMap pingCombinations)).map fun e => ⟨e.1, e.2⟩ := by
    unfold flattenArgs pingArgs ungroup
    rw [List.flatMap_map, List.map_flatMap]
    simp only [List.map_map]
    rfl
  rw [hungroup]
  have hperm := (ungroup_grouped (pingCombinations.map fun c => (c.hostId, c.peerId))).map
    fun e => (⟨e.1, e.2⟩ : Combination)
  rw [List.map_map] at hperm
  exact hperm.trans (by simp [Function.comp_def])

/-- The pairs are the valid ones, each occurs once, and the request has the same
pairs, each once. -/
theorem combinations_exact (sourceHosts targetPeers : OrderedSet String) (edgeList : List Edge) :
    (∀ h p, ⟨h, p⟩ ∈ getTargetedCombinations sourceHosts targetPeers edgeList ↔
      h ∈ sourceHosts ∧ (p ∈ targetPeers ∨ p ∈ sourceHosts ∧ p ≠ h) ∧
        ∃ e ∈ edgeList, e.source = h ∧ e.target = p) ∧
    (getTargetedCombinations sourceHosts targetPeers edgeList).Nodup ∧
    (flattenArgs (pingArgs (getTargetedCombinations sourceHosts targetPeers edgeList))).Nodup ∧
    ∀ c, c ∈ flattenArgs (pingArgs (getTargetedCombinations sourceHosts targetPeers edgeList)) ↔
      c ∈ getTargetedCombinations sourceHosts targetPeers edgeList := by
  have hnodup := combinations_nodup sourceHosts targetPeers edgeList
  have hperm := flattenArgs_perm (getTargetedCombinations sourceHosts targetPeers edgeList)
  exact ⟨fun _ _ => mem_combinations, hnodup, hperm.nodup_iff.mpr hnodup, fun _ => hperm.mem_iff⟩

end TSymbiote.Frontend
