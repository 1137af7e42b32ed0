import TSymbiote.Operator.AllowedUsers
import TSymbiote.Operator.Webhook

/-! # The stateful set of the WebUI

The resources of the WebUI's container are the operator's defaults, overridden
by those of the resource. A map that is given overrides both keys, since the
accessors read a key that is absent as zero and never return nil.
-/

namespace TSymbiote.Operator

open AList

structure PodSpec (Affinity Toleration : Type) where
  tolerations : List Toleration := []
  resources : Option ResourceRequirements := none
  affinity : Option Affinity := none
  nodeSelector : Option (GoMap String) := none
  imagePullPolicy : String := ""

structure TSymbioteSpec (Affinity Toleration : Type) where
  pod : PodSpec Affinity Toleration := {}
  authSecretRef : Option String
  allowedUsers : List String := []
  image : String := ""
  hostname : String := ""

structure TSymbioteObj (Affinity Toleration : Type) where
  name : String
  ns : String
  spec : TSymbioteSpec Affinity Toleration

structure PodTemplate (Affinity Toleration : Type) where
  labels : GoMap String
  affinity : Option Affinity
  nodeSelector : Option (GoMap String)
  tolerations : List Toleration
  resources : Option ResourceRequirements
  containers : List Container

structure StatefulSet (Affinity Toleration : Type) where
  name : String
  ns : String
  replicas : Nat
  matchLabels : GoMap String
  template : PodTemplate Affinity Toleration

/-! ## Resources -/

def resourceCPU : String := "cpu"

def resourceMemory : String := "memory"

/-- `Cpu()` points to a zero quantity when the key is absent. -/
def cpu (list : GoMap Quantity) : Option Quantity :=
  some ((list.lookup resourceCPU).getD ⟨0, .decimalSI⟩)

/-- `Memory()`, likewise. -/
def memory (list : GoMap Quantity) : Option Quantity :=
  some ((list.lookup resourceMemory).getD ⟨0, .binarySI⟩)

def defaultRequests : GoMap Quantity :=
  (insert resourceCPU (newMilliQuantity 50 .decimalSI) ∅).insert resourceMemory
    (newQuantity (512 * 1024 * 1024) .binarySI)

def defaultLimits : GoMap Quantity :=
  (insert resourceCPU (newMilliQuantity 500 .decimalSI) ∅).insert resourceMemory
    (newQuantity (512 * 1024 * 1024) .binarySI)

/-- What the requests, and likewise the limits, come to. -/
def desiredList (configured : Option (GoMap Quantity)) (desired : GoMap Quantity) : GoMap Quantity :=
  match configured with
  | none => desired
  | some list =>
      let desired := match cpu list with
        | none => desired
        | some quantity => desired.insert resourceCPU quantity
      match memory list with
      | none => desired
      | some quantity => desired.insert resourceMemory quantity

def desiredResources (configuredResources : Option ResourceRequirements) : ResourceRequirements :=
  match configuredResources with
  | none => { requests := some defaultRequests, limits := some defaultLimits }
  | some configured =>
      { requests := some (desiredList configured.requests defaultRequests)
        limits := some (desiredList configured.limits defaultLimits) }

section Build

variable {Affinity Toleration : Type}

def getHostname (tsymbioteObj : TSymbioteObj Affinity Toleration) : String :=
  if tsymbioteObj.spec.hostname ≠ "" then tsymbioteObj.spec.hostname else tsymbioteObj.name

/-- `webUIImage` is what the environment variable holds, empty when unset. -/
def buildStatefulSet (webUIImage : String) (tsymbioteObj : TSymbioteObj Affinity Toleration) :
    StatefulSet Affinity Toleration where
  name := tsymbioteObj.name
  ns := tsymbioteObj.ns
  replicas := 1
  matchLabels := singleton "app" webUIName
  template :=
    { labels := (insert "app" webUIName ∅).insert "tsymbiote-secret-injection" "enabled"
      affinity := tsymbioteObj.spec.pod.affinity
      nodeSelector := tsymbioteObj.spec.pod.nodeSelector
      tolerations := tsymbioteObj.spec.pod.tolerations
      resources := tsymbioteObj.spec.pod.resources
      containers :=
        [{ name := webUIName
           image := if tsymbioteObj.spec.image ≠ "" then tsymbioteObj.spec.image else webUIImage
           imagePullPolicy := tsymbioteObj.spec.pod.imagePullPolicy
           command := ["/tsymbiote"]
           args := webUIArgs (getHostname tsymbioteObj) tsymbioteObj.spec.allowedUsers
           envFrom := [{ secretRef := tsymbioteObj.spec.authSecretRef }]
           resources := desiredResources tsymbioteObj.spec.pod.resources }] }

end Build

/-! ## What the resources should be -/

/-- The quantity under a key, if the map and the key are there. -/
def quantity (list : Option (GoMap Quantity)) (key : String) : Option Quantity :=
  list.bind (·.lookup key)

def ResourceName (key : String) : Prop := key = resourceCPU ∨ key = resourceMemory

section Resources

variable {Affinity Toleration : Type}

def configuredRequests (tsymbioteObj : TSymbioteObj Affinity Toleration) : Option (GoMap Quantity) :=
  tsymbioteObj.spec.pod.resources.bind (·.requests)

def configuredLimits (tsymbioteObj : TSymbioteObj Affinity Toleration) : Option (GoMap Quantity) :=
  tsymbioteObj.spec.pod.resources.bind (·.limits)

/-- Each quantity is the one configured, if there is one, and the default otherwise. -/
structure Merged (webUIImage : String) (tsymbioteObj : TSymbioteObj Affinity Toleration) : Prop where
  requests : ∀ c ∈ (buildStatefulSet webUIImage tsymbioteObj).template.containers, ∀ key,
    ResourceName key → quantity c.resources.requests key =
      (quantity (configuredRequests tsymbioteObj) key).or (defaultRequests.lookup key)
  limits : ∀ c ∈ (buildStatefulSet webUIImage tsymbioteObj).template.containers, ∀ key,
    ResourceName key → quantity c.resources.limits key =
      (quantity (configuredLimits tsymbioteObj) key).or (defaultLimits.lookup key)

/-- A map that is there has both keys. -/
def Full (list : Option (GoMap Quantity)) : Prop :=
  ∀ given, list = some given → ∀ key, ResourceName key → key ∈ given

/-- No request exceeds its limit. -/
def Admissible (requests limits : Option (GoMap Quantity)) : Prop :=
  ∀ key, ResourceName key → ∀ request limit, quantity requests key = some request →
    quantity limits key = some limit → request.nano ≤ limit.nano

/-- A request without a limits map is within the default limit, and a limits map
without a requests map has a limit that the default request is within; where both
maps are there but only one has the key, its quantity is not beyond zero. -/
structure Uncrossed (requests limits : Option (GoMap Quantity)) (key : String) : Prop where
  requestsOnly : limits = none → ∀ request limit, quantity requests key = some request →
    defaultLimits.lookup key = some limit → request.nano ≤ limit.nano
  limitsOnly : requests = none → limits ≠ none → ∀ request, defaultRequests.lookup key = some request →
    ∃ limit, quantity limits key = some limit ∧ request.nano ≤ limit.nano
  requestAlone : limits ≠ none → quantity limits key = none → ∀ request,
    quantity requests key = some request → request.nano ≤ 0
  limitAlone : requests ≠ none → quantity requests key = none → ∀ limit,
    quantity limits key = some limit → 0 ≤ limit.nano

/-! ## One list -/

/-- What the accessors read for an absent key. -/
def absent (key : String) : Quantity := ⟨0, if key = resourceCPU then .decimalSI else .binarySI⟩

theorem default_lookup {key : String} (hkey : ResourceName key) :
    ∃ request limit, defaultRequests.lookup key = some request ∧
      defaultLimits.lookup key = some limit ∧ 0 < request.nano ∧ request.nano ≤ limit.nano := by
  rcases hkey with hkey | hkey
  · subst hkey
    exact ⟨_, _, rfl, rfl, by decide, by decide⟩
  · subst hkey
    exact ⟨_, _, rfl, rfl, by decide, by decide⟩

theorem desiredList_lookup (list desired : GoMap Quantity) {key : String} (hkey : ResourceName key) :
    (desiredList (some list) desired).lookup key = some ((list.lookup key).getD (absent key)) := by
  unfold desiredList cpu memory
  dsimp only
  rcases hkey with hkey | hkey
  · subst hkey
    have hne : resourceCPU ≠ resourceMemory := by decide
    rw [lookup_insert_ne hne, lookup_insert]
    rfl
  · subst hkey
    rw [lookup_insert]
    rfl

/-- A list is merged key by key just when it is full, or not there. -/
theorem merged_iff_full {configured : Option (GoMap Quantity)} {desired : GoMap Quantity}
    (hdesired : ∀ key, ResourceName key → ∃ quantity, desired.lookup key = some quantity ∧
      0 < quantity.nano) :
    (∀ key, ResourceName key → (desiredList configured desired).lookup key =
      (quantity configured key).or (desired.lookup key)) ↔ Full configured := by
  cases configured with
  | none => exact ⟨fun _ => nofun, fun _ _ _ => rfl⟩
  | some list =>
      constructor
      · intro hmerged given hgiven key hkey
        cases hgiven
        have hlookup := hmerged key hkey
        rw [desiredList_lookup list desired hkey] at hlookup
        by_contra hnot
        rw [← lookup_eq_none] at hnot
        rcases hdesired key hkey with ⟨default, hdefault, hpos⟩
        unfold quantity at hlookup
        rw [Option.bind_some, hnot, hdefault, Option.getD_none, Option.none_or] at hlookup
        cases hlookup
        exact absurd hpos (Int.lt_irrefl 0)
      · intro hfull key hkey
        obtain ⟨given, hgiven⟩ := Option.isSome_iff_exists.mp
          (lookup_isSome.mpr (hfull list rfl key hkey))
        unfold quantity
        rw [desiredList_lookup list desired hkey, Option.bind_some, hgiven, Option.getD_some,
          Option.some_or]

/-! ## The container -/

/-- There is one container, with these resources. -/
theorem built_container (webUIImage : String) (tsymbioteObj : TSymbioteObj Affinity Toleration) :
    ∃ c, (buildStatefulSet webUIImage tsymbioteObj).template.containers = [c] ∧
      c.resources.requests = some (desiredList (configuredRequests tsymbioteObj) defaultRequests) ∧
      c.resources.limits = some (desiredList (configuredLimits tsymbioteObj) defaultLimits) := by
  refine ⟨_, rfl, ?_⟩
  unfold configuredRequests configuredLimits
  dsimp only
  cases tsymbioteObj.spec.pod.resources with
  | none => exact ⟨rfl, rfl⟩
  | some configured => exact ⟨rfl, rfl⟩

/-- The defaults are merged key by key exactly when each map that is configured
has both keys. -/
theorem resources_merged_iff (webUIImage : String) (tsymbioteObj : TSymbioteObj Affinity Toleration) :
    Merged webUIImage tsymbioteObj ↔
      Full (configuredRequests tsymbioteObj) ∧ Full (configuredLimits tsymbioteObj) := by
  have hrequests : ∀ key, ResourceName key → ∃ quantity, defaultRequests.lookup key = some quantity ∧
      0 < quantity.nano := by
    intro key hkey
    rcases default_lookup hkey with ⟨request, _, hrequest, _, hpos, _⟩
    exact ⟨request, hrequest, hpos⟩
  have hlimits : ∀ key, ResourceName key → ∃ quantity, defaultLimits.lookup key = some quantity ∧
      0 < quantity.nano := by
    intro key hkey
    rcases default_lookup hkey with ⟨_, limit, _, hlimit, hpos, hle⟩
    exact ⟨limit, hlimit, Int.lt_of_lt_of_le hpos hle⟩
  obtain ⟨c, hc, hcrequests, hclimits⟩ := built_container webUIImage tsymbioteObj
  rw [← merged_iff_full hrequests, ← merged_iff_full hlimits]
  constructor
  · intro hmerged
    have hmem : c ∈ (buildStatefulSet webUIImage tsymbioteObj).template.containers := by
      rw [hc]
      exact List.mem_cons_self
    constructor
    · have hlist := hmerged.requests c hmem
      rw [hcrequests] at hlist
      exact hlist
    · have hlist := hmerged.limits c hmem
      rw [hclimits] at hlist
      exact hlist
  · intro hlists
    constructor
    · rw [hc, List.forall_mem_singleton, hcrequests]
      exact hlists.1
    · rw [hc, List.forall_mem_singleton, hclimits]
      exact hlists.2

def cpuOnlyResources : ResourceRequirements :=
  { requests := some (singleton resourceCPU (newMilliQuantity 100 .decimalSI)) }

/-- A request of a tenth of a CPU and nothing else. -/
def cpuOnly : TSymbioteObj Unit Unit where
  name := "ui"
  ns := "default"
  spec := { authSecretRef := some "oauth", pod := { resources := some cpuOnlyResources } }

/-- Its memory request is zero, and not the default. -/
theorem cpuOnly_drops_memory :
    quantity (configuredRequests cpuOnly) resourceMemory = none ∧
    (buildStatefulSet "webui:1" cpuOnly).template.containers.map (fun c =>
      quantity c.resources.requests resourceMemory) = [some ⟨0, .binarySI⟩] ∧
    ¬ Merged "webui:1" cpuOnly := by
  refine ⟨rfl, rfl, fun hmerged => ?_⟩
  have hmemory := hmerged.requests _ List.mem_cons_self resourceMemory (.inr rfl)
  have hzero : some (⟨0, .binarySI⟩ : Quantity) = some (newQuantity (512 * 1024 * 1024) .binarySI) :=
    hmemory
  revert hzero
  decide

/-! ## Requests and limits -/

theorem quantity_some (list : GoMap Quantity) (key : String) :
    quantity (some list) key = list.lookup key := rfl

theorem quantity_desired {configured : Option (GoMap Quantity)} {desired : GoMap Quantity}
    {key : String} (hkey : ResourceName key) {built : Quantity} :
    quantity (some (desiredList configured desired)) key = some built ↔
      (configured = none ∧ desired.lookup key = some built) ∨
        (configured ≠ none ∧ (quantity configured key = some built ∨
          quantity configured key = none ∧ built = absent key)) := by
  cases configured with
  | none => simp [quantity, desiredList]
  | some list =>
      rw [quantity_some, quantity_some, desiredList_lookup list desired hkey]
      cases hgiven : list.lookup key with
      | none => simp [eq_comm]
      | some given => simp

theorem built_given {configured : Option (GoMap Quantity)} (desired : GoMap Quantity) {key : String}
    (hkey : ResourceName key) {given : Quantity} (hgiven : quantity configured key = some given) :
    quantity (some (desiredList configured desired)) key = some given := by
  refine (quantity_desired hkey).mpr (.inr ⟨?_, .inl hgiven⟩)
  intro hnone
  rw [hnone] at hgiven
  cases hgiven

theorem built_absent {configured : Option (GoMap Quantity)} (desired : GoMap Quantity) {key : String}
    (hkey : ResourceName key) (hthere : configured ≠ none) (hnone : quantity configured key = none) :
    quantity (some (desiredList configured desired)) key = some (absent key) :=
  (quantity_desired hkey).mpr (.inr ⟨hthere, .inr ⟨hnone, rfl⟩⟩)

theorem built_default {configured : Option (GoMap Quantity)} {desired : GoMap Quantity} {key : String}
    (hkey : ResourceName key) (hnil : configured = none) {default : Quantity}
    (hdefault : desired.lookup key = some default) :
    quantity (some (desiredList configured desired)) key = some default :=
  (quantity_desired hkey).mpr (.inl ⟨hnil, hdefault⟩)

section Lists

variable {requests limits : Option (GoMap Quantity)}

theorem uncrossed_of_admissible
    (hbuilt : Admissible (some (desiredList requests defaultRequests))
      (some (desiredList limits defaultLimits)))
    {key : String} (hkey : ResourceName key) : Uncrossed requests limits key where
  requestsOnly hnil request limit hrequest hlimit :=
    hbuilt key hkey request limit (built_given _ hkey hrequest) (built_default hkey hnil hlimit)
  limitsOnly := by
    intro hnil hthere request hrequest
    have hbound := hbuilt key hkey request
    cases hgiven : quantity limits key with
    | some limit =>
        exact ⟨limit, rfl, hbound limit (built_default hkey hnil hrequest) (built_given _ hkey hgiven)⟩
    | none =>
        -- The default request is more than the zero that is read for the limit.
        have hzero := hbound _ (built_default hkey hnil hrequest) (built_absent _ hkey hthere hgiven)
        rcases default_lookup hkey with ⟨request', _, hrequest', _, hpos, _⟩
        rw [hrequest, Option.some.injEq] at hrequest'
        subst hrequest'
        exact absurd hpos (Int.not_lt.mpr hzero)
  requestAlone hthere hnone request hrequest :=
    hbuilt key hkey request _ (built_given _ hkey hrequest) (built_absent _ hkey hthere hnone)
  limitAlone hthere hnone limit hlimit :=
    hbuilt key hkey _ limit (built_absent _ hkey hthere hnone) (built_given _ hkey hlimit)

theorem admissible_of_uncrossed (hgiven : Admissible requests limits)
    (hcross : ∀ key, ResourceName key → Uncrossed requests limits key) :
    Admissible (some (desiredList requests defaultRequests))
      (some (desiredList limits defaultLimits)) := by
  intro key hkey request limit hrequest hlimit
  obtain ⟨request₀, limit₀, hrequest₀, hlimit₀, hpos, hle⟩ := default_lookup hkey
  have hnot := hcross key hkey
  rcases (quantity_desired hkey).mp hrequest with
    ⟨hnil, hdefault⟩ | ⟨hthere, hrequest | ⟨hnone, habsent⟩⟩
  · rcases (quantity_desired hkey).mp hlimit with
      ⟨_, hdefault'⟩ | ⟨hthere', hlimit | ⟨hnone', _⟩⟩
    · rw [hdefault, Option.some.injEq] at hrequest₀
      rw [hdefault', Option.some.injEq] at hlimit₀
      rw [hrequest₀, hlimit₀]
      exact hle
    · rcases hnot.limitsOnly hnil hthere' request hdefault with ⟨limit', hlimit', hbound⟩
      rw [hlimit, Option.some.injEq] at hlimit'
      rw [hlimit']
      exact hbound
    · rcases hnot.limitsOnly hnil hthere' request hdefault with ⟨limit', hlimit', _⟩
      rw [hnone'] at hlimit'
      cases hlimit'
  · rcases (quantity_desired hkey).mp hlimit with
      ⟨hnil', hdefault'⟩ | ⟨hthere', hlimit | ⟨hnone', habsent'⟩⟩
    · exact hnot.requestsOnly hnil' request limit hrequest hdefault'
    · exact hgiven key hkey request limit hrequest hlimit
    · rw [habsent']
      exact hnot.requestAlone hthere' hnone' request hrequest
  · rw [habsent]
    rcases (quantity_desired hkey).mp hlimit with
      ⟨_, hdefault'⟩ | ⟨_, hlimit | ⟨_, habsent'⟩⟩
    · rw [hdefault', Option.some.injEq] at hlimit₀
      rw [hlimit₀]
      exact Int.le_trans (Int.le_of_lt hpos) hle
    · exact hnot.limitAlone hthere hnone limit hlimit
    · subst habsent'
      exact Int.le_refl _

end Lists

/-- The container's requests are within its limits exactly when the configured
ones are, and none crosses what takes the place of the other. -/
theorem resources_admissible_iff (webUIImage : String)
    (tsymbioteObj : TSymbioteObj Affinity Toleration) :
    (∀ c ∈ (buildStatefulSet webUIImage tsymbioteObj).template.containers,
        Admissible c.resources.requests c.resources.limits) ↔
      Admissible (configuredRequests tsymbioteObj) (configuredLimits tsymbioteObj) ∧
        ∀ key, ResourceName key →
          Uncrossed (configuredRequests tsymbioteObj) (configuredLimits tsymbioteObj) key := by
  obtain ⟨c, hc, hcrequests, hclimits⟩ := built_container webUIImage tsymbioteObj
  rw [hc, List.forall_mem_singleton, hcrequests, hclimits]
  constructor
  · intro hbuilt
    constructor
    · intro key hkey request limit hrequest hlimit
      exact hbuilt key hkey request limit (built_given _ hkey hrequest) (built_given _ hkey hlimit)
    · intro key hkey
      exact uncrossed_of_admissible hbuilt hkey
  · intro hcond
    exact admissible_of_uncrossed hcond.1 hcond.2

def gigabyteResources : ResourceRequirements :=
  { requests := some (singleton resourceMemory (newQuantity (1024 * 1024 * 1024) .binarySI)) }

/-- A request of a gigabyte of memory and nothing else. -/
def gigabyte : TSymbioteObj Unit Unit where
  name := "ui"
  ns := "default"
  spec := { authSecretRef := some "oauth", pod := { resources := some gigabyteResources } }

/-- Its default limit is half a gigabyte. -/
theorem gigabyte_rejected :
    Admissible (configuredRequests gigabyte) (configuredLimits gigabyte) ∧
    ¬ ∀ c ∈ (buildStatefulSet "webui:1" gigabyte).template.containers,
      Admissible c.resources.requests c.resources.limits := by
  constructor
  · intro key _ request limit _ hlimit
    cases hlimit
  · intro hall
    have hbound := hall _ List.mem_cons_self resourceMemory (.inr rfl) _ _ rfl rfl
    revert hbound
    decide

end Resources

end TSymbiote.Operator
