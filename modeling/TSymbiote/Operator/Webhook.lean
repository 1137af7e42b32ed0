import TSymbiote.Operator.Pod

/-! # The pod webhook

`Default` runs on the creation of a pod. It adds an adapter container, or, when
one of the containers is the WebUI's, only a reference to the secret that the
secrets controller will create.
-/

namespace TSymbiote.Operator

def adapterName : String := "tsymbiote-adapter"

def webUIName : String := "tsymbiote-webui"

def injectPrefix : String := "tsymbiote-inject"

namespace Pod

/-- The name of the secret that both branches inject. -/
def injectedSecret (pod : Pod) : String := injectPrefix ++ "-" ++ pod.name

def hasWebUI (pod : Pod) : Bool := pod.containers.any fun c => c.name = webUIName

/-- Labels that are nil become an empty map first. -/
def labelInjected (pod : Pod) : Pod :=
  { pod with labels := some ((pod.labels.getD ∅).insert "tsymbiote-secret-injected" "true") }

end Pod

def injectedRef (pod : Pod) : EnvFromSource := { secretRef := some pod.injectedSecret }

def adapterContainer (adapterImage : String) (pod : Pod) : Container where
  name := adapterName
  image := adapterImage
  imagePullPolicy := "Always"
  addedCapabilities := ["SYS_PTRACE"]
  command := ["/tsymbiote"]
  args := ["adapter", "--discover-socket", "--hostname=tsymbiote-$(POD_NAME)"]
  envFrom := [injectedRef pod]
  env := [{ name := "POD_NAME", fieldPath := some "metadata.name" }]
  resources :=
    { requests := some ((AList.insert "cpu" (newMilliQuantity 100 .decimalSI) ∅).insert "memory"
        (newQuantity (512 * 1024 * 1024) .binarySI))
      limits := some ((AList.insert "cpu" (newMilliQuantity 1000 .decimalSI) ∅).insert "memory"
        (newQuantity (1024 * 1024 * 1024) .binarySI)) }

/-- `adapterImage` is what the environment variable holds, if set. -/
def defaultAdapterPod (adapterImage : Option String) (pod : Pod) : Except String Pod :=
  match adapterImage with
  | none => .error "TSYMBIOTE_ADAPTER_IMAGE must be set."
  | some image =>
      .ok { pod with
        shareProcessNamespace := some true
        containers := pod.containers ++ [adapterContainer image pod] }.labelInjected

def Container.withEnvFrom (c : Container) (e : EnvFromSource) : Container :=
  { c with envFrom := c.envFrom ++ [e] }

/-- The reference goes to the first container. Callers have seen one. -/
def defaultWebUIPod (pod : Pod) : Pod :=
  { pod with
    containers := pod.containers.modifyHead (·.withEnvFrom (injectedRef pod)) }.labelInjected

def defaultPod (adapterImage : Option String) (pod : Pod) : Except String Pod :=
  if pod.hasWebUI then .ok (defaultWebUIPod pod) else defaultAdapterPod adapterImage pod

/-! ## What defaulting changes -/

variable {adapterImage : Option String} {p q : Pod}

/-- Defaulting changes neither the identity of a pod nor anything but its
containers, its labels and the sharing of its process namespace. -/
theorem default_frame (h : defaultPod adapterImage p = .ok q) :
    q.name = p.name ∧ q.generateName = p.generateName ∧ q.ns = p.ns ∧ q.uid = p.uid := by
  unfold defaultPod at h
  split at h
  · cases h
    exact ⟨rfl, rfl, rfl, rfl⟩
  · unfold defaultAdapterPod at h
    split at h
    · contradiction
    · cases h
      exact ⟨rfl, rfl, rfl, rfl⟩

theorem default_adapter {image : String} (hp : p.hasWebUI = false)
    (h : defaultPod (some image) p = .ok q) :
    q.containers = p.containers ++ [adapterContainer image p] := by
  unfold defaultPod at h
  rw [hp] at h
  cases h
  rfl

theorem default_webUI (hp : p.hasWebUI = true) (h : defaultPod adapterImage p = .ok q) :
    ∃ c rest, p.containers = c :: rest ∧ q.containers = c.withEnvFrom (injectedRef p) :: rest := by
  unfold defaultPod at h
  rw [if_pos hp] at h
  cases h
  cases hc : p.containers with
  | nil => simp [Pod.hasWebUI, hc] at hp
  | cons c rest =>
      refine ⟨c, rest, rfl, ?_⟩
      show p.containers.modifyHead _ = _
      rw [hc]
      rfl

/-! ## Defaulting twice -/

/-- A pod that defaulting has been applied to is left as it is. -/
def Settled (adapterImage : Option String) (p : Pod) : Prop :=
  ∀ q, defaultPod adapterImage p = .ok q → defaultPod adapterImage q = .ok q

/-- What a pass that succeeds does to the containers. -/
theorem default_cases (h : defaultPod adapterImage p = .ok q) :
    (p.hasWebUI = true ∧ ∃ c rest, p.containers = c :: rest ∧
        q.containers = c.withEnvFrom (injectedRef p) :: rest) ∨
      (p.hasWebUI = false ∧ ∃ image, adapterImage = some image ∧
        q.containers = p.containers ++ [adapterContainer image p]) := by
  cases hp : p.hasWebUI with
  | true => exact .inl ⟨rfl, default_webUI hp h⟩
  | false =>
      right
      cases adapterImage with
      | none =>
          unfold defaultPod at h
          rw [hp] at h
          cases h
      | some image => exact ⟨rfl, image, rfl, default_adapter hp h⟩

/-- No pod is left as it is: each pass appends to a list. -/
theorem default_changes (adapterImage : Option String) (p : Pod) : defaultPod adapterImage p ≠ .ok p := by
  intro hfixed
  rcases default_cases hfixed with ⟨_, c, rest, hc, hc'⟩ | ⟨_, image, _, hcontainers⟩
  · have hsame : c = c.withEnvFrom (injectedRef p) := (List.cons.inj (hc.symm.trans hc')).1
    have henv : c.envFrom = c.envFrom ++ [injectedRef p] := congrArg Container.envFrom hsame
    exact List.cons_ne_nil _ _ (List.self_eq_append_right.mp henv)
  · exact List.cons_ne_nil _ _ (List.self_eq_append_right.mp hcontainers)

theorem default_hasWebUI (h : defaultPod adapterImage p = .ok q) : q.hasWebUI = p.hasWebUI := by
  unfold Pod.hasWebUI
  rcases default_cases h with ⟨_, c, rest, hc, hc'⟩ | ⟨_, image, _, hcontainers⟩
  · rw [hc, hc']
    rfl
  · rw [hcontainers, List.any_append]
    exact Bool.or_false _

theorem default_succeeds (h : defaultPod adapterImage p = .ok q) :
    ∃ r, defaultPod adapterImage q = .ok r := by
  have hweb := default_hasWebUI h
  unfold defaultPod
  rcases default_cases h with ⟨hp, _⟩ | ⟨hp, image, himage, _⟩
  · rw [hweb, hp]
    exact ⟨_, rfl⟩
  · rw [hweb, hp, himage]
    exact ⟨_, rfl⟩

/-- A second pass succeeds like the first one, and adds the same container or
the same reference again. -/
theorem default_again (h : defaultPod adapterImage p = .ok q) :
    ∃ r, defaultPod adapterImage q = .ok r ∧
      ((∃ image, r.containers =
          p.containers ++ [adapterContainer image p, adapterContainer image p]) ∨
        ∃ c rest, p.containers = c :: rest ∧ r.containers =
          (c.withEnvFrom (injectedRef p)).withEnvFrom (injectedRef p) :: rest) := by
  have href : injectedRef q = injectedRef p := by
    unfold injectedRef Pod.injectedSecret
    rw [(default_frame h).1]
  have hweb := default_hasWebUI h
  rcases default_succeeds h with ⟨r, hagain⟩
  refine ⟨r, hagain, ?_⟩
  rcases default_cases h with ⟨hp, c, rest, hc, hc'⟩ | ⟨hp, image, himage, hq⟩
  · right
    rcases default_webUI (hweb.trans hp) hagain with ⟨c', rest', hq, hr⟩
    rw [hc'] at hq
    cases hq
    exact ⟨c, rest, hc, by rw [hr, href]⟩
  · left
    subst himage
    have hsame : adapterContainer image q = adapterContainer image p := by
      unfold adapterContainer
      rw [href]
    refine ⟨image, ?_⟩
    rw [default_adapter (hweb.trans hp) hagain, hq, hsame, List.append_assoc]
    rfl

/-- No pod on which defaulting succeeds is left as it is by a second pass. -/
theorem settled_iff (adapterImage : Option String) (p : Pod) :
    Settled adapterImage p ↔ ∀ q, defaultPod adapterImage p ≠ .ok q := by
  constructor
  · intro hsettled q hq
    exact default_changes adapterImage q (hsettled q hq)
  · intro hfails q hq
    exact absurd hq (hfails q)

/-- A pod with a container of its own. -/
def plainPod : Pod where
  name := "web-0"
  ns := "default"
  uid := 1
  containers := [{ name := "web" }]

/-- It ends up with two containers of one name. -/
theorem plainPod_unsettled : (∃ q r, defaultPod (some "adapter:1") plainPod = .ok q ∧
    defaultPod (some "adapter:1") q = .ok r ∧
      r.containers.map (·.name) = ["web", "tsymbiote-adapter", "tsymbiote-adapter"]) ∧
    ¬ Settled (some "adapter:1") plainPod := by
  refine ⟨⟨_, _, rfl, rfl, rfl⟩, ?_⟩
  intro hsettled
  exact default_changes _ _ (hsettled _ rfl)

end TSymbiote.Operator
