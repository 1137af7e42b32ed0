import TSymbiote.Lib.Strings
import TSymbiote.Operator.Webhook

/-! # The secret a pod refers to

The webhook injects the reference by position; the secrets controller finds it
by the names of the containers and of the secrets. The last container of ours
with a matching reference decides, by its first one. Here it is determined for
which pods the two agree.
-/

namespace TSymbiote.Operator

/-- `container.Name` is one the secrets controller looks into. -/
def Container.ours (c : Container) : Bool := c.name = adapterName || c.name = webUIName

def EnvFromSource.injected (e : EnvFromSource) : Option String :=
  e.secretRef.filter fun name => Strings.contains name injectPrefix

/-- The inner loop, which breaks at the first match. -/
def Container.scan (secretName : String) (c : Container) : String :=
  if c.ours then (c.envFrom.findSome? EnvFromSource.injected).getD secretName else secretName

/-- The outer loop of `Reconcile`, which does not. -/
def findSecretName (pod : Pod) : String := pod.containers.foldl Container.scan ""

def Container.refers (c : Container) (name : String) : Prop :=
  ∃ e ∈ c.envFrom, e.secretRef = some name

namespace Pod

/-- The container that the reference belongs into. -/
def targetName (pod : Pod) : String := if pod.hasWebUI then webUIName else adapterName

end Pod

/-- The webhook and the controller agree on `q`, the defaulted `p`. -/
structure Agrees (p q : Pod) : Prop where
  injected : if p.hasWebUI then ∃ c ∈ q.containers, c.name = webUIName ∧ c.refers p.injectedSecret
    else ∃ c, q.containers = p.containers ++ [c] ∧ c.name = adapterName ∧ c.refers p.injectedSecret
  only : ∀ (i : Nat) (c : Container), q.containers[i]? = some c → c.refers p.injectedSecret →
    c.name = p.targetName ∨
      ∃ c₀ : Container, p.containers[i]? = some c₀ ∧ c₀.refers p.injectedSecret
  selected : findSecretName q = p.injectedSecret

/-- A pod with a WebUI container, and `c` as its first, that the webhook serves:
the reference belongs to `c` or is where it belongs and in `c` already, and no
other injected secret is found. -/
structure Served (p : Pod) (c : Container) : Prop where
  placed : c.name = webUIName ∨ (c.refers p.injectedSecret ∧
    ∃ d ∈ p.containers, d.name = webUIName ∧ d.refers p.injectedSecret)
  found : findSecretName p = "" ∨ findSecretName p = p.injectedSecret

/-- A pod without a WebUI container, or one whose WebUI container is served. -/
def Suits (p : Pod) : Prop := p.hasWebUI = true → ∃ c, p.containers.head? = some c ∧ Served p c

/-! ## The scan -/

theorem injectedSecret_contains (p : Pod) : Strings.contains p.injectedSecret injectPrefix = true := by
  unfold Pod.injectedSecret
  rw [String.append_assoc]
  exact Strings.contains_append_left _ _

theorem injected_injectedRef (p : Pod) : (injectedRef p).injected = some p.injectedSecret := by
  simp [EnvFromSource.injected, injectedRef, injectedSecret_contains]

theorem injected_eq_some {e : EnvFromSource} {name : String} :
    e.injected = some name ↔ e.secretRef = some name ∧ Strings.contains name injectPrefix = true :=
  Option.filter_eq_some_iff

/-- The reference the scan takes from one container. -/
def Container.match? (c : Container) : Option String :=
  if c.ours then c.envFrom.findSome? EnvFromSource.injected else none

theorem scan_eq (secretName : String) (c : Container) :
    c.scan secretName = c.match?.getD secretName := by
  unfold Container.scan Container.match?
  split <;> rfl

/-- The last container with a match decides. -/
theorem foldl_scan (cs : List Container) (secretName : String) :
    cs.foldl Container.scan secretName =
      ((cs.filterMap Container.match?).getLast?).getD secretName := by
  induction cs generalizing secretName with
  | nil => rfl
  | cons c cs ih =>
      rw [List.foldl_cons, ih, scan_eq]
      cases hc : c.match? with
      | none => simp [hc]
      | some name =>
          simp only [List.filterMap_cons, hc, List.getLast?_cons, Option.getD_some]

/-- The empty name stands for no match. -/
theorem match_ne_empty {c : Container} {name : String} (h : c.match? = some name) : name ≠ "" := by
  unfold Container.match? at h
  split at h
  · obtain ⟨e, _, he⟩ := List.exists_of_findSome?_eq_some h
    have hcontains := (injected_eq_some.mp he).2
    intro heq
    subst heq
    exact absurd hcontains (by decide)
  · contradiction

theorem match_of_refers {p : Pod} {c : Container} (hours : c.ours = true)
    (h : c.refers p.injectedSecret) : ∃ name, c.match? = some name := by
  rcases h with ⟨e, he, hname⟩
  have hsome : (c.envFrom.findSome? EnvFromSource.injected).isSome := by
    rw [List.findSome?_isSome_iff]
    exact ⟨e, he, by rw [injected_eq_some.mpr ⟨hname, injectedSecret_contains p⟩]; rfl⟩
  unfold Container.match?
  rw [if_pos hours]
  exact Option.isSome_iff_exists.mp hsome

theorem findSecretName_ne_empty {p : Pod} {c : Container} {name : String} (hc : c ∈ p.containers)
    (h : c.match? = some name) : findSecretName p ≠ "" := by
  unfold findSecretName
  rw [foldl_scan]
  have hmem : name ∈ p.containers.filterMap Container.match? := List.mem_filterMap.mpr ⟨c, hc, h⟩
  cases hlast : (p.containers.filterMap Container.match?).getLast? with
  | none =>
      rw [List.getLast?_eq_none_iff.mp hlast] at hmem
      cases hmem
  | some last =>
      obtain ⟨d, _, hd⟩ := List.mem_filterMap.mp (List.mem_of_getLast? hlast)
      exact match_ne_empty hd

/-! ## The adapter container -/

section Defaulted

variable {adapterImage : Option String} {image : String} {p q : Pod}

theorem adapter_match (image : String) (p : Pod) :
    (adapterContainer image p).match? = some p.injectedSecret := by
  show List.findSome? EnvFromSource.injected [injectedRef p] = _
  rw [List.findSome?_cons, injected_injectedRef]

theorem adapter_agrees (hp : p.hasWebUI = false) (h : defaultPod (some image) p = .ok q) :
    Agrees p q := by
  have hq := default_adapter hp h
  constructor
  · rw [hp]
    exact ⟨_, hq, rfl, injectedRef p, List.mem_singleton.mpr rfl, rfl⟩
  · intro i c hc hrefers
    rw [hq, List.getElem?_append] at hc
    split at hc
    · exact .inr ⟨c, hc, hrefers⟩
    · left
      have hlast := List.mem_singleton.mp (List.mem_of_getElem? hc)
      rw [hlast, Pod.targetName, hp]
      rfl
  · unfold findSecretName
    rw [hq, foldl_scan, List.filterMap_append]
    simp [adapter_match]

/-! ## The first container of a WebUI pod -/

theorem withEnvFrom_refers (c : Container) (p : Pod) :
    (c.withEnvFrom (injectedRef p)).refers p.injectedSecret :=
  ⟨injectedRef p, by simp [Container.withEnvFrom], rfl⟩

theorem withEnvFrom_match (c : Container) (p : Pod) :
    (c.withEnvFrom (injectedRef p)).match? =
      if c.ours then some (c.match?.getD p.injectedSecret) else none := by
  unfold Container.match? Container.withEnvFrom
  cases hours : c.ours with
  | false => simp [Container.ours] at hours ⊢; simp [hours]
  | true =>
      have hours' : ({ c with envFrom := c.envFrom ++ [injectedRef p] } : Container).ours = true := hours
      simp only [hours', if_true, List.findSome?_append, List.findSome?_cons, injected_injectedRef]
      cases c.envFrom.findSome? EnvFromSource.injected <;> rfl

/-- The scan finds the new reference when it found that name, or nothing and the
first container is ours. -/
theorem webUI_selected_iff {c : Container} {rest : List Container} (hp : p.containers = c :: rest)
    (hq : q.containers = c.withEnvFrom (injectedRef p) :: rest) :
    findSecretName q = p.injectedSecret ↔
      findSecretName p = p.injectedSecret ∨ (findSecretName p = "" ∧ c.ours = true) := by
  have hne : p.injectedSecret ≠ "" := fun heq => absurd (injectedSecret_contains p) (by
    rw [heq]
    decide)
  unfold findSecretName
  rw [hp, hq, foldl_scan, foldl_scan, List.filterMap_cons, List.filterMap_cons, withEnvFrom_match]
  cases hrest : (rest.filterMap Container.match?).getLast? with
  | some last =>
      obtain ⟨d, _, hd⟩ := List.mem_filterMap.mp (List.mem_of_getLast? hrest)
      have hlast := match_ne_empty hd
      cases c.ours <;> cases c.match? <;> simp [List.getLast?_cons, hrest, hlast]
  | none =>
      have hnil := List.getLast?_eq_none_iff.mp hrest
      cases hours : c.ours with
      | false =>
          have hc : c.match? = none := by
            unfold Container.match?
            rw [hours]
            rfl
          simp [hnil, hc, hne.symm]
      | true =>
          cases hc : c.match? with
          | none => simp [hnil]
          | some name => simp [hnil, match_ne_empty hc]

theorem targetName_webUI (hweb : p.hasWebUI = true) : p.targetName = webUIName := by
  rw [Pod.targetName, if_pos hweb]

theorem served_of_agrees {c : Container} {rest : List Container} (hweb : p.hasWebUI = true)
    (hp : p.containers = c :: rest) (hq : q.containers = c.withEnvFrom (injectedRef p) :: rest)
    (h : Agrees p q) : Served p c where
  placed := by
    by_cases hc : c.name = webUIName
    · exact .inl hc
    · right
      constructor
      · rcases h.only 0 _ (by rw [hq]; rfl) (withEnvFrom_refers c p) with hname | ⟨c₀, hc₀, hrefers⟩
        · exact absurd (hname.trans (targetName_webUI hweb)) hc
        · rw [hp] at hc₀
          cases hc₀
          exact hrefers
      · have hinjected := h.injected
        rw [if_pos hweb, hq] at hinjected
        rcases hinjected with ⟨d, hd, hname, hrefers⟩
        rcases List.mem_cons.mp hd with rfl | hd
        · exact absurd hname hc
        · exact ⟨d, by rw [hp]; exact List.mem_cons_of_mem _ hd, hname, hrefers⟩
  found := by
    rcases (webUI_selected_iff hp hq).mp h.selected with hsame | ⟨hnone, _⟩
    · exact .inr hsame
    · exact .inl hnone

theorem agrees_of_served {c : Container} {rest : List Container} (hweb : p.hasWebUI = true)
    (hp : p.containers = c :: rest) (hq : q.containers = c.withEnvFrom (injectedRef p) :: rest)
    (h : Served p c) : Agrees p q where
  injected := by
    rw [if_pos hweb, hq]
    rcases h.placed with hc | ⟨_, d, hd, hname, hrefers⟩
    · exact ⟨_, List.mem_cons_self, hc, withEnvFrom_refers c p⟩
    · rw [hp] at hd
      rcases List.mem_cons.mp hd with rfl | hd
      · exact ⟨_, List.mem_cons_self, hname, withEnvFrom_refers d p⟩
      · exact ⟨d, List.mem_cons_of_mem _ hd, hname, hrefers⟩
  only i d hd hrefers := by
    rw [hq] at hd
    cases i with
    | zero =>
        cases hd
        rcases h.placed with hc | ⟨hc, _⟩
        · exact .inl (hc.trans (targetName_webUI hweb).symm)
        · exact .inr ⟨c, by rw [hp]; rfl, hc⟩
    | succ i => exact .inr ⟨d, by rw [hp]; exact hd, hrefers⟩
  selected := by
    have hours : ∀ d : Container, d.name = webUIName → d.ours = true := fun d hd => by
      simp [Container.ours, hd]
    rw [webUI_selected_iff hp hq]
    rcases h.found with hnone | hsame
    · right
      rcases h.placed with hc | ⟨_, d, hd, hname, hrefers⟩
      · exact ⟨hnone, hours c hc⟩
      · obtain ⟨name, hmatch⟩ := match_of_refers (hours d hname) hrefers
        exact absurd hnone (findSecretName_ne_empty hd hmatch)
    · exact .inl hsame

end Defaulted

/-- With the adapter image set, webhook and controller agree on a pod exactly
when it has no WebUI container or the webhook serves the one it has. -/
theorem agrees_iff (image : String) (p : Pod) :
    (∀ q, defaultPod (some image) p = .ok q → Agrees p q) ↔ Suits p := by
  cases hweb : p.hasWebUI with
  | false =>
      refine ⟨fun _ h => ?_, fun _ q h => adapter_agrees hweb h⟩
      rw [hweb] at h
      cases h
  | true =>
      have hdefault : defaultPod (some image) p = .ok (defaultWebUIPod p) := if_pos hweb
      obtain ⟨c, rest, hp, hq⟩ := default_webUI hweb hdefault
      have hserves : Agrees p (defaultWebUIPod p) ↔ Served p c :=
        ⟨served_of_agrees hweb hp hq, agrees_of_served hweb hp hq⟩
      simp only [hdefault, Except.ok.injEq, forall_eq', hserves, Suits, hweb, forall_const, hp,
        List.head?_cons, Option.some.injEq, exists_eq_left']

/-- A pod whose WebUI container comes second. -/
def sidecarFirst : Pod where
  name := "webui-0"
  ns := "default"
  uid := 1
  containers := [{ name := "istio-proxy" }, { name := webUIName }]

/-- The reference goes to the sidecar, and the controller finds none. -/
theorem sidecar_first_disagrees :
    ¬ ∀ image p q, defaultPod (some image) p = .ok q → Agrees p q := by
  intro h
  have hselected := (h "tsymbiote:latest" sidecarFirst _ rfl).selected
  exact absurd hselected (by decide)

end TSymbiote.Operator
