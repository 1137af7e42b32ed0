import TSymbiote.Operator.Secrets
import TSymbiote.Operator.StatefulSet
import TSymbiote.Routes
import TSymbiote.WebUI.PeerMap

/-! # The roles of the nodes

The key of a pod's secret has the tag of the pod's role, and a node that joins
with it gets its tags. The adapters let in the nodes of WebUI pods, and the WebUI
takes the others for adapters.
-/

namespace TSymbiote.Operator

open Transition Handlers Shared

/-! ## What the tags are for -/

/-- The flag of the adapter's command, with its default. The last one wins. -/
def allowedTag (args : List String) : String :=
  ((args.filterMap (WebUI.flagValue "allowed-tag")).getLast?).getD "tag:tsymbiote-webui"

/-- The sidecars are started with the default. -/
theorem adapterContainer_allowedTag (image : String) (pod : Pod) :
    allowedTag (adapterContainer image pod).args = "tag:tsymbiote-webui" := by
  show allowedTag ["adapter", "--discover-socket", "--hostname=tsymbiote-$(POD_NAME)"] = _
  decide +kernel

/-- The check of an adapter calls the handler after it. -/
def LetsIn {σ : Type} (world : World Effect Effect.Answer σ) (tag : String) (r : HTTPRequest)
    (s : σ) : Prop :=
  .final ∈ ((Routes.adapterAuth tag r).run world (fun r s => ⟨some r, s, [.final]⟩) s).trace

theorem letsIn_iff {σ : Type} {world : World Effect Effect.Answer σ} {tag : String} {r : HTTPRequest}
    {s : σ} {resp : WhoIs} (hresp : (world s (.whoIs r.request.remoteAddr)).1 = .ok resp) :
    LetsIn world tag r s ↔ tag ∈ resp.tags := by
  unfold LetsIn Routes.adapterAuth
  rw [run_perform]
  dsimp only
  rw [hresp]
  by_cases htag : tag ∈ resp.tags
  · simp [htag, run_next, Code.run]
  · simp [htag, setStatusCode, Code.run]

theorem mem_getDevicesWithTag {devices : List WebUI.Device} {d : WebUI.Device} {tag : String}
    (hd : d ∈ devices) (hconnected : d.connectedToControl = true) :
    d ∈ WebUI.getDevicesWithTag devices tag ↔ tag ∈ d.tags := by
  simp [WebUI.getDevicesWithTag, WebUI.getDevices, hd, hconnected]

theorem mem_deviceTag (pod : Pod) :
    ("tag:tsymbiote-webui" ∈ deviceTag pod ↔ pod.hasWebUI = true) ∧
      ("tag:tsymbiote-adapter" ∈ deviceTag pod ↔ pod.hasWebUI = false) := by
  unfold deviceTag
  cases pod.hasWebUI with
  | true => exact ⟨by decide, by decide⟩
  | false => exact ⟨by decide, by decide⟩

/-! ## The tags in every cluster -/

/-- A secret's owners are pods that have been created, and its key has the tag and
the name of the one that is alive. -/
structure Tagged (c : Cluster) : Prop where
  young : ∀ {n pod}, c.pods.lookup n = some pod → pod.uid < c.nextUID
  one : ∀ {n n' pod pod'}, c.pods.lookup n = some pod → c.pods.lookup n' = some pod' →
    pod.uid = pod'.uid → pod = pod'
  created : ∀ {name secret}, c.secrets.lookup name = some secret →
    ∀ uid ∈ secret.owners, uid < c.nextUID
  tags : ∀ {n pod name secret}, c.pods.lookup n = some pod → c.secrets.lookup name = some secret →
    pod.uid ∈ secret.owners →
      secret.authKey.tags = deviceTag pod ∧ secret.authKey.description = pod.name

variable {accepts : String → Bool} {c c' : Cluster}

theorem tagged_empty : Tagged emptyCluster := by
  constructor <;> simp [emptyCluster]

theorem Tagged.issue (h : Tagged c) (pod : Pod) : Tagged (c.issue pod) :=
  ⟨h.young, h.one, h.created, h.tags⟩

theorem Tagged.record (h : Tagged c) (pod : Pod) : Tagged (c.record pod) :=
  ⟨h.young, h.one, h.created, h.tags⟩

theorem Tagged.store (h : Tagged c) {n : NamespacedName} {pod : Pod}
    (hpod : c.pods.lookup n = some pod) {secret : Secret} (howners : secret.owners = [pod.uid])
    (hkey : secret.authKey.tags = deviceTag pod ∧ secret.authKey.description = pod.name)
    (name : NamespacedName) : Tagged (c.store name secret) where
  young := h.young
  one := h.one
  created hsecret uid huid := by
    rcases lookup_insert_cases hsecret with ⟨_, rfl⟩ | ⟨_, hold⟩
    · rw [howners] at huid
      rw [List.mem_singleton.mp huid]
      exact h.young hpod
    · exact h.created hold uid huid
  tags hother hsecret howner := by
    rcases lookup_insert_cases hsecret with ⟨_, rfl⟩ | ⟨_, hold⟩
    · rw [howners] at howner
      rw [h.one hother hpod (List.mem_singleton.mp howner)]
      exact hkey
    · exact h.tags hother hold howner

/-- The new pod owns no secret yet. -/
theorem Tagged.create (h : Tagged c) (pod : Pod) (name : String) :
    Tagged { c with
      pods := c.pods.insert (pod.ns, name) { pod with name, uid := c.nextUID }
      nextUID := c.nextUID + 1 } where
  young hlookup := by
    rcases lookup_insert_cases hlookup with ⟨_, rfl⟩ | ⟨_, hold⟩
    · exact Nat.lt_succ_self _
    · exact Nat.lt_succ_of_lt (h.young hold)
  one hlookup hlookup' huid := by
    rcases lookup_insert_cases hlookup with ⟨_, rfl⟩ | ⟨_, hold⟩
    · rcases lookup_insert_cases hlookup' with ⟨_, rfl⟩ | ⟨_, hold'⟩
      · rfl
      · exact absurd huid.symm (Nat.ne_of_lt (h.young hold'))
    · rcases lookup_insert_cases hlookup' with ⟨_, rfl⟩ | ⟨_, hold'⟩
      · exact absurd huid (Nat.ne_of_lt (h.young hold))
      · exact h.one hold hold' huid
  created hsecret uid huid := Nat.lt_succ_of_lt (h.created hsecret uid huid)
  tags hlookup hsecret howner := by
    rcases lookup_insert_cases hlookup with ⟨_, rfl⟩ | ⟨_, hold⟩
    · exact absurd (h.created hsecret _ howner) (Nat.lt_irrefl _)
    · exact h.tags hold hsecret howner

theorem next_tagged {a : Action} (hs : Tagged c) (h : Next accepts c a c') : Tagged c' := by
  cases h with
  | created image template suffix pod hpod hfree => exact hs.create pod _
  | deleted name =>
      exact ⟨fun hpod => hs.young (lookup_of_erase hpod),
        fun hpod hpod' => hs.one (lookup_of_erase hpod) (lookup_of_erase hpod'), hs.created,
        fun hpod => hs.tags (lookup_of_erase hpod)⟩
  | collected name secret hsecret hgone =>
      exact ⟨hs.young, hs.one, fun hold => hs.created (lookup_of_erase hold),
        fun hpod hold => hs.tags hpod (lookup_of_erase hold)⟩
  | reconciled name faults _ h =>
      cases h with
      | idle => exact hs
      | spent pod hpod => exact hs.issue pod
      | found pod secret hpod hname hsecret => exact hs.record pod
      | stored pod hpod hname hnone haccepts =>
          exact ((hs.issue pod).store hpod rfl ⟨rfl, rfl⟩ pod.secretRef).record pod

theorem reaches_tagged (h : Reaches (step accepts) emptyCluster c) : Tagged c :=
  Reaches.invariant (fun hs hl => next_tagged hs (step_next hl)) h tagged_empty

/-- In every run, the node that joins with a pod's key is let in by the adapters
just when the pod is a WebUI's, and taken for an adapter just when it is not. -/
theorem roles_separate {accepts : String → Bool} {c : Cluster}
    (h : Reaches (step accepts) emptyCluster c) {n name : NamespacedName} {pod : Pod} {secret : Secret}
    (hpod : c.pods.lookup n = some pod) (hsecret : c.secrets.lookup name = some secret)
    (howner : pod.uid ∈ secret.owners) :
    (∀ {σ : Type} (world : World Effect Effect.Answer σ) (image : String) (sidecar : Pod)
      (r : HTTPRequest) (s : σ) (loginName : String),
      (world s (.whoIs r.request.remoteAddr)).1 = .ok ⟨loginName, secret.authKey.tags⟩ →
        (LetsIn world (allowedTag (adapterContainer image sidecar).args) r s ↔
          pod.hasWebUI = true)) ∧
      ∀ devices hostname, ⟨hostname, secret.authKey.tags, true⟩ ∈ devices →
        (⟨hostname, secret.authKey.tags, true⟩ ∈
            WebUI.getDevicesWithTag devices "tag:tsymbiote-adapter" ↔ pod.hasWebUI = false) := by
  have htags := ((reaches_tagged h).tags hpod hsecret howner).1
  constructor
  · intro σ world image sidecar r s loginName hresp
    rw [adapterContainer_allowedTag, letsIn_iff hresp, htags]
    exact (mem_deviceTag pod).1
  · intro devices hostname hdevice
    rw [mem_getDevicesWithTag hdevice rfl, htags]
    exact (mem_deviceTag pod).2

/-- A sidecar's pod after its secret is made. -/
theorem roles_separate_sidecar : ∃ (c : Cluster) (pod : Pod) (secret : Secret),
    c.secrets.lookup ("default", "tsymbiote-inject-db-0") = some secret ∧ pod.hasWebUI = false ∧
      ∀ devices hostname, ⟨hostname, secret.authKey.tags, true⟩ ∈ devices →
        (⟨hostname, secret.authKey.tags, true⟩ ∈
            WebUI.getDevicesWithTag devices "tag:tsymbiote-adapter" ↔ pod.hasWebUI = false) := by
  have hrun : ∃ c, execute (step fun _ => true) emptyCluster
      [.create "tsymbiote:latest" statefulPod "", .reconcile ("default", "db-0") noFaults] =
        some c ∧ ∃ pod, c.pods.lookup ("default", "db-0") = some pod ∧ pod.hasWebUI = false ∧
      ∃ secret, c.secrets.lookup ("default", "tsymbiote-inject-db-0") = some secret ∧
        pod.uid ∈ secret.owners :=
    ⟨_, rfl, _, rfl, rfl, _, rfl, List.mem_singleton_self _⟩
  obtain ⟨c, hc, pod, hpod, hweb, secret, hsecret, howner⟩ := hrun
  exact ⟨c, pod, secret, hsecret, hweb,
    (roles_separate (execute_reaches hc) hpod hsecret howner).2⟩

/-! ## A WebUI pod on its way -/

section StatefulSet

variable {Affinity Toleration : Type}

/-- The first pod that the stateful set's controller makes. It may have labels of
the controller's too. -/
structure StatefulSet.Makes (sts : StatefulSet Affinity Toleration) (pod : Pod) : Prop where
  name : pod.name = sts.name ++ "-0"
  ns : pod.ns = sts.ns
  labels : ∀ key val, sts.template.labels.lookup key = some val →
    (pod.labels.getD ∅).lookup key = some val
  containers : pod.containers = sts.template.containers

variable {image webUIImage : String} {tsymbioteObj : TSymbioteObj Affinity Toleration}
  {template : Pod}

theorem StatefulSet.Makes.hasWebUI
    (hmakes : (buildStatefulSet webUIImage tsymbioteObj).Makes template) :
    template.hasWebUI = true := by
  unfold Pod.hasWebUI
  rw [hmakes.containers]
  rfl

end StatefulSet

end TSymbiote.Operator
