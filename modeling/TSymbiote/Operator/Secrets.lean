import TSymbiote.Lib.Transition
import TSymbiote.Operator.SecretName

/-! # Auth keys of injected pods

The secrets controller generates a key for a pod whose secret does not exist,
and takes a secret that exists for the pod's own. Pods are admitted through the
webhook, deleted and created again; secrets are collected some time after their
owner is gone. Over the runs of such a cluster, `Fresh` is the condition on the
admissions under which each pod relies on a key of its own.
-/

namespace TSymbiote.Operator

open Transition

abbrev NamespacedName := String × String

/-- A key of the control plane: single use, ephemeral and preauthorized. -/
structure AuthKey where
  serial : Nat
  description : String
  tags : List String
  deriving DecidableEq, Repr

structure Secret where
  owners : List Nat
  authKey : AuthKey
  deriving DecidableEq, Repr

/-- A `Reconcile` that returned without error for the live pod `uid`, with the
secret the pod refers to at that moment. -/
structure Outcome where
  uid : Nat
  secret : Option Secret
  deriving DecidableEq, Repr

/-- `issued` has, for the serial number of each key generated so far, the pod it
was generated for; `outcomes` has the successful calls. The code reads neither. -/
structure Cluster where
  pods : AList fun _ : NamespacedName => Pod
  secrets : AList fun _ : NamespacedName => Secret
  nextUID : Nat
  issued : List Nat
  outcomes : List Outcome

def emptyCluster : Cluster := ⟨∅, ∅, 0, [], []⟩

/-- The secret that `Reconcile` looks for. -/
def Pod.secretRef (pod : Pod) : NamespacedName := (pod.ns, findSecretName pod)

/-- The calls of `Reconcile` to other services. -/
inductive Call where
  | newClient
  | getPod
  | getSecret
  | generateDeviceKey
  | apply
  deriving DecidableEq, Repr

def deviceTag (pod : Pod) : List String :=
  if pod.hasWebUI then ["tag:tsymbiote-webui"] else ["tag:tsymbiote-adapter"]

/-- The cluster after a key was generated for the pod. -/
def Cluster.issue (c : Cluster) (pod : Pod) : Cluster := { c with issued := c.issued ++ [pod.uid] }

/-- The secret that holds the next key. -/
def Cluster.nextSecret (c : Cluster) (pod : Pod) : Secret :=
  ⟨[pod.uid], c.issued.length, pod.name, deviceTag pod⟩

def Cluster.store (c : Cluster) (name : NamespacedName) (secret : Secret) : Cluster :=
  { c with secrets := c.secrets.insert name secret }

/-- The end of `Reconcile`, for a secret that does not exist. `accepts` is the
API server's check of object names, and `faults` the errors of calls that fail. -/
def createSecret (accepts : String → Bool) (c : Cluster) (pod : Pod)
    (faults : Call → Option String) : Cluster × Except String Unit :=
  match faults .generateDeviceKey, faults .apply with
  | some err, _ => (c, .error ("failed to generate device key for pod: " ++ err))
  | none, some err => (c.issue pod, .error err)
  | none, none =>
      if accepts (findSecretName pod) then
        ((c.issue pod).store pod.secretRef (c.nextSecret pod), .ok ())
      else (c.issue pod, .error "metadata.name: Invalid value")

def reconcilePod (accepts : String → Bool) (c : Cluster) (pod : Pod)
    (faults : Call → Option String) : Cluster × Except String Unit :=
  if findSecretName pod = "" then (c, .error "secret name was not found in pod")
  else
    match faults .getSecret, c.secrets.lookup pod.secretRef with
    | some err, _ => (c, .error err)
    | none, some _ => (c, .ok ())
    | none, none => createSecret accepts c pod faults

def reconcile (accepts : String → Bool) (c : Cluster) (req : NamespacedName)
    (faults : Call → Option String) : Cluster × Except String Unit :=
  match faults .newClient, faults .getPod, c.pods.lookup req with
  | some err, _, _ => (c, .error err)
  | none, some err, _ => (c, .error err)
  | none, none, none => (c, .ok ())
  | none, none, some pod => reconcilePod accepts c pod faults

/-- Notes a successful call for a live pod. -/
def Cluster.record (c : Cluster) (pod : Pod) : Cluster :=
  { c with outcomes := c.outcomes ++ [⟨pod.uid, c.secrets.lookup pod.secretRef⟩] }

inductive Action where
  | create (adapterImage : String) (template : Pod) (suffix : String)
  | delete (name : NamespacedName)
  | collect (name : NamespacedName)
  | reconcile (name : NamespacedName) (faults : Call → Option String)

/-- The name a pod gets; one that was left empty is made after admission. -/
def createdName (template : Pod) (suffix : String) : String :=
  if template.name = "" then template.generateName ++ suffix else template.name

def Cluster.live (c : Cluster) (uid : Nat) : Bool := c.pods.entries.any fun e => e.2.uid = uid

def step (accepts : String → Bool) (c : Cluster) : Action → Option Cluster
  | .create image template suffix =>
      match defaultPod (some image) template with
      | .error _ => none
      | .ok pod =>
          let name := createdName template suffix
          if name = "" ∨ (c.pods.lookup (pod.ns, name)).isSome then none
          else
            some { c with
              pods := c.pods.insert (pod.ns, name) { pod with name, uid := c.nextUID }
              nextUID := c.nextUID + 1 }
  | .delete name => some { c with pods := c.pods.erase name }
  | .collect name =>
      match c.secrets.lookup name with
      | none => none
      | some secret =>
          if secret.owners.any c.live then none
          else some { c with secrets := c.secrets.erase name }
  | .reconcile name faults =>
      match reconcile accepts c name faults, c.pods.lookup name with
      | (c', .ok ()), some pod => some (c'.record pod)
      | (c', _), _ => some c'

/-! ## One key for one pod -/

/-- The secret is there, the pod owns it, and its key was generated for the pod. -/
def Kept (c : Cluster) (o : Outcome) : Prop :=
  ∃ secret, o.secret = some secret ∧ o.uid ∈ secret.owners ∧
    c.issued[secret.authKey.serial]? = some o.uid

/-- Two pods rely on one key. -/
def Shared (o o' : Outcome) : Prop :=
  o.uid ≠ o'.uid ∧ ∃ s s', o.secret = some s ∧ o'.secret = some s' ∧ s.authKey = s'.authKey

def Violated (c : Cluster) : Prop :=
  (∃ o ∈ c.outcomes, ¬ Kept c o) ∨ ∃ o ∈ c.outcomes, ∃ o' ∈ c.outcomes, Shared o o'

/-- When a pod is admitted, the secret it is going to refer to does not exist yet,
and no live pod refers to it. -/
def Fresh (accepts : String → Bool) (c : Cluster) : Action → Prop
  | .create image template _ =>
      ∀ pod, defaultPod (some image) template = .ok pod →
        findSecretName pod ≠ "" → accepts (findSecretName pod) = true →
          c.secrets.lookup pod.secretRef = none ∧
            ∀ name q, c.pods.lookup name = some q → q.secretRef ≠ pod.secretRef
  | _ => True

/-! ## What one step can do -/

inductive ReconcileNext (accepts : String → Bool) (c : Cluster) (name : NamespacedName) :
    Cluster → Prop where
  | idle : ReconcileNext accepts c name c
  | spent (pod : Pod) (hpod : c.pods.lookup name = some pod) :
      ReconcileNext accepts c name (c.issue pod)
  | found (pod : Pod) (secret : Secret) (hpod : c.pods.lookup name = some pod)
      (hname : findSecretName pod ≠ "") (hsecret : c.secrets.lookup pod.secretRef = some secret) :
      ReconcileNext accepts c name (c.record pod)
  | stored (pod : Pod) (hpod : c.pods.lookup name = some pod) (hname : findSecretName pod ≠ "")
      (hnone : c.secrets.lookup pod.secretRef = none)
      (haccepts : accepts (findSecretName pod) = true) :
      ReconcileNext accepts c name
        (((c.issue pod).store pod.secretRef (c.nextSecret pod)).record pod)

inductive Next (accepts : String → Bool) (c : Cluster) : Action → Cluster → Prop where
  | created (image : String) (template : Pod) (suffix : String) (pod : Pod)
      (hpod : defaultPod (some image) template = .ok pod)
      (hfree : c.pods.lookup (pod.ns, createdName template suffix) = none) :
      Next accepts c (.create image template suffix)
        { c with
          pods := c.pods.insert (pod.ns, createdName template suffix)
            { pod with name := createdName template suffix, uid := c.nextUID }
          nextUID := c.nextUID + 1 }
  | deleted (name : NamespacedName) :
      Next accepts c (.delete name) { c with pods := c.pods.erase name }
  | collected (name : NamespacedName) (secret : Secret)
      (hsecret : c.secrets.lookup name = some secret) (hgone : secret.owners.any c.live = false) :
      Next accepts c (.collect name) { c with secrets := c.secrets.erase name }
  | reconciled (name : NamespacedName) (faults : Call → Option String) (c' : Cluster)
      (h : ReconcileNext accepts c name c') : Next accepts c (.reconcile name faults) c'

variable {accepts : String → Bool} {c c' : Cluster}

theorem createSecret_cases (accepts : String → Bool) (c : Cluster) (pod : Pod) (faults : Call → Option String) :
    (∃ err, createSecret accepts c pod faults = (c, .error err)) ∨
      (∃ err, createSecret accepts c pod faults = (c.issue pod, .error err)) ∨
      (accepts (findSecretName pod) = true ∧ createSecret accepts c pod faults =
        ((c.issue pod).store pod.secretRef (c.nextSecret pod), .ok ())) := by
  unfold createSecret
  cases faults .generateDeviceKey with
  | some err => exact .inl ⟨_, rfl⟩
  | none =>
      right
      cases faults .apply with
      | some err => exact .inl ⟨_, rfl⟩
      | none =>
          dsimp only
          split
          · next haccepts => exact .inr ⟨haccepts, rfl⟩
          · exact .inl ⟨_, rfl⟩

/-- What `Reconcile` comes to once it has the pod, with and without an error. -/
theorem reconcilePod_cases (accepts : String → Bool) {name : NamespacedName} {pod : Pod}
    (hpod : c.pods.lookup name = some pod) (faults : Call → Option String) :
    (∃ c' err, reconcilePod accepts c pod faults = (c', .error err) ∧
        ReconcileNext accepts c name c') ∨
      ∃ c', reconcilePod accepts c pod faults = (c', .ok ()) ∧
        ReconcileNext accepts c name (c'.record pod) := by
  unfold reconcilePod
  by_cases hname : findSecretName pod = ""
  · rw [if_pos hname]
    exact .inl ⟨c, _, rfl, .idle⟩
  · rw [if_neg hname]
    cases faults .getSecret with
    | some err => exact .inl ⟨c, err, rfl, .idle⟩
    | none =>
        cases hsecret : c.secrets.lookup pod.secretRef with
        | some secret => exact .inr ⟨c, rfl, .found pod secret hpod hname hsecret⟩
        | none =>
            rcases createSecret_cases accepts c pod faults with
              ⟨err, heq⟩ | ⟨err, heq⟩ | ⟨haccepts, heq⟩
            · exact .inl ⟨c, err, heq, .idle⟩
            · exact .inl ⟨c.issue pod, err, heq, .spent pod hpod⟩
            · exact .inr ⟨_, heq, .stored pod hpod hname hsecret haccepts⟩

theorem reconcile_next {name : NamespacedName} {faults : Call → Option String}
    (h : step accepts c (.reconcile name faults) = some c') : ReconcileNext accepts c name c' := by
  unfold step reconcile at h
  cases hclient : faults .newClient with
  | some err =>
      simp only [hclient, Option.some.injEq] at h
      exact h ▸ .idle
  | none =>
      cases hget : faults .getPod with
      | some err =>
          simp only [hclient, hget, Option.some.injEq] at h
          exact h ▸ .idle
      | none =>
          cases hpod : c.pods.lookup name with
          | none =>
              simp only [hclient, hget, hpod, Option.some.injEq] at h
              exact h ▸ .idle
          | some pod =>
              rcases reconcilePod_cases accepts hpod faults with
                ⟨d, err, heq, hnext⟩ | ⟨d, heq, hnext⟩
              · simp only [hclient, hget, hpod, heq, Option.some.injEq] at h
                exact h ▸ hnext
              · simp only [hclient, hget, hpod, heq, Option.some.injEq] at h
                exact h ▸ hnext

theorem step_next {a : Action} (h : step accepts c a = some c') : Next accepts c a c' := by
  cases a with
  | create image template suffix =>
      unfold step at h
      cases hpod : defaultPod (some image) template with
      | error err =>
          simp only [hpod] at h
          contradiction
      | ok pod =>
          simp only [hpod] at h
          split at h
          · contradiction
          · next hfree =>
              cases h
              rw [not_or, Bool.not_eq_true, Option.isSome_eq_false_iff, Option.isNone_iff_eq_none]
                at hfree
              exact .created image template suffix pod hpod hfree.2
  | delete name =>
      cases h
      exact .deleted name
  | collect name =>
      unfold step at h
      cases hsecret : c.secrets.lookup name with
      | none =>
          simp only [hsecret] at h
          contradiction
      | some secret =>
          simp only [hsecret] at h
          split at h
          · contradiction
          · next hgone =>
              cases h
              exact .collected name secret hsecret (by simpa using hgone)
  | reconcile name faults => exact .reconciled name faults c' (reconcile_next h)

/-! ## Runs whose admissions are fresh -/

/-- A secret has one owner, the pod its key was generated for, and no other live
pod refers to it; two live pods do not refer to one valid secret name. -/
structure OneKey (accepts : String → Bool) (c : Cluster) : Prop where
  young : ∀ {name pod}, c.pods.lookup name = some pod → pod.uid < c.nextUID
  owned : ∀ {name secret}, c.secrets.lookup name = some secret →
    ∃ uid, secret.owners = [uid] ∧ uid < c.nextUID ∧ c.issued[secret.authKey.serial]? = some uid
  valid : ∀ {name secret}, c.secrets.lookup name = some secret →
    name.2 ≠ "" ∧ accepts name.2 = true
  referred : ∀ {name secret n pod}, c.secrets.lookup name = some secret →
    c.pods.lookup n = some pod → pod.secretRef = name → secret.owners = [pod.uid]
  apart : ∀ {n pod n' pod'}, c.pods.lookup n = some pod → c.pods.lookup n' = some pod' →
    pod.secretRef = pod'.secretRef → findSecretName pod ≠ "" → accepts (findSecretName pod) = true →
      pod.uid = pod'.uid
  kept : ∀ o ∈ c.outcomes, Kept c o

theorem oneKey_empty (accepts : String → Bool) : OneKey accepts emptyCluster := by
  constructor <;> simp [emptyCluster]

/-- Keys generated later do not change who a key was generated for. -/
theorem issued_append {issued : List Nat} {serial uid : Nat} (h : issued[serial]? = some uid)
    (later : Nat) : (issued ++ [later])[serial]? = some uid := by
  rw [List.getElem?_append_left (List.getElem?_eq_some_iff.mp h).1, h]

theorem Kept.issue {o : Outcome} (h : Kept c o) (pod : Pod) : Kept (c.issue pod) o := by
  rcases h with ⟨secret, hsecret, howner, hissued⟩
  exact ⟨secret, hsecret, howner, issued_append hissued pod.uid⟩

theorem OneKey.issue (h : OneKey accepts c) (pod : Pod) : OneKey accepts (c.issue pod) where
  young := h.young
  owned hsecret := by
    obtain ⟨uid, howners, hlt, hissued⟩ := h.owned hsecret
    exact ⟨uid, howners, hlt, issued_append hissued pod.uid⟩
  valid := h.valid
  referred := h.referred
  apart := h.apart
  kept o ho := (h.kept o ho).issue pod

theorem OneKey.record (h : OneKey accepts c) {name : NamespacedName} {pod : Pod} {secret : Secret}
    (hpod : c.pods.lookup name = some pod) (hsecret : c.secrets.lookup pod.secretRef = some secret) :
    OneKey accepts (c.record pod) where
  young := h.young
  owned := h.owned
  valid := h.valid
  referred := h.referred
  apart := h.apart
  kept o ho := by
    rcases List.mem_append.mp ho with ho | ho
    · exact h.kept o ho
    · rw [List.mem_singleton.mp ho]
      have howners := h.referred hsecret hpod rfl
      obtain ⟨uid, howners', _, hissued⟩ := h.owned hsecret
      have huid : uid = pod.uid := by
        rw [howners] at howners'
        exact (List.cons.inj howners').1.symm
      subst huid
      exact ⟨secret, hsecret, by rw [howners]; exact List.mem_singleton.mpr rfl, hissued⟩

/-- The key just generated goes into the secret of the pod it was generated for. -/
theorem OneKey.store (h : OneKey accepts c) {name : NamespacedName} {pod : Pod}
    (hpod : c.pods.lookup name = some pod) (hname : findSecretName pod ≠ "")
    (haccepts : accepts (findSecretName pod) = true) :
    OneKey accepts ((c.issue pod).store pod.secretRef (c.nextSecret pod)) where
  young := h.young
  owned hsecret := by
    rcases lookup_insert_cases hsecret with ⟨_, rfl⟩ | ⟨_, hold⟩
    · exact ⟨pod.uid, rfl, h.young hpod, by simp [Cluster.store, Cluster.issue, Cluster.nextSecret]⟩
    · exact (h.issue pod).owned hold
  valid hsecret := by
    rcases lookup_insert_cases hsecret with ⟨rfl, _⟩ | ⟨_, hold⟩
    · exact ⟨hname, haccepts⟩
    · exact h.valid hold
  referred hsecret hother href := by
    rcases lookup_insert_cases hsecret with ⟨rfl, rfl⟩ | ⟨_, hold⟩
    · have hsame := h.apart hpod hother href.symm hname haccepts
      rw [← hsame]
      rfl
    · exact h.referred hold hother href
  apart := h.apart
  kept o ho := (h.kept o ho).issue pod

theorem OneKey.create (h : OneKey accepts c) {image : String} {template pod : Pod} {suffix : String}
    (hpod : defaultPod (some image) template = .ok pod)
    (hfresh : Fresh accepts c (.create image template suffix)) (name : String) :
    OneKey accepts { c with
      pods := c.pods.insert (pod.ns, name) { pod with name, uid := c.nextUID }
      nextUID := c.nextUID + 1 } where
  young hlookup := by
    rcases lookup_insert_cases hlookup with ⟨_, rfl⟩ | ⟨_, hold⟩
    · exact Nat.lt_succ_self _
    · exact Nat.lt_succ_of_lt (h.young hold)
  owned hsecret := by
    obtain ⟨uid, howners, hlt, hissued⟩ := h.owned hsecret
    exact ⟨uid, howners, Nat.lt_succ_of_lt hlt, hissued⟩
  valid := h.valid
  referred hsecret hlookup href := by
    rcases lookup_insert_cases hlookup with ⟨_, rfl⟩ | ⟨_, hold⟩
    · subst href
      have hvalid := h.valid hsecret
      have hnone := (hfresh pod hpod hvalid.1 hvalid.2).1
      have hsecret' : c.secrets.lookup pod.secretRef = some _ := hsecret
      rw [hnone] at hsecret'
      cases hsecret'
    · exact h.referred hsecret hold href
  apart hlookup hlookup' href hname haccepts := by
    rcases lookup_insert_cases hlookup with ⟨_, rfl⟩ | ⟨_, hold⟩
    · rcases lookup_insert_cases hlookup' with ⟨_, rfl⟩ | ⟨_, hold'⟩
      · rfl
      · exact absurd href.symm ((hfresh pod hpod hname haccepts).2 _ _ hold')
    · rcases lookup_insert_cases hlookup' with ⟨_, rfl⟩ | ⟨_, hold'⟩
      · have hsame : findSecretName pod = findSecretName _ := (congrArg Prod.snd href).symm
        have hname' : findSecretName pod ≠ "" := hsame ▸ hname
        have haccepts' : accepts (findSecretName pod) = true := hsame ▸ haccepts
        exact absurd href ((hfresh pod hpod hname' haccepts').2 _ _ hold)
      · exact h.apart hold hold' href hname haccepts
  kept := h.kept

theorem next_oneKey {a : Action} (hs : OneKey accepts c) (hfresh : Fresh accepts c a)
    (h : Next accepts c a c') : OneKey accepts c' := by
  cases h with
  | created image template suffix pod hpod hfree => exact hs.create hpod hfresh _
  | deleted name =>
      exact ⟨fun hpod => hs.young (lookup_of_erase hpod), hs.owned, hs.valid,
        fun hsecret hpod => hs.referred hsecret (lookup_of_erase hpod),
        fun hpod hpod' => hs.apart (lookup_of_erase hpod) (lookup_of_erase hpod'), hs.kept⟩
  | collected name secret hsecret hgone =>
      exact ⟨hs.young, fun hold => hs.owned (lookup_of_erase hold),
        fun hold => hs.valid (lookup_of_erase hold),
        fun hold => hs.referred (lookup_of_erase hold), hs.apart, hs.kept⟩
  | reconciled name faults _ h =>
      cases h with
      | idle => exact hs
      | spent pod hpod => exact hs.issue pod
      | found pod secret hpod hname hsecret => exact hs.record hpod hsecret
      | stored pod hpod hname hnone haccepts =>
          exact (hs.store hpod hname haccepts).record hpod (AList.lookup_insert _)

theorem oneKey_not_violated (h : OneKey accepts c) : ¬ Violated c := by
  intro hviolated
  rcases hviolated with ⟨o, ho, hnot⟩ | ⟨o, ho, o', ho', hne, s, s', hs, hs', hkey⟩
  · exact hnot (h.kept o ho)
  · obtain ⟨secret, hsecret, _, hissued⟩ := h.kept o ho
    obtain ⟨secret', hsecret', _, hissued'⟩ := h.kept o' ho'
    obtain rfl := Option.some.inj (hs.symm.trans hsecret)
    obtain rfl := Option.some.inj (hs'.symm.trans hsecret')
    rw [hkey, hissued'] at hissued
    exact hne (Option.some.inj hissued).symm

/-! ## An admission that is not fresh -/

def noFaults : Call → Option String := fun _ => none

/-- A secret of another pod is taken for the pod's own. -/
theorem reconcile_found {name : NamespacedName} {pod : Pod} {secret : Secret}
    (hpod : c.pods.lookup name = some pod) (hname : findSecretName pod ≠ "")
    (hsecret : c.secrets.lookup pod.secretRef = some secret) :
    step accepts c (.reconcile name noFaults) = some (c.record pod) := by
  simp [step, reconcile, reconcilePod, noFaults, hpod, hname, hsecret]

theorem reconcile_stored {name : NamespacedName} {pod : Pod} (hpod : c.pods.lookup name = some pod)
    (hname : findSecretName pod ≠ "") (hnone : c.secrets.lookup pod.secretRef = none)
    (haccepts : accepts (findSecretName pod) = true) :
    step accepts c (.reconcile name noFaults) =
      some (((c.issue pod).store pod.secretRef (c.nextSecret pod)).record pod) := by
  simp [step, reconcile, reconcilePod, createSecret, noFaults, hpod, hname, hnone, haccepts]

theorem violated_of_foreign {name : NamespacedName} {pod : Pod} {secret : Secret}
    (hpod : c.pods.lookup name = some pod) (hname : findSecretName pod ≠ "")
    (hsecret : c.secrets.lookup pod.secretRef = some secret) (howner : pod.uid ∉ secret.owners) :
    ∃ c', Reaches (step accepts) c c' ∧ Violated c' := by
  refine ⟨c.record pod, Reaches.single (reconcile_found hpod hname hsecret), .inl
    ⟨⟨pod.uid, c.secrets.lookup pod.secretRef⟩, by simp [Cluster.record], ?_⟩⟩
  intro hkept
  rcases hkept with ⟨secret', hsecret', howner', _⟩
  obtain rfl := Option.some.inj (hsecret.symm.trans hsecret')
  exact howner howner'

/-- Another live pod refers to the secret: reconciled first, it becomes the owner. -/
theorem violated_of_rival {name rival : NamespacedName} {pod q : Pod}
    (hpod : c.pods.lookup name = some pod) (hq : c.pods.lookup rival = some q)
    (href : q.secretRef = pod.secretRef) (hname : findSecretName pod ≠ "")
    (haccepts : accepts (findSecretName pod) = true)
    (hnone : c.secrets.lookup pod.secretRef = none) (hne : pod.uid ≠ q.uid) :
    ∃ c', Reaches (step accepts) c c' ∧ Violated c' := by
  have hsame : findSecretName q = findSecretName pod := congrArg Prod.snd href
  have hstored := reconcile_stored hq (hsame ▸ hname) (href ▸ hnone) (hsame ▸ haccepts)
  have hfound : (((c.issue q).store q.secretRef (c.nextSecret q)).record q).secrets.lookup
      pod.secretRef = some (c.nextSecret q) := by
    rw [← href]
    exact AList.lookup_insert _
  have hforeign : pod.uid ∉ (c.nextSecret q).owners := fun howner =>
    hne (List.mem_singleton.mp howner)
  have hrest : ∃ c', Reaches (step accepts)
      (((c.issue q).store q.secretRef (c.nextSecret q)).record q) c' ∧ Violated c' :=
    violated_of_foreign hpod hname hfound hforeign
  rcases hrest with ⟨c', hc', hviolated⟩
  exact ⟨c', Reaches.head hstored hc', hviolated⟩

theorem violated_of_stale {a : Action} (hs : OneKey accepts c) (h : Next accepts c a c')
    (hstale : ¬ Fresh accepts c a) : ∃ c'', Reaches (step accepts) c' c'' ∧ Violated c'' := by
  cases h with
  | created image template suffix pod hpod hfree =>
      simp only [Fresh, hpod, Except.ok.injEq, forall_eq', Classical.not_imp] at hstale
      rcases hstale with ⟨hname, haccepts, hstale⟩
      generalize hc' : ({ c with
        pods := c.pods.insert (pod.ns, createdName template suffix)
          { pod with name := createdName template suffix, uid := c.nextUID }
        nextUID := c.nextUID + 1 } : Cluster) = c'
      have hnew : c'.pods.lookup (pod.ns, createdName template suffix) =
          some { pod with name := createdName template suffix, uid := c.nextUID } := by
        subst hc'
        exact AList.lookup_insert _
      have hsecrets : c'.secrets = c.secrets := by
        subst hc'
        rfl
      cases hsecret : c.secrets.lookup pod.secretRef with
      | some secret =>
          obtain ⟨uid, howners, hlt, _⟩ := hs.owned hsecret
          apply violated_of_foreign hnew hname (hsecrets ▸ hsecret)
          rw [howners]
          exact fun howner => Nat.ne_of_gt hlt (List.mem_singleton.mp howner)
      | none =>
          simp only [hsecret, true_and, not_forall, not_not] at hstale
          rcases hstale with ⟨rival, q, hq, href⟩
          have hrival : c'.pods.lookup rival = some q := by
            subst hc'
            rw [AList.lookup_insert_ne]
            · exact hq
            · intro heq
              subst heq
              rw [hfree] at hq
              cases hq
          exact violated_of_rival hnew hrival href hname haccepts (hsecrets ▸ hsecret)
            (Nat.ne_of_gt (hs.young hq))
  | deleted name => exact absurd trivial hstale
  | collected name secret hsecret hgone => exact absurd trivial hstale
  | reconciled name faults _ h => exact absurd trivial hstale

/-- Fresh admissions are exactly what gives each pod a key of its own, whatever
names the API server accepts. -/
theorem violated_guards (accepts : String → Bool) :
    Guards (step accepts) (Fresh accepts) Violated emptyCluster := by
  refine Guards.of_invariant (P := OneKey accepts) (oneKey_empty accepts) ?_ oneKey_not_violated ?_
  · intro c a c' hs hfresh h
    exact next_oneKey hs hfresh (step_next h)
  · intro c a c' hs h hstale
    exact violated_of_stale hs (step_next h) hstale

/-! ## A pod that comes back under its name -/

def statefulPod : Pod where
  name := "db-0"
  ns := "default"
  uid := 0
  containers := [{ name := "tailscale" }]

/-- The pod is replaced before the secret of its predecessor is collected. -/
theorem restarted_pod_violates :
    ¬ ∀ c, Reaches (step fun _ => true) emptyCluster c → ¬ Violated c := by
  intro h
  have hrun : ∃ c, execute (step fun _ => true) emptyCluster
      [.create "tsymbiote:latest" statefulPod "", .reconcile ("default", "db-0") noFaults,
        .delete ("default", "db-0"), .create "tsymbiote:latest" statefulPod "",
        .reconcile ("default", "db-0") noFaults] = some c ∧
      ∃ secret, (⟨1, some secret⟩ : Outcome) ∈ c.outcomes ∧ secret.owners = [0] :=
    ⟨_, rfl, _, List.mem_cons_of_mem _ List.mem_cons_self, rfl⟩
  rcases hrun with ⟨c, hc, secret, hmem, howners⟩
  refine h c (execute_reaches hc) (.inl ⟨_, hmem, ?_⟩)
  intro hkept
  rcases hkept with ⟨secret', hsecret, howner, _⟩
  cases hsecret
  rw [howners] at howner
  simp at howner

end TSymbiote.Operator
