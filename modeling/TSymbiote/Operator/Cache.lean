import TSymbiote.Operator.Secrets

/-! # Reads from the informer cache

The manager's client answers reads from a cache, so that each read of a
`Reconcile` may be of an earlier cluster; the write goes to the current one, where
it replaces what it finds. Over such runs, `UpToDate` is the condition on the
reads under which the key of a secret stays the same for as long as it exists.
-/

namespace TSymbiote.Operator

open Transition

/-- `Reconcile` with its reads from other clusters than the current one `c`. -/
def reconcileCached (accepts : String → Bool) (seenPods seenSecrets c : Cluster)
    (req : NamespacedName) (faults : Call → Option String) : Cluster × Except String Unit :=
  match faults .newClient, faults .getPod, seenPods.pods.lookup req with
  | some err, _, _ => (c, .error err)
  | none, some err, _ => (c, .error err)
  | none, none, none => (c, .ok ())
  | none, none, some pod =>
      if findSecretName pod = "" then (c, .error "secret name was not found in pod")
      else
        match faults .getSecret, seenSecrets.secrets.lookup pod.secretRef with
        | some err, _ => (c, .error err)
        | none, some _ => (c, .ok ())
        | none, none => createSecret accepts c pod faults

theorem reconcileCached_self (accepts : String → Bool) (c : Cluster) (req : NamespacedName)
    (faults : Call → Option String) :
    reconcileCached accepts c c c req faults = reconcile accepts c req faults := rfl

/-- The clusters so far, the latest in `past` first. -/
structure Timeline where
  now : Cluster
  past : List Cluster

inductive Event where
  /-- Pods come and go, secrets are collected. A `Reconcile` reads the current cluster. -/
  | act (a : Action)
  /-- A secret is deleted by hand. -/
  | remove (name : NamespacedName)
  /-- The reads of a `Reconcile` are of the clusters so many changes ago. -/
  | reconcile (name : NamespacedName) (podAge secretAge : Nat) (faults : Call → Option String)

namespace Timeline

def empty : Timeline := ⟨emptyCluster, []⟩

def clusters (t : Timeline) : List Cluster := t.now :: t.past

def push (t : Timeline) (c : Cluster) : Timeline := ⟨c, t.clusters⟩

@[simp] theorem push_now (t : Timeline) (c : Cluster) : (t.push c).now = c := rfl

def step (accepts : String → Bool) (t : Timeline) : Event → Option Timeline
  | .act a => (Operator.step accepts t.now a).map t.push
  | .remove name => some (t.push { t.now with secrets := t.now.secrets.erase name })
  | .reconcile name podAge secretAge faults =>
      match t.clusters[podAge]?, t.clusters[secretAge]? with
      | some seenPods, some seenSecrets =>
          some (t.push (reconcileCached accepts seenPods seenSecrets t.now name faults).1)
      | _, _ => none

/-- A secret of both clusters has one key in them. -/
def KeyKept (c' c : Cluster) : Prop :=
  ∀ name secret secret', c.secrets.lookup name = some secret →
    c'.secrets.lookup name = some secret' → secret'.authKey = secret.authKey

/-- Some step gave a secret that existed before and after it another key. -/
def Replaced (t : Timeline) : Prop := ¬ t.clusters.IsChain KeyKept

/-- The reads lead to a write of a secret for `pod`, and all calls go through. -/
structure Applies (accepts : String → Bool) (seenPods seenSecrets : Cluster)
    (name : NamespacedName) (faults : Call → Option String) (pod : Pod) : Prop where
  calls : ∀ call, faults call = none
  found : seenPods.pods.lookup name = some pod
  named : findSecretName pod ≠ ""
  valid : accepts (findSecretName pod) = true
  missed : seenSecrets.secrets.lookup pod.secretRef = none

/-- A secret that is read as missing, and then written, is missing in the current
cluster as well. -/
def UpToDate (accepts : String → Bool) (t : Timeline) : Event → Prop
  | .reconcile name podAge secretAge faults =>
      ∀ seenPods seenSecrets pod, t.clusters[podAge]? = some seenPods →
        t.clusters[secretAge]? = some seenSecrets →
        Applies accepts seenPods seenSecrets name faults pod →
        t.now.secrets.lookup pod.secretRef = none
  | _ => True

/-! ## What one event can do -/

inductive CachedNext (accepts : String → Bool) (seenPods seenSecrets c : Cluster)
    (name : NamespacedName) (faults : Call → Option String) : Cluster → Prop where
  | idle (h : ∀ pod, ¬ Applies accepts seenPods seenSecrets name faults pod) :
      CachedNext accepts seenPods seenSecrets c name faults c
  | spent (pod : Pod) (h : ∀ pod, ¬ Applies accepts seenPods seenSecrets name faults pod) :
      CachedNext accepts seenPods seenSecrets c name faults (c.issue pod)
  | stored (pod : Pod) (h : Applies accepts seenPods seenSecrets name faults pod) :
      CachedNext accepts seenPods seenSecrets c name faults
        ((c.issue pod).store pod.secretRef (c.nextSecret pod))

variable {accepts : String → Bool} {seenPods seenSecrets c c' : Cluster} {name : NamespacedName}
  {faults : Call → Option String} {pod : Pod} {t u : Timeline}

theorem Applies.pod_eq {q : Pod} (h : Applies accepts seenPods seenSecrets name faults q)
    (hpod : seenPods.pods.lookup name = some pod) : q = pod := by
  have hfound := h.found
  rw [hpod] at hfound
  exact (Option.some.inj hfound).symm

theorem createSecret_next
    (hfaults : ∀ call, call ≠ .generateDeviceKey → call ≠ .apply → faults call = none)
    (hpod : seenPods.pods.lookup name = some pod) (hname : findSecretName pod ≠ "")
    (hmissed : seenSecrets.secrets.lookup pod.secretRef = none) :
    CachedNext accepts seenPods seenSecrets c name faults (createSecret accepts c pod faults).1 := by
  unfold createSecret
  cases hkey : faults .generateDeviceKey with
  | some err =>
      apply CachedNext.idle
      intro q hq
      rw [hq.calls] at hkey
      cases hkey
  | none =>
      cases happly : faults .apply with
      | some err =>
          apply CachedNext.spent
          intro q hq
          rw [hq.calls] at happly
          cases happly
      | none =>
          dsimp only
          split
          · next haccepts =>
              apply CachedNext.stored
              refine ⟨?_, hpod, hname, haccepts, hmissed⟩
              intro call
              cases call with
              | generateDeviceKey => exact hkey
              | apply => exact happly
              | newClient => exact hfaults _ (by decide) (by decide)
              | getPod => exact hfaults _ (by decide) (by decide)
              | getSecret => exact hfaults _ (by decide) (by decide)
          · next haccepts =>
              apply CachedNext.spent
              intro q hq
              have hvalid := hq.valid
              rw [hq.pod_eq hpod] at hvalid
              exact haccepts hvalid

theorem reconcileCached_next (accepts : String → Bool) (seenPods seenSecrets c : Cluster)
    (name : NamespacedName) (faults : Call → Option String) :
    CachedNext accepts seenPods seenSecrets c name faults
      (reconcileCached accepts seenPods seenSecrets c name faults).1 := by
  unfold reconcileCached
  cases hclient : faults .newClient with
  | some err => exact .idle fun pod h => by simp [h.calls] at hclient
  | none =>
      cases hget : faults .getPod with
      | some err => exact .idle fun pod h => by simp [h.calls] at hget
      | none =>
          cases hpod : seenPods.pods.lookup name with
          | none => exact .idle fun pod h => by simp [h.found] at hpod
          | some pod =>
              dsimp only
              split
              · next hname =>
                  apply CachedNext.idle
                  intro q hq
                  have hnamed := hq.named
                  rw [hq.pod_eq hpod] at hnamed
                  exact hnamed hname
              · next hname =>
                  cases hread : faults .getSecret with
                  | some err => exact .idle fun pod h => by simp [h.calls] at hread
                  | none =>
                      cases hsecret : seenSecrets.secrets.lookup pod.secretRef with
                      | some secret =>
                          apply CachedNext.idle
                          intro q hq
                          have hmissed := hq.missed
                          rw [hq.pod_eq hpod, hsecret] at hmissed
                          cases hmissed
                      | none =>
                          apply createSecret_next _ hpod hname hsecret
                          intro call hkey happly
                          cases call with
                          | newClient => exact hclient
                          | getPod => exact hget
                          | getSecret => exact hread
                          | generateDeviceKey => exact absurd rfl hkey
                          | apply => exact absurd rfl happly

theorem step_reconcile {podAge secretAge : Nat}
    (h : t.step accepts (.reconcile name podAge secretAge faults) = some u) :
    ∃ seenPods seenSecrets c', t.clusters[podAge]? = some seenPods ∧
      t.clusters[secretAge]? = some seenSecrets ∧ u = t.push c' ∧
      CachedNext accepts seenPods seenSecrets t.now name faults c' := by
  unfold step at h
  dsimp only at h
  split at h
  · next seenPods seenSecrets hpods hsecrets =>
      cases h
      exact ⟨seenPods, seenSecrets, _, hpods, hsecrets, rfl,
        reconcileCached_next accepts seenPods seenSecrets t.now name faults⟩
  · contradiction

/-! ## Runs whose reads are up to date -/

/-- No key changed so far, and the keys that are stored have been issued. -/
structure Once (t : Timeline) : Prop where
  kept : t.clusters.IsChain KeyKept
  issued : ∀ {name secret}, t.now.secrets.lookup name = some secret →
    secret.authKey.serial < t.now.issued.length

theorem once_empty : Once empty where
  kept := .singleton _
  issued hsecret := by cases hsecret

theorem keyKept_of_le (h : ∀ {name secret}, c'.secrets.lookup name = some secret →
    c.secrets.lookup name = some secret) : KeyKept c' c := by
  intro name secret secret' hsecret hsecret'
  rw [h hsecret'] at hsecret
  cases hsecret
  rfl

/-- A step that only leaves secrets out keeps the keys of the rest. -/
theorem Once.push_of_le (ht : Once t) (hissued : t.now.issued.length ≤ c'.issued.length)
    (h : ∀ {name secret}, c'.secrets.lookup name = some secret →
      t.now.secrets.lookup name = some secret) : Once (t.push c') where
  kept := .cons_cons (keyKept_of_le h) ht.kept
  issued hsecret := Nat.lt_of_lt_of_le (ht.issued (h hsecret)) hissued

theorem issue_length (c : Cluster) (pod : Pod) : (c.issue pod).issued.length = c.issued.length + 1 := by
  simp [Cluster.issue]

/-- A secret that is written where there was none takes nothing away. -/
theorem Once.push_stored (ht : Once t) (hnone : t.now.secrets.lookup pod.secretRef = none)
    (hsecrets : c'.secrets = t.now.secrets.insert pod.secretRef (t.now.nextSecret pod))
    (hissued : c'.issued = (t.now.issue pod).issued) : Once (t.push c') where
  kept := by
    apply List.IsChain.cons_cons _ ht.kept
    intro name secret secret' hsecret hsecret'
    rw [push_now, hsecrets] at hsecret'
    rcases lookup_insert_cases hsecret' with ⟨hname, _⟩ | ⟨_, hold⟩
    · rw [hname, hnone] at hsecret
      cases hsecret
    · rw [hsecret] at hold
      cases hold
      rfl
  issued hsecret := by
    rw [push_now, hsecrets] at hsecret
    rw [push_now, hissued, issue_length]
    rcases lookup_insert_cases hsecret with ⟨_, heq⟩ | ⟨_, hold⟩
    · rw [← heq]
      exact Nat.lt_succ_self _
    · exact Nat.lt_succ_of_lt (ht.issued hold)

/-- Where all reads are of the current cluster, nothing needs to be asked. -/
theorem Once.push_act (ht : Once t) {a : Action} (h : Operator.step accepts t.now a = some c') :
    Once (t.push c') := by
  cases step_next h with
  | created image template suffix pod hpod hfree => exact ht.push_of_le (Nat.le_refl _) id
  | deleted name => exact ht.push_of_le (Nat.le_refl _) id
  | collected name secret hsecret hgone => exact ht.push_of_le (Nat.le_refl _) lookup_of_erase
  | reconciled name faults _ h =>
      cases h with
      | idle => exact ht.push_of_le (Nat.le_refl _) id
      | spent pod hpod => exact ht.push_of_le (by simp [issue_length]) id
      | found pod secret hpod hname hsecret => exact ht.push_of_le (Nat.le_refl _) id
      | stored pod hpod hname hnone haccepts => exact ht.push_stored hnone rfl rfl

theorem step_once {event : Event} (ht : Once t) (hok : UpToDate accepts t event)
    (h : t.step accepts event = some u) : Once u := by
  cases event with
  | act a =>
      obtain ⟨c', hc', hu⟩ := Option.map_eq_some_iff.mp h
      exact hu ▸ ht.push_act hc'
  | remove name =>
      cases h
      exact ht.push_of_le (Nat.le_refl _) lookup_of_erase
  | reconcile name podAge secretAge faults =>
      rcases step_reconcile h with ⟨seenPods, seenSecrets, c', hpods, hsecrets, hu, hnext⟩
      rw [hu]
      cases hnext with
      | idle _ => exact ht.push_of_le (Nat.le_refl _) id
      | spent pod _ => exact ht.push_of_le (by simp [issue_length]) id
      | stored pod happlies =>
          have hnone := hok seenPods seenSecrets pod hpods hsecrets happlies
          exact ht.push_stored hnone rfl rfl

/-! ## A read that is late -/

/-- A key generated later is another key. -/
theorem replaced_of_stored (ht : Once t) {secret : Secret}
    (hsecret : t.now.secrets.lookup pod.secretRef = some secret) :
    Replaced (t.push ((t.now.issue pod).store pod.secretRef (t.now.nextSecret pod))) := by
  intro hchain
  have hkept := (List.isChain_cons_cons.mp hchain).1
  have hsame := hkept _ secret (t.now.nextSecret pod) hsecret (AList.lookup_insert _)
  have hlt := ht.issued hsecret
  rw [← hsame] at hlt
  exact Nat.lt_irrefl _ hlt

theorem step_late {event : Event} (ht : Once t) (hok : ¬ UpToDate accepts t event)
    (h : t.step accepts event = some u) : Replaced u := by
  cases event with
  | act a => exact absurd trivial hok
  | remove name => exact absurd trivial hok
  | reconcile name podAge secretAge faults =>
      simp only [UpToDate, not_forall] at hok
      rcases hok with ⟨seenPods, seenSecrets, pod, hpods, hsecrets, happlies, hstored⟩
      obtain ⟨secret, hsecret⟩ := Option.ne_none_iff_exists'.mp hstored
      rcases step_reconcile h with ⟨seenPods', seenSecrets', c', hpods', hsecrets', hu, hnext⟩
      rw [hpods] at hpods'
      rw [hsecrets] at hsecrets'
      cases hpods'
      cases hsecrets'
      rw [hu]
      cases hnext with
      | idle hnot => exact absurd happlies (hnot pod)
      | spent _ hnot => exact absurd happlies (hnot pod)
      | stored q hq =>
          rw [hq.pod_eq happlies.found]
          exact replaced_of_stored ht hsecret

/-- Reads that are up to date are exactly what keeps the keys, whatever names the
API server accepts. -/
theorem replaced_guards (accepts : String → Bool) :
    Guards (step accepts) (UpToDate accepts) Replaced empty := by
  refine Guards.of_invariant (P := Once) once_empty step_once ?_ ?_
  · intro t ht hreplaced
    exact hreplaced ht.kept
  · intro t event u ht h hok
    exact ⟨u, Reaches.refl u, step_late ht hok h⟩

/-- A second event for the pod comes before the cache has its secret. -/
theorem second_event_replaces :
    ∃ t, execute (step fun _ => true) empty
      [.act (.create "tsymbiote:latest" statefulPod ""), .reconcile ("default", "db-0") 0 0 noFaults,
        .reconcile ("default", "db-0") 0 1 noFaults] = some t ∧ Replaced t := by
  refine ⟨_, rfl, ?_⟩
  intro hchain
  have hkept := (List.isChain_cons_cons.mp hchain).1
  have hsame := hkept ("default", "tsymbiote-inject-db-0") _ _ rfl rfl
  exact absurd hsame (by decide)

end Timeline

end TSymbiote.Operator
