import TSymbiote.Lib.Maps
import Mathlib.Data.PEquiv

/-! # The WebUI client's host map

`Client` keeps a two-way mapping between adapters and hosts in two maps that
are updated one after the other. The maps are mutually inverse when together
they are one partial bijection. The lemmas here say which updates keep that
property, at every point of any sequence of calls from `newClient`, and what
the lookups then return.
-/

namespace TSymbiote.WebUI

/-- `adapters` maps adapters to hosts and `hosts` maps hosts to adapters. -/
structure Client where
  adapters : GoMap String
  hosts : GoMap String
  deriving DecidableEq

def newClient : Client := ⟨∅, ∅⟩

namespace Client

def getAdapter (c : Client) (host : String) : Option String := c.hosts.lookup host

def getHost (c : Client) (adapter : String) : Option String := c.adapters.lookup adapter

def getHosts (c : Client) : List String := c.hosts.keys

/-! The single map operations the calls below consist of. -/

def storeAdapter (c : Client) (adapter host : String) : Client :=
  { c with adapters := c.adapters.insert adapter host }

def storeHost (c : Client) (host adapter : String) : Client :=
  { c with hosts := c.hosts.insert host adapter }

def eraseAdapter (c : Client) (adapter : String) : Client :=
  { c with adapters := c.adapters.erase adapter }

def eraseHost (c : Client) (host : String) : Client :=
  { c with hosts := c.hosts.erase host }

def setKnownHost (c : Client) (host adapter : String) : Client :=
  (c.storeAdapter adapter host).storeHost host adapter

/-- The error, if any, comes second. -/
def deleteAdapter (c : Client) (adapter : String) : Client × Option String :=
  match c.getHost adapter with
  | none => (c, some "could not find host to delete")
  | some host => ((c.eraseAdapter adapter).eraseHost host, none)

/-! ## Lookups after one map operation -/

theorem getHost_storeAdapter (c : Client) (a h b : String) :
    (c.storeAdapter a h).getHost b = if b = a then some h else c.getHost b :=
  lookup_insert_ite c.adapters a b h

theorem getAdapter_storeHost (c : Client) (h a k : String) :
    (c.storeHost h a).getAdapter k = if k = h then some a else c.getAdapter k :=
  lookup_insert_ite c.hosts h k a

theorem getHost_eraseAdapter (c : Client) (a b : String) :
    (c.eraseAdapter a).getHost b = if b = a then none else c.getHost b :=
  lookup_erase_ite c.adapters a b

theorem getAdapter_eraseHost (c : Client) (h k : String) :
    (c.eraseHost h).getAdapter k = if k = h then none else c.getAdapter k :=
  lookup_erase_ite c.hosts h k

@[simp] theorem getAdapter_storeAdapter (c : Client) (a h k : String) :
    (c.storeAdapter a h).getAdapter k = c.getAdapter k := rfl

@[simp] theorem getHost_storeHost (c : Client) (h a b : String) :
    (c.storeHost h a).getHost b = c.getHost b := rfl

@[simp] theorem getAdapter_eraseAdapter (c : Client) (a k : String) :
    (c.eraseAdapter a).getAdapter k = c.getAdapter k := rfl

@[simp] theorem getHost_eraseHost (c : Client) (h b : String) :
    (c.eraseHost h).getHost b = c.getHost b := rfl

theorem mem_getHosts (c : Client) (h : String) :
    h ∈ c.getHosts ↔ ∃ a, c.getAdapter h = some a := by
  rw [getHosts, ← AList.mem_keys, ← AList.lookup_isSome, Option.isSome_iff_exists]
  rfl

/-! ## Lookups after a call -/

theorem getHost_setKnownHost (c : Client) (h a b : String) :
    (c.setKnownHost h a).getHost b = if b = a then some h else c.getHost b := by
  rw [setKnownHost, getHost_storeHost, getHost_storeAdapter]

theorem getAdapter_setKnownHost (c : Client) (h a k : String) :
    (c.setKnownHost h a).getAdapter k = if k = h then some a else c.getAdapter k := by
  rw [setKnownHost, getAdapter_storeHost, getAdapter_storeAdapter]

theorem deleteAdapter_unknown {c : Client} {a : String} (h : c.getHost a = none) :
    (c.deleteAdapter a).1 = c := by
  rw [deleteAdapter, h]

theorem getHost_deleteAdapter (c : Client) (a b : String) :
    (c.deleteAdapter a).1.getHost b = if b = a then none else c.getHost b := by
  cases ha : c.getHost a with
  | none =>
      rw [deleteAdapter_unknown ha]
      split
      · next hb => rw [hb, ha]
      · rfl
  | some host =>
      simp only [deleteAdapter, ha]
      rw [getHost_eraseHost, getHost_eraseAdapter]

theorem getAdapter_deleteAdapter (c : Client) (a k : String) :
    (c.deleteAdapter a).1.getAdapter k = if c.getHost a = some k then none else c.getAdapter k := by
  cases ha : c.getHost a with
  | none =>
      rw [deleteAdapter_unknown ha, if_neg (by simp)]
  | some host =>
      simp only [deleteAdapter, ha, Option.some.injEq]
      rw [getAdapter_eraseHost, getAdapter_eraseAdapter]
      simp only [eq_comm]

/-! ## One partial bijection -/

/-- The two maps are each other's inverse. -/
def Inverse (c : Client) : Prop := ∀ a h, c.getHost a = some h ↔ c.getAdapter h = some a

/-- The bijection between adapters and hosts that mutually inverse maps are. -/
def toPEquiv (c : Client) (hc : c.Inverse) : String ≃. String where
  toFun := c.getHost
  invFun := c.getAdapter
  inv a h := (hc a h).symm

/-- Two adapters recorded for one host are the same. -/
theorem Inverse.injective {c : Client} (hc : c.Inverse) {a b h : String}
    (ha : c.getHost a = some h) (hb : c.getHost b = some h) : a = b :=
  (c.toPEquiv hc).inj ha hb

theorem inverse_newClient : newClient.Inverse := fun _ _ => by
  simp [newClient, getHost, getAdapter]

/-- What callers rely on: the maps agree, removing one adapter spares the hosts
of all others, and a host is listed exactly while some adapter maps to it. -/
structure TwoWay (c : Client) : Prop where
  inverse : c.Inverse
  spares : ∀ a b h, c.getAdapter h = some b → b ≠ a →
    (c.deleteAdapter a).1.getAdapter h = some b
  listed : ∀ h, h ∈ c.getHosts ↔ ∃ a, c.getHost a = some h

theorem Inverse.twoWay {c : Client} (hc : c.Inverse) : c.TwoWay where
  inverse := hc
  spares a b h hb hne := by
    rw [getAdapter_deleteAdapter, if_neg, hb]
    intro ha
    exact hne (hc.injective ((hc b h).mpr hb) ha)
  listed h := by
    rw [mem_getHosts]
    exact exists_congr fun a => (hc a h).symm

theorem twoWay_iff (c : Client) : c.TwoWay ↔ c.Inverse := ⟨TwoWay.inverse, Inverse.twoWay⟩

/-! ## Which calls keep the maps inverse -/

inductive Call where
  | setKnownHost (host adapter : String)
  | deleteAdapter (adapter : String)
  deriving DecidableEq, Repr

def apply (c : Client) : Call → Client
  | .setKnownHost host adapter => c.setKnownHost host adapter
  | .deleteAdapter adapter => (c.deleteAdapter adapter).1

def run (c : Client) (calls : List Call) : Client := calls.foldl apply c

/-- A new binding moves neither its adapter nor its host away from another. -/
def Fits (c : Client) : Call → Prop
  | .setKnownHost host adapter =>
      (c.getHost adapter = none ∨ c.getHost adapter = some host) ∧
        (c.getAdapter host = none ∨ c.getAdapter host = some adapter)
  | .deleteAdapter _ => True

/-- Every call fits the maps it finds. -/
def AllFit : Client → List Call → Prop
  | _, [] => True
  | c, call :: calls => c.Fits call ∧ AllFit (c.apply call) calls

theorem inverse_deleteAdapter {c : Client} (hc : c.Inverse) (a : String) :
    (c.deleteAdapter a).1.Inverse := by
  intro b h
  rw [getHost_deleteAdapter, getAdapter_deleteAdapter]
  by_cases hb : b = a
  · subst hb
    rw [if_pos rfl]
    by_cases hbh : c.getHost b = some h
    · simp [hbh]
    · rw [if_neg hbh]
      exact ⟨fun hn => (nomatch hn), fun hn => absurd ((hc b h).mpr hn) hbh⟩
  · rw [if_neg hb]
    by_cases hah : c.getHost a = some h
    · rw [if_pos hah]
      exact ⟨fun hbh => absurd (hc.injective hbh hah) hb, fun hn => nomatch hn⟩
    · rw [if_neg hah]
      exact hc b h

theorem inverse_setKnownHost {c : Client} (hc : c.Inverse) {h a : String}
    (hfits : c.Fits (.setKnownHost h a)) : (c.setKnownHost h a).Inverse := by
  rcases hfits with ⟨ha, hh⟩
  intro b k
  rw [getHost_setKnownHost, getAdapter_setKnownHost]
  by_cases hb : b = a <;> by_cases hk : k = h
  · simp [hb, hk]
  · subst hb
    rw [if_pos rfl, if_neg hk, ← hc]
    have hne : ¬ h = k := fun heq => hk heq.symm
    rcases ha with ha | ha <;> simp [ha, hne]
  · subst hk
    rw [if_pos rfl, if_neg hb, hc]
    have hne : ¬ a = b := fun heq => hb heq.symm
    rcases hh with hh | hh <;> simp [hh, hne]
  · rw [if_neg hb, if_neg hk]
    exact hc b k

/-- A binding that moves an adapter or a host leaves a stale entry behind. -/
theorem fits_of_inverse {c : Client} (hc : c.Inverse) {h a : String}
    (hset : (c.setKnownHost h a).Inverse) : c.Fits (.setKnownHost h a) := by
  constructor
  · cases ha : c.getHost a with
    | none => exact .inl rfl
    | some k =>
        right
        by_contra hne
        have hk : k ≠ h := fun heq => hne (by rw [heq])
        have hstale := hset a k
        rw [getHost_setKnownHost, getAdapter_setKnownHost, if_pos rfl, if_neg hk] at hstale
        exact hk (Option.some.inj (hstale.mpr ((hc a k).mp ha))).symm
  · cases hh : c.getAdapter h with
    | none => exact .inl rfl
    | some b =>
        right
        by_contra hne
        have hb : b ≠ a := fun heq => hne (by rw [heq])
        have hstale := hset b h
        rw [getHost_setKnownHost, getAdapter_setKnownHost, if_neg hb, if_pos rfl] at hstale
        exact hb (Option.some.inj (hstale.mp ((hc b h).mpr hh))).symm

theorem inverse_apply_iff {c : Client} (hc : c.Inverse) (call : Call) :
    (c.apply call).Inverse ↔ c.Fits call := by
  cases call with
  | setKnownHost h a => exact ⟨fits_of_inverse hc, inverse_setKnownHost hc⟩
  | deleteAdapter a => exact ⟨fun _ => trivial, fun _ => inverse_deleteAdapter hc a⟩

/-- The maps are inverse after every prefix exactly when every call fits. -/
theorem inverse_prefixes_iff {c : Client} (hc : c.Inverse) (calls : List Call) :
    (∀ pre, pre <+: calls → (c.run pre).Inverse) ↔ c.AllFit calls := by
  induction calls generalizing c with
  | nil =>
      refine ⟨fun _ => trivial, fun _ pre hpre => ?_⟩
      rw [List.prefix_nil.mp hpre]
      exact hc
  | cons call calls ih =>
      constructor
      · intro h
        have hcall : (c.apply call).Inverse := h [call] (by simp)
        refine ⟨(inverse_apply_iff hc call).mp hcall, (ih hcall).mp fun pre hpre => ?_⟩
        exact h (call :: pre) ((List.prefix_cons_inj call).mpr hpre)
      · intro hall pre hpre
        rcases hall with ⟨hfits, hrest⟩
        have hcall := (inverse_apply_iff hc call).mpr hfits
        cases pre with
        | nil => exact hc
        | cons op pre =>
            obtain ⟨rfl, htail⟩ := List.cons_prefix_cons.mp hpre
            exact (ih hcall).mpr hrest pre htail

/-- From `newClient`, the two maps stay a two-way mapping through a sequence of
calls exactly when no `SetKnownHost` moves a bound adapter or a bound host. -/
theorem twoWay_prefixes_iff (calls : List Call) :
    (∀ pre, pre <+: calls → (newClient.run pre).TwoWay) ↔ newClient.AllFit calls := by
  simp only [twoWay_iff]
  exact inverse_prefixes_iff inverse_newClient calls

/-- A host that reappears under a second adapter keeps its first adapter's
entry, and removing that stale adapter takes the host from the second. -/
theorem rebound_host_not_twoWay :
    ¬ ∀ calls pre, pre <+: calls → (newClient.run pre).TwoWay := by
  intro h
  have hc := h [.setKnownHost "node" "ts-a", .setKnownHost "node" "ts-b"] _ List.prefix_rfl
  have hkept := hc.spares "ts-a" "ts-b" "node" (by decide) (by decide)
  exact absurd hkept (by decide)

end Client

end TSymbiote.WebUI
