import TSymbiote.Lib.Pool
import TSymbiote.WebUI.CallHost
import TSymbiote.WebUI.PeerMap.Hosts

/-! # Routes while peer maps are refreshed

The page asks for the peer map again and again, and many pages do. The goroutines of
all these requests update one pair of maps in any order, and the calls for single hosts
look their adapter up between the updates.
-/

namespace TSymbiote.WebUI

open Shared Transition FanOut Pool

/-- The server after goroutines of any number of requests have come and gone. -/
def serve (ls : List (Pool.Label AdapterCall)) : Option (Pool.State Client PeerMapResult) :=
  execute (Pool.step peerMapWorker) (Pool.start newClient) ls

/-- The adapter `a` has answered one of the calls for host `h`. -/
def Reported (calls : List AdapterCall) (h a : String) : Prop :=
  ∃ call ∈ calls, call.selfHost = some h ∧ call.adapter = a

/-- No other adapter answers for the host, and no call of this one fails. -/
structure Owns (calls : List AdapterCall) (h a : String) : Prop where
  sole : ∀ b, Reported calls h b → b = a
  answers : ∀ call ∈ calls, call.adapter = a → ¬ call.Failed

/-- Every entry of the maps is from an answer. -/
structure Routed (calls : List AdapterCall) (c : Client) : Prop where
  adapter : ∀ h a, c.getAdapter h = some a → Reported calls h a
  host : ∀ a h, c.getHost a = some h → Reported calls h a

/-- A host that is routed to its owner stays so. -/
def KeepsOwners (calls : List AdapterCall) (c c' : Client) : Prop :=
  ∀ h a, Owns calls h a → c.getAdapter h = some a → c'.getAdapter h = some a

section Operations

variable {calls : List AdapterCall} {c : Client} {h a : String} {next : Go Client PeerMapResult}

theorem routed_newClient : Routed calls newClient :=
  ⟨fun _ _ h => by contradiction, fun _ _ h => by contradiction⟩

theorem routed_storeAdapter (hc : Routed calls c) (hreport : Reported calls h a) :
    Routed calls (c.storeAdapter a h) where
  adapter := hc.adapter
  host b k hb := by
    rw [Client.getHost_storeAdapter] at hb
    split at hb
    · next hba =>
        cases hb
        rw [hba]
        exact hreport
    · exact hc.host b k hb

theorem routed_storeHost (hc : Routed calls c) (hreport : Reported calls h a) :
    Routed calls (c.storeHost h a) where
  adapter k b hb := by
    rw [Client.getAdapter_storeHost] at hb
    split at hb
    · next hkh =>
        cases hb
        rw [hkh]
        exact hreport
    · exact hc.adapter k b hb
  host := hc.host

theorem routed_eraseAdapter (hc : Routed calls c) : Routed calls (c.eraseAdapter a) where
  adapter := hc.adapter
  host b k hb := by
    rw [Client.getHost_eraseAdapter] at hb
    split at hb
    · contradiction
    · exact hc.host b k hb

theorem routed_eraseHost (hc : Routed calls c) : Routed calls (c.eraseHost h) where
  adapter k b hb := by
    rw [Client.getAdapter_eraseHost] at hb
    split at hb
    · contradiction
    · exact hc.adapter k b hb
  host := hc.host

theorem keepsOwners_storeHost (hreport : Reported calls h a) :
    KeepsOwners calls c (c.storeHost h a) := by
  intro k b howns hb
  rw [Client.getAdapter_storeHost]
  by_cases hkh : k = h
  · subst hkh
    rw [if_pos rfl, howns.sole a hreport]
  · rw [if_neg hkh, hb]

theorem keepsOwners_eraseHost (hlost : ∀ b, ¬ Owns calls h b) : KeepsOwners calls c (c.eraseHost h) := by
  intro k b howns hb
  have hkh : k ≠ h := fun heq => hlost b (heq ▸ howns)
  rw [Client.getAdapter_eraseHost, if_neg hkh, hb]

/-- The host of an adapter that fails has no owner. -/
theorem Routed.lost {call : AdapterCall} (hc : Routed calls c) (hcall : call ∈ calls)
    (hf : call.Failed) (hh : c.getHost call.adapter = some h) (b : String) : ¬ Owns calls h b := by
  intro howns
  have heq := howns.sole _ (hc.host _ _ hh)
  exact howns.answers call hcall heq hf

theorem setKnownHostThen_guarantees (hreport : Reported calls h a)
    (hnext : next.Guarantees (Routed calls) (KeepsOwners calls)) :
    (setKnownHostThen h a next).Guarantees (Routed calls) (KeepsOwners calls) := by
  refine ⟨fun c hc => ⟨routed_storeAdapter hc hreport, fun _ _ _ hb => hb⟩,
    fun c hc => ⟨routed_storeHost hc hreport, keepsOwners_storeHost hreport⟩, hnext⟩

/-- The host is looked up before it is erased, and no owner is lost in between. -/
theorem deleteAdapterThen_guarantees {call : AdapterCall} (hcall : call ∈ calls) (hf : call.Failed)
    (hnext : next.Guarantees (Routed calls) (KeepsOwners calls)) :
    (deleteAdapterThen call.adapter next).Guarantees (Routed calls) (KeepsOwners calls) := by
  intro c hc
  cases hh : c.getHost call.adapter with
  | none => simpa only [hh] using hnext
  | some host =>
      simp only [hh]
      refine ⟨fun c' hc' => ⟨routed_eraseAdapter hc', fun _ _ _ hb => hb⟩,
        fun c' hc' => ⟨routed_eraseHost hc', keepsOwners_eraseHost fun b => ?_⟩, hnext⟩
      exact hc.lost hcall hf hh b

end Operations

/-! ## The goroutine of one call -/

/-- What is left of a goroutine once it has registered its host. -/
theorem peerMapWorker_cases (call : AdapterCall) :
    (∃ r, call.Failed ∧ peerMapWorker call = deleteAdapterThen call.adapter (.send r .ret)) ∨
      (call.selfHost = none ∧ (peerMapWorker call = .panic ∨ ∃ r, peerMapWorker call = .send r .ret)) ∨
        ∃ host next, call.selfHost = some host ∧ (next = .panic ∨ ∃ r, next = .send r .ret) ∧
          peerMapWorker call = setKnownHostThen host call.adapter next := by
  cases ha : call.answer with
  | error err => exact .inl ⟨{ error := err }, ⟨err, ha⟩, by simp [peerMapWorker, ha, AdapterCall.adapter]⟩
  | ok body =>
      right
      cases hd : decodeObject body with
      | error err =>
          refine .inl ⟨?_, .inr ⟨{ error := err }, by simp [peerMapWorker, ha, hd]⟩⟩
          simp [AdapterCall.selfHost, AdapterCall.status, ha, hd, Except.toOption]
      | ok status =>
          have hself : call.selfHost = hostName (Json.get status "Self") := by
            simp [AdapterCall.selfHost, AdapterCall.status, ha, hd, Except.toOption]
          cases hs : hostName (Json.get status "Self") with
          | none => exact .inl ⟨hself.trans hs, .inl (by simp [peerMapWorker, ha, hd, hs])⟩
          | some host =>
              refine .inr ⟨host, _, hself.trans hs, ?_, by simp only [peerMapWorker, ha, hd, hs]; rfl⟩
              cases hp : (Json.get status "Peer").asMap with
              | none => exact .inl rfl
              | some peers =>
                  cases hc : collectPeers host (call.order.visit peers) {} with
                  | none => exact .inl (by simp [hc])
                  | some r => exact .inr ⟨r, by simp [hc]⟩

theorem peerMapWorker_guarantees {calls : List AdapterCall} {call : AdapterCall}
    (hcall : call ∈ calls) : (peerMapWorker call).Guarantees (Routed calls) (KeepsOwners calls) := by
  rcases peerMapWorker_cases call with ⟨r, hf, hw⟩ | ⟨_, hw | ⟨r, hw⟩⟩ | ⟨host, next, hself, hnext, hw⟩
  · rw [hw]
    exact deleteAdapterThen_guarantees hcall hf trivial
  · rw [hw]
    exact trivial
  · rw [hw]
    exact trivial
  · rw [hw]
    refine setKnownHostThen_guarantees ⟨call, hcall, hself, rfl⟩ ?_
    rcases hnext with rfl | ⟨r, rfl⟩
    · exact trivial
    · exact trivial

/-- A call that reports a host routes it, unless the process ends first. -/
theorem peerMapWorker_brings {calls : List AdapterCall} {call : AdapterCall} {h : String}
    (hself : call.selfHost = some h) :
    (peerMapWorker call).Brings (Routed calls) (fun c => c.getAdapter h = some call.adapter) := by
  rcases peerMapWorker_cases call with ⟨r, hf, hw⟩ | ⟨hnone, _⟩ | ⟨host, next, hhost, _, hw⟩
  · rw [selfHost_failed hf] at hself
    contradiction
  · rw [hnone] at hself
    contradiction
  · rw [hhost] at hself
    cases hself
    rw [hw]
    refine .inr (.inl fun c _ => ?_)
    simp only [Client.getAdapter_storeHost, if_true]

/-! ## Every run -/

section Runs

variable {ls : List (Pool.Label AdapterCall)} {s : Pool.State Client PeerMapResult} {h a : String}

theorem start_routed (calls : List AdapterCall) :
    Guaranteed (Routed calls) (KeepsOwners calls) (Pool.start newClient : Pool.State Client PeerMapResult) :=
  start_guaranteed routed_newClient

theorem serve_routed (hrun : serve ls = some s) : Routed (launched ls) s.shared :=
  (execute_guaranteed (fun _ hcall => peerMapWorker_guarantees hcall) (start_routed _) hrun).1.1

/-- However many requests overlap, a call for a host only ever goes to an adapter that has
answered for this host, an adapter is only known by a host it has answered for, and no other
host is listed: what is on the other adapters makes no difference to the answer. -/
theorem routes_reported (hrun : serve ls = some s) :
    (∀ h a, s.shared.getAdapter h = some a → Reported (launched ls) h a) ∧
      (∀ a h, s.shared.getHost a = some h → Reported (launched ls) h a) ∧
      (∀ h ∈ s.shared.getHosts, ∃ a, Reported (launched ls) h a) ∧
      ∀ {B : Type} (network network' : String → Except CallError (Response B)) (h : String),
        (∀ a, Reported (launched ls) h a → network a = network' a) →
          callHost s.shared network h = callHost s.shared network' h := by
  have hrouted := serve_routed hrun
  refine ⟨hrouted.adapter, hrouted.host, fun h hh => ?_, fun network network' h hsame => ?_⟩
  · obtain ⟨a, ha⟩ := (Client.mem_getHosts _ h).mp hh
    exact ⟨a, hrouted.adapter h a ha⟩
  · cases ha : s.shared.getAdapter h with
    | none => simp only [callHost, ha]
    | some a => simp only [callHost, ha, hsame a (hrouted.adapter h a ha)]

/-- Two pages ask for the peer map, the second one while the calls of the first still run. -/
def twoPages : List (Pool.Label AdapterCall) :=
  [.launch (nodeAnswers "ts-a"), .launch (adapterFails "ts-b"), .work 0, .work 1,
    .launch (nodeAnswers "ts-a"), .work 2, .work 0, .work 2, .work 0, .work 1, .work 2]

theorem routes_reported_two : ∃ s, serve twoPages = some s ∧ s.shared.getHosts = ["node"] ∧
    (∀ h a, s.shared.getAdapter h = some a → Reported (launched twoPages) h a) ∧
    ∀ a h, s.shared.getHost a = some h → Reported (launched twoPages) h a :=
  ⟨_, rfl, rfl, (routes_reported rfl).1, (routes_reported rfl).2.1⟩

/-- The rest of a run keeps the route of a host with an owner. -/
theorem kept_route {ls₁ ls₂ : List (Pool.Label AdapterCall)} {s₁ : Pool.State Client PeerMapResult}
    (hsplit : ls = ls₁ ++ ls₂) (hrun : serve ls = some s) (hbefore : serve ls₁ = some s₁)
    (howns : Owns (launched ls) h a) (ha : s₁.shared.getAdapter h = some a) :
    s.shared.getAdapter h = some a := by
  subst hsplit
  have hsince := execute_since (fun _ hcall => peerMapWorker_guarantees hcall) (start_routed _)
    hbefore hrun
  have hkeep : ∀ c c', KeepsOwners (launched (ls₁ ++ ls₂)) c c' → c.getAdapter h = some a →
      c'.getAdapter h = some a := fun _ _ hkeeps hroute => hkeeps h a howns hroute
  exact kept_of_reflTransGen hkeep ha hsince

/-- A host that one adapter answers for, all of whose calls come back, is routed to it for
good from the first time on, and at the latest when the goroutines that run have returned. -/
theorem routes_hold (hrun : serve ls = some s) (howns : Owns (launched ls) h a) :
    (∀ ls₁ ls₂ s₁, ls = ls₁ ++ ls₂ → serve ls₁ = some s₁ → s₁.shared.getAdapter h = some a →
        s.shared.getAdapter h = some a) ∧
      (Returned s → Reported (launched ls) h a →
        s.shared.getAdapter h = some a ∧ h ∈ s.shared.getHosts) := by
  refine ⟨fun ls₁ ls₂ s₁ hsplit hbefore ha => kept_route hsplit hrun hbefore howns ha, ?_⟩
  intro hr hreport
  obtain ⟨call, hcall, hself, rfl⟩ := hreport
  have hroute := execute_brings (fun _ _ hkeep hroute => hkeep h call.adapter howns hroute)
    (fun _ hcall => peerMapWorker_guarantees hcall) (start_routed _) hcall
    (peerMapWorker_brings hself) hrun hr
  exact ⟨hroute, (Client.mem_getHosts _ h).mpr ⟨_, hroute⟩⟩

theorem owns_two : Owns (launched twoPages) "node" "ts-a" where
  sole b hb := by
    obtain ⟨call, hcall, hself, rfl⟩ := hb
    rcases List.mem_cons.mp hcall with rfl | hcall
    · rfl
    · rcases List.mem_cons.mp hcall with rfl | hcall
      · contradiction
      · rw [List.mem_singleton.mp hcall]
        rfl
  answers call hcall ha := by
    rintro ⟨err, herr⟩
    rcases List.mem_cons.mp hcall with rfl | hcall
    · contradiction
    · rcases List.mem_cons.mp hcall with rfl | hcall
      · exact absurd ha (by decide)
      · rw [List.mem_singleton.mp hcall] at herr
        contradiction

theorem routes_hold_two : ∃ s, serve twoPages = some s ∧
    s.shared.getAdapter "node" = some "ts-a" ∧ "node" ∈ s.shared.getHosts := by
  have hreturned : ∃ s, serve twoPages = some s ∧ s.tasks = [.ret, .ret, .ret] := ⟨_, rfl, rfl⟩
  obtain ⟨s, hrun, htasks⟩ := hreturned
  refine ⟨s, hrun, (routes_hold hrun owns_two).2 ?_ ?_⟩
  · intro w hw
    rw [htasks] at hw
    simpa using hw
  · exact ⟨nodeAnswers "ts-a", List.mem_cons_self, rfl, rfl⟩

end Runs

end TSymbiote.WebUI
