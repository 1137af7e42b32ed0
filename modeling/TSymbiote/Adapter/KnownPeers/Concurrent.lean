import TSymbiote.Lib.FanOut.Schedule
import TSymbiote.Lib.Pool
import TSymbiote.Adapter.KnownPeers
import TSymbiote.Adapter.Ping

/-! # Requests that share the known peers

`Status` stores the peers it sees, each in two maps, and `Ping` looks its target up;
requests for both are served at once. A goroutine is stopped by a nil peer, but not the
process: `net/http` recovers the panic of a handler.
-/

namespace TSymbiote.Adapter.KnownPeers

open Transition FanOut Pool

variable {Addr : Type} [DecidableEq Addr]

/-! The two map operations of `StorePeer`. -/

def storeIP (k : KnownPeers Addr) (peer : String) (ip : Addr) : KnownPeers Addr :=
  { k with peers := k.peers.insert peer ip }

def storeName (k : KnownPeers Addr) (ip : Addr) (peer : String) : KnownPeers Addr :=
  { k with ips := k.ips.insert ip peer }

/-- `StorePeers` as a sequence of map operations. -/
def storePeersBody : List (Option (PeerStatus Addr)) → Go (KnownPeers Addr) Unit
  | [] => .ret
  | none :: _ => .ret
  | some peer :: peers =>
      match peer.tailscaleIPs with
      | [] => storePeersBody peers
      | ip :: _ =>
          .store (·.storeIP peer.hostName ip) (.store (·.storeName ip peer.hostName) (storePeersBody peers))

/-- The names and IPs it stores, in order. -/
def storedPairs : List (Option (PeerStatus Addr)) → List (String × Addr)
  | [] => []
  | none :: _ => []
  | some peer :: peers =>
      match peer.tailscaleIPs with
      | [] => storedPairs peers
      | ip :: _ => (peer.hostName, ip) :: storedPairs peers

/-- The adapter after requests for its status, each with its peers as visited. -/
def serve (ls : List (Pool.Label (List (Option (PeerStatus Addr))))) :
    Option (Pool.State (KnownPeers Addr) Unit) :=
  execute (Pool.step storePeersBody) (Pool.start {}) ls

/-- One of the statuses has a peer with this name and this first IP, visited before any nil one. -/
def Given (statuses : List (List (Option (PeerStatus Addr)))) (h : String) (ip : Addr) : Prop :=
  ∃ order ∈ statuses, (h, ip) ∈ storedPairs order

/-- What is in the maps was in a status. -/
structure FromStatus (statuses : List (List (Option (PeerStatus Addr)))) (k : KnownPeers Addr) :
    Prop where
  ip : ∀ h ip, k.getIPByPeer h = some ip → Given statuses h ip
  name : ∀ ip h, k.getPeerByIP ip = some h → Given statuses h ip

/-- Nothing that is known is forgotten. -/
structure Grows (k k' : KnownPeers Addr) : Prop where
  ip : ∀ h, (∃ ip, k.getIPByPeer h = some ip) → ∃ ip, k'.getIPByPeer h = some ip
  name : ∀ ip, (∃ h, k.getPeerByIP ip = some h) → ∃ h, k'.getPeerByIP ip = some h

section Operations

variable {k : KnownPeers Addr} {statuses : List (List (Option (PeerStatus Addr)))} {h : String} {ip : Addr}

theorem getIPByPeer_storeIP (k : KnownPeers Addr) (peer h : String) (ip : Addr) :
    (k.storeIP peer ip).getIPByPeer h = if h = peer then some ip else k.getIPByPeer h :=
  lookup_insert_ite k.peers peer h ip

theorem getPeerByIP_storeName (k : KnownPeers Addr) (peer : String) (ip ip' : Addr) :
    (k.storeName ip peer).getPeerByIP ip' = if ip' = ip then some peer else k.getPeerByIP ip' :=
  lookup_insert_ite k.ips ip ip' peer

theorem fromStatus_empty : FromStatus statuses ({} : KnownPeers Addr) :=
  ⟨fun _ _ h => by contradiction, fun _ _ h => by contradiction⟩

theorem fromStatus_storeIP (hk : FromStatus statuses k) (hgiven : Given statuses h ip) :
    FromStatus statuses (k.storeIP h ip) where
  ip h' ip' hip := by
    rw [getIPByPeer_storeIP] at hip
    split at hip
    · next heq =>
        cases hip
        rw [heq]
        exact hgiven
    · exact hk.ip h' ip' hip
  name := hk.name

theorem fromStatus_storeName (hk : FromStatus statuses k) (hgiven : Given statuses h ip) :
    FromStatus statuses (k.storeName ip h) where
  ip := hk.ip
  name ip' h' hh := by
    rw [getPeerByIP_storeName] at hh
    split at hh
    · next heq =>
        cases hh
        rw [heq]
        exact hgiven
    · exact hk.name ip' h' hh

theorem grows_storeIP (k : KnownPeers Addr) (h : String) (ip : Addr) : Grows k (k.storeIP h ip) where
  ip h' hknown := by
    rw [getIPByPeer_storeIP]
    by_cases heq : h' = h
    · exact ⟨ip, if_pos heq⟩
    · rw [if_neg heq]
      exact hknown
  name _ hknown := hknown

theorem grows_storeName (k : KnownPeers Addr) (ip : Addr) (h : String) : Grows k (k.storeName ip h) where
  ip _ hknown := hknown
  name ip' hknown := by
    rw [getPeerByIP_storeName]
    by_cases heq : ip' = ip
    · exact ⟨h, if_pos heq⟩
    · rw [if_neg heq]
      exact hknown

end Operations

/-! ## The goroutine of one status -/

/-- The stores of these pairs one after the other. -/
def storeAll : List (String × Addr) → Go (KnownPeers Addr) Unit
  | [] => .ret
  | (h, ip) :: pairs => .store (·.storeIP h ip) (.store (·.storeName ip h) (storeAll pairs))

theorem storePeersBody_eq (order : List (Option (PeerStatus Addr))) :
    storePeersBody order = storeAll (storedPairs order) := by
  induction order with
  | nil => rfl
  | cons peer peers ih =>
      cases peer with
      | none => rfl
      | some peer =>
          cases hips : peer.tailscaleIPs with
          | nil => simp only [storePeersBody, storedPairs, hips, ih]
          | cons ip rest => simp only [storePeersBody, storedPairs, hips, storeAll, ih]

theorem storePeers_eq (order : List (Option (PeerStatus Addr))) (k : KnownPeers Addr) :
    k.storePeers order = (storedPairs order).foldl (fun k e => k.storePeer e.1 e.2) k := by
  induction order generalizing k with
  | nil => rfl
  | cons peer peers ih =>
      cases peer with
      | none => rfl
      | some peer =>
          cases hips : peer.tailscaleIPs with
          | nil => simp only [storePeers, storedPairs, hips, ih]
          | cons ip rest => simp only [storePeers, storedPairs, hips, List.foldl_cons, ih]

/-- Alone, the goroutine stores what the sequential function stores. -/
theorem settle_storePeersBody (order : List (Option (PeerStatus Addr))) (k : KnownPeers Addr) :
    (storePeersBody order).settle k = (.ret, k.storePeers order) := by
  rw [storePeersBody_eq, storePeers_eq]
  induction storedPairs order generalizing k with
  | nil => rfl
  | cons e pairs ih => exact ih (k.storePeer e.1 e.2)

theorem storeAll_guarantees {statuses : List (List (Option (PeerStatus Addr)))} {pairs : List (String × Addr)}
    (hgiven : ∀ e ∈ pairs, Given statuses e.1 e.2) :
    (storeAll pairs).Guarantees (FromStatus statuses) Grows := by
  induction pairs with
  | nil => trivial
  | cons e pairs ih =>
      have he := hgiven e List.mem_cons_self
      refine ⟨fun k hk => ⟨fromStatus_storeIP hk he, grows_storeIP k e.1 e.2⟩,
        fun k hk => ⟨fromStatus_storeName hk he, grows_storeName k e.2 e.1⟩, ?_⟩
      exact ih fun e' he' => hgiven e' (List.mem_cons_of_mem _ he')

theorem storeAll_brings {I : KnownPeers Addr → Prop} {pairs : List (String × Addr)} {h : String} {ip : Addr}
    (hmem : (h, ip) ∈ pairs) :
    (storeAll pairs).Brings I (fun k => ∃ ip, k.getIPByPeer h = some ip) ∧
      (storeAll pairs).Brings I (fun k => ∃ h, k.getPeerByIP ip = some h) := by
  induction pairs with
  | nil => contradiction
  | cons e pairs ih =>
      rcases List.mem_cons.mp hmem with rfl | hrest
      · refine ⟨.inl fun k _ => ⟨ip, ?_⟩, .inr (.inl fun k _ => ⟨h, ?_⟩)⟩
        · simp only [getIPByPeer_storeIP, if_true]
        · simp only [getPeerByIP_storeName, if_true]
      · obtain ⟨hip, hname⟩ := ih hrest
        exact ⟨.inr (.inr hip), .inr (.inr hname)⟩

/-! ## Every run -/

section Runs

variable {ls : List (Pool.Label (List (Option (PeerStatus Addr))))} {s : Pool.State (KnownPeers Addr) Unit}

theorem launched_guarantees {statuses : List (List (Option (PeerStatus Addr)))} :
    ∀ order ∈ statuses, (storePeersBody order).Guarantees (FromStatus statuses) Grows := by
  intro order horder
  rw [storePeersBody_eq]
  exact storeAll_guarantees fun e he => ⟨order, horder, he⟩

theorem start_fromStatus (statuses : List (List (Option (PeerStatus Addr)))) :
    Guaranteed (FromStatus statuses) Grows (Pool.start {} : Pool.State (KnownPeers Addr) Unit) :=
  start_guaranteed fromStatus_empty

theorem serve_fromStatus (hrun : serve ls = some s) : FromStatus (launched ls) s.shared :=
  (execute_guaranteed launched_guarantees (start_fromStatus _) hrun).1.1

/-- However many statuses are stored at once, a name only ever resolves to an IP, and an IP to
a name, that some status had for it; so a ping does not reach any other machine. -/
theorem lookups_given (hrun : serve ls = some s) :
    FromStatus (launched ls) s.shared ∧
      ∀ (parseDuration : String → Option Int) (text : Addr → String)
        (hostPing hostPing' : String → String → Nat → Except String Shared.Value) (input : Server.PingInput),
        (∀ ip, Given (launched ls) input.target ip → hostPing (text ip) = hostPing' (text ip)) →
          Server.ping parseDuration (fun h => (s.shared.getIPByPeer h).map text) hostPing (.ok input) =
            Server.ping parseDuration (fun h => (s.shared.getIPByPeer h).map text) hostPing' (.ok input) := by
  have hstatus := serve_fromStatus hrun
  refine ⟨hstatus, fun parseDuration text hostPing hostPing' input hsame => ?_⟩
  cases hdelay : parseDuration input.delay with
  | none => simp only [Server.ping, hdelay]
  | some delay =>
      cases hip : s.shared.getIPByPeer input.target with
      | none => simp only [Server.ping, hdelay, hip, Option.map_none]
      | some ip =>
          have hping := hsame ip (hstatus.ip _ _ hip)
          simp only [Server.ping, hdelay, hip, Option.map_some, hping]

/-- The peers of the second status are stored around those of the first. -/
def twoStatuses : List (Pool.Label (List (Option (PeerStatus String)))) :=
  [.launch [some { hostName := "db", tailscaleIPs := ["100.64.0.1"] }],
    .launch [some { hostName := "web", tailscaleIPs := ["100.64.0.2"] },
      some { hostName := "db", tailscaleIPs := ["100.64.0.1"] }, none],
    .work 1, .work 0, .work 1, .work 1, .work 0, .work 1]

theorem lookups_given_two : ∃ s, serve twoStatuses = some s ∧
    s.shared.getIPByPeer "db" = some "100.64.0.1" ∧ FromStatus (launched twoStatuses) s.shared :=
  ⟨_, rfl, rfl, (lookups_given rfl).1⟩

theorem known_given (hrun : serve ls = some s) (hr : Returned s) {h : String} {ip : Addr}
    (hgiven : Given (launched ls) h ip) :
    (∃ ip, s.shared.getIPByPeer h = some ip) ∧ ∃ h, s.shared.getPeerByIP ip = some h := by
  obtain ⟨order, horder, hmem⟩ := hgiven
  have hbrings := @storeAll_brings Addr _ (FromStatus (launched ls)) _ _ _ hmem
  rw [← storePeersBody_eq] at hbrings
  constructor
  · exact execute_brings (fun _ _ hgrows hknown => hgrows.ip h hknown) launched_guarantees
      (start_fromStatus _) horder hbrings.1 hrun hr
  · exact execute_brings (fun _ _ hgrows hknown => hgrows.name ip hknown) launched_guarantees
      (start_fromStatus _) horder hbrings.2 hrun hr

theorem Grows.refl (k : KnownPeers Addr) : Grows k k := ⟨fun _ h => h, fun _ h => h⟩

theorem Grows.trans {k k' k'' : KnownPeers Addr} (h : Grows k k') (h' : Grows k' k'') : Grows k k'' :=
  ⟨fun n hn => h'.ip n (h.ip n hn), fun i hi => h'.name i (h.name i hi)⟩

/-- No update is lost: what was known stays known, and once all requests have returned, known
is exactly what the statuses had. Where they agree, the two maps are each other's inverse. -/
theorem peers_settle (hrun : serve ls = some s) :
    (∀ ls₁ ls₂ s₁, ls = ls₁ ++ ls₂ → serve ls₁ = some s₁ → Grows s₁.shared s.shared) ∧
      (Returned s →
        (∀ h, (∃ ip, s.shared.getIPByPeer h = some ip) ↔ ∃ ip, Given (launched ls) h ip) ∧
          (∀ ip, (∃ h, s.shared.getPeerByIP ip = some h) ↔ ∃ h, Given (launched ls) h ip) ∧
            ∀ h ip, (∀ h' ip', Given (launched ls) h' ip' → (h' = h ↔ ip' = ip)) →
              (s.shared.getIPByPeer h = some ip ↔ Given (launched ls) h ip) ∧
                (s.shared.getPeerByIP ip = some h ↔ Given (launched ls) h ip)) := by
  have hstatus := serve_fromStatus hrun
  refine ⟨fun ls₁ ls₂ s₁ hsplit hbefore => ?_, fun hr => ⟨fun h => ⟨?_, ?_⟩, fun ip => ⟨?_, ?_⟩, ?_⟩⟩
  · subst hsplit
    have hsince := execute_since launched_guarantees (start_fromStatus _) hbefore hrun
    exact kept_of_reflTransGen (fun _ _ hgrows hbefore => hbefore.trans hgrows) (Grows.refl _) hsince
  · rintro ⟨ip, hip⟩
    exact ⟨ip, hstatus.ip h ip hip⟩
  · rintro ⟨ip, hgiven⟩
    exact (known_given hrun hr hgiven).1
  · rintro ⟨h, hh⟩
    exact ⟨h, hstatus.name ip h hh⟩
  · rintro ⟨h, hgiven⟩
    exact (known_given hrun hr hgiven).2
  · intro h ip hagree
    refine ⟨⟨hstatus.ip h ip, fun hgiven => ?_⟩, ⟨hstatus.name ip h, fun hgiven => ?_⟩⟩
    · obtain ⟨ip', hip'⟩ := (known_given hrun hr hgiven).1
      rw [hip', (hagree h ip' (hstatus.ip h ip' hip')).mp rfl]
    · obtain ⟨h', hh'⟩ := (known_given hrun hr hgiven).2
      rw [hh', (hagree h' ip (hstatus.name ip h' hh')).mpr rfl]

theorem peers_settle_two : ∃ s, serve twoStatuses = some s ∧
    ∃ h, s.shared.getPeerByIP "100.64.0.2" = some h := by
  have hreturned : ∃ s, serve twoStatuses = some s ∧ s.tasks = [.ret, .ret] := ⟨_, rfl, rfl⟩
  obtain ⟨s, hrun, htasks⟩ := hreturned
  have hr : Returned s := by
    intro w hw
    rw [htasks] at hw
    simpa using hw
  have hgiven : Given (launched twoStatuses) "web" "100.64.0.2" :=
    ⟨_, List.mem_cons_of_mem _ List.mem_cons_self, List.mem_cons_self⟩
  exact ⟨s, hrun, (((peers_settle hrun).2 hr).2.1 _).mpr ⟨"web", hgiven⟩⟩

end Runs

end TSymbiote.Adapter.KnownPeers
