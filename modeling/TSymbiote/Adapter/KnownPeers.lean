import TSymbiote.Lib.Maps

/-! # The peers an adapter knows

`StorePeers` ranges over a map of peers by node key, in whatever order the
runtime chooses, and stores the first IP of each under its host name, over what
was there. `Ping` resolves its target in these stores.
-/

namespace TSymbiote.Adapter

structure KnownPeers (Addr : Type) [DecidableEq Addr] where
  peers : GoMap Addr := ∅
  ips : AList (fun _ : Addr => String) := ∅

namespace KnownPeers

structure PeerStatus (Addr : Type) where
  hostName : String
  tailscaleIPs : List Addr

variable {Addr : Type} [DecidableEq Addr]

def storePeer (k : KnownPeers Addr) (peer : String) (ip : Addr) : KnownPeers Addr where
  peers := k.peers.insert peer ip
  ips := k.ips.insert ip peer

/-- The loop over the peers, as visited. A nil pointer panics; what is stored by
then stays. -/
def storePeers (k : KnownPeers Addr) : List (Option (PeerStatus Addr)) → KnownPeers Addr
  | [] => k
  | none :: _ => k
  | some peer :: peers =>
      match peer.tailscaleIPs with
      | [] => storePeers k peers
      | ip :: _ => storePeers (k.storePeer peer.hostName ip) peers

def getIPByPeer (k : KnownPeers Addr) (peer : String) : Option Addr := k.peers.lookup peer

def getPeerByIP (k : KnownPeers Addr) (ip : Addr) : Option String := k.ips.lookup ip

/-! ## Sequences of calls -/

/-- The argument of a call of `StorePeers`. -/
abbrev Call (Addr : Type) := GoMap (Option (PeerStatus Addr))

def Call.values (m : Call Addr) : List (Option (PeerStatus Addr)) := m.entries.map (·.2)

/-- The stores after calls that visited their peers in these orders, the latest
call first. -/
def stored : List (List (Option (PeerStatus Addr))) → KnownPeers Addr
  | [] => {}
  | order :: older => (stored older).storePeers order

/-- Some orders of traversal make `GetIPByPeer` answer `a`. -/
def Answers (h : String) (calls : List (Call Addr)) (a : Option Addr) : Prop :=
  ∃ orders, List.Forall₂ (fun order m => order.Perm (Call.values m)) orders calls ∧
    (stored orders).getIPByPeer h = a

/-- Some of these peers is named `h` and has the first IP `ip`. -/
def Gives (peers : List (Option (PeerStatus Addr))) (h : String) (ip : Addr) : Prop :=
  ∃ peer, some peer ∈ peers ∧ peer.hostName = h ∧ peer.tailscaleIPs.head? = some ip

/-- `a` is the IP of the peer named `h` in the latest call that contains one with
an IP. -/
def Latest (h : String) : List (Call Addr) → Option Addr → Prop
  | [], a => a = none
  | m :: older, a =>
      (∃ ip, Gives m.values h ip ∧ a = some ip) ∨ ((∀ ip, ¬ Gives m.values h ip) ∧ Latest h older a)

/-- Every order of traversal gives the answer of the latest call. -/
def Determined (h : String) (calls : List (Call Addr)) : Prop :=
  ∃ a, Latest h calls a ∧ ∀ b, Answers h calls b → b = a

/-- In the latest call with a peer named `h` that has an IP, all of these have
the same; and where that call may panic before it stores them, the calls before
it give this IP already. -/
def Unambiguous (h : String) : List (Call Addr) → Prop
  | [] => True
  | m :: older =>
      (∀ ip ip', Gives m.values h ip → Gives m.values h ip' → ip = ip') ∧
        ((∀ ip, ¬ Gives m.values h ip) ∨ none ∈ m.values → Unambiguous h older) ∧
        (none ∈ m.values → ∀ ip a, Gives m.values h ip → Latest h older a → a = some ip)

/-! ## One call -/

theorem getIPByPeer_storePeer (k : KnownPeers Addr) (peer h : String) (ip : Addr) :
    (k.storePeer peer ip).getIPByPeer h = if h = peer then some ip else k.getIPByPeer h :=
  lookup_insert_ite k.peers peer h ip

omit [DecidableEq Addr] in
theorem gives_cons {peer : Option (PeerStatus Addr)} {peers : List (Option (PeerStatus Addr))}
    {h : String} {ip : Addr} (hgives : Gives peers h ip) : Gives (peer :: peers) h ip := by
  rcases hgives with ⟨p, hp, hname, hip⟩
  exact ⟨p, List.mem_cons_of_mem _ hp, hname, hip⟩

omit [DecidableEq Addr] in
theorem gives_of_cons {peer : PeerStatus Addr} {peers : List (Option (PeerStatus Addr))}
    {h : String} {ip : Addr} (hgives : Gives (some peer :: peers) h ip) :
    (peer.hostName = h ∧ peer.tailscaleIPs.head? = some ip) ∨ Gives peers h ip := by
  rcases hgives with ⟨p, hp, hname, hip⟩
  rcases List.mem_cons.mp hp with heq | hp
  · cases heq
    exact .inl ⟨hname, hip⟩
  · exact .inr ⟨p, hp, hname, hip⟩

omit [DecidableEq Addr] in
theorem gives_perm {peers peers' : List (Option (PeerStatus Addr))} (hperm : peers.Perm peers')
    {h : String} {ip : Addr} : Gives peers h ip ↔ Gives peers' h ip := by
  unfold Gives
  simp only [hperm.mem_iff]

/-- What `GetIPByPeer` may answer after a call with these peers, when it answered
`a` before. -/
def After (peers : List (Option (PeerStatus Addr))) (h : String) (a b : Option Addr) : Prop :=
  (∃ ip, Gives peers h ip ∧ b = some ip) ∨ (b = a ∧ (none ∈ peers ∨ ∀ ip, ¬ Gives peers h ip))

theorem storePeers_after (k : KnownPeers Addr) (peers : List (Option (PeerStatus Addr))) (h : String) :
    After peers h (k.getIPByPeer h) ((k.storePeers peers).getIPByPeer h) := by
  induction peers generalizing k with
  | nil =>
      right
      refine ⟨rfl, .inr ?_⟩
      intro ip hgives
      rcases hgives with ⟨p, hp, _⟩
      cases hp
  | cons peer peers ih =>
      cases peer with
      | none => exact .inr ⟨rfl, .inl List.mem_cons_self⟩
      | some peer =>
          unfold storePeers
          split
          · next hips =>
              rcases ih k with ⟨ip, hgives, hb⟩ | ⟨hb, hrest⟩
              · exact .inl ⟨ip, gives_cons hgives, hb⟩
              · right
                refine ⟨hb, hrest.imp (List.mem_cons_of_mem _) fun hnone ip hgives => ?_⟩
                rcases gives_of_cons hgives with ⟨_, hip⟩ | hgives
                · rw [hips] at hip
                  cases hip
                · exact hnone ip hgives
          · next ip rest hips =>
              have hhead : peer.tailscaleIPs.head? = some ip := by rw [hips, List.head?_cons]
              rcases ih (k.storePeer peer.hostName ip) with ⟨ip', hgives, hb⟩ | ⟨hb, hrest⟩
              · exact .inl ⟨ip', gives_cons hgives, hb⟩
              · rw [getIPByPeer_storePeer] at hb
                split at hb
                · next hname => exact .inl ⟨ip, ⟨peer, List.mem_cons_self, hname.symm, hhead⟩, hb⟩
                · next hname =>
                    right
                    refine ⟨hb, hrest.imp (List.mem_cons_of_mem _) fun hnone ip' hgives => ?_⟩
                    rcases gives_of_cons hgives with ⟨hname', _⟩ | hgives
                    · exact hname hname'.symm
                    · exact hnone ip' hgives

/-- Without nil pointers the loop gets to the end. -/
theorem storePeers_append {peers : List (Option (PeerStatus Addr))} (hnil : none ∉ peers)
    (k : KnownPeers Addr) (later : List (Option (PeerStatus Addr))) :
    k.storePeers (peers ++ later) = (k.storePeers peers).storePeers later := by
  induction peers generalizing k with
  | nil => rfl
  | cons peer peers ih =>
      rw [List.mem_cons, not_or] at hnil
      cases peer with
      | none => exact absurd rfl hnil.1
      | some peer =>
          cases hips : peer.tailscaleIPs with
          | nil =>
              simp only [List.cons_append, storePeers, hips]
              exact ih hnil.2 k
          | cons ip rest =>
              simp only [List.cons_append, storePeers, hips]
              exact ih hnil.2 _

theorem storePeers_last {peer : PeerStatus Addr} {ip : Addr} (hip : peer.tailscaleIPs.head? = some ip)
    (k : KnownPeers Addr) : (k.storePeers [some peer]).getIPByPeer peer.hostName = some ip := by
  rcases List.head?_eq_some_iff.mp hip with ⟨rest, hips⟩
  simp only [storePeers, hips, getIPByPeer_storePeer, if_true]

/-- Visited last, or just before a nil pointer, a peer decides the answer. -/
theorem storePeers_gives {peers : List (Option (PeerStatus Addr))} {h : String} {ip : Addr}
    (hgives : Gives peers h ip) : ∃ order, order.Perm peers ∧
      ∀ k : KnownPeers Addr, (k.storePeers order).getIPByPeer h = some ip := by
  rcases hgives with ⟨peer, hpeer, hname, hip⟩
  subst hname
  rcases List.append_of_mem hpeer with ⟨before, after, hsplit⟩
  have hrest : peers.Perm (some peer :: (before ++ after)) := by
    rw [hsplit]
    exact List.perm_middle
  by_cases hnil : none ∈ before ++ after
  · rcases List.append_of_mem hnil with ⟨before', after', hsplit'⟩
    refine ⟨some peer :: none :: (before' ++ after'), ?_, ?_⟩
    · refine List.Perm.trans (List.Perm.cons _ ?_) hrest.symm
      rw [hsplit']
      exact List.perm_middle.symm
    · intro k
      rcases List.head?_eq_some_iff.mp hip with ⟨rest, hips⟩
      simp only [storePeers, hips, getIPByPeer_storePeer, if_true]
  · refine ⟨(before ++ after) ++ [some peer], ?_, ?_⟩
    · exact (List.perm_append_singleton _ _).trans hrest.symm
    · intro k
      rw [storePeers_append hnil]
      exact storePeers_last hip _

theorem storePeers_keeps {peers : List (Option (PeerStatus Addr))} (hnil : none ∈ peers) :
    ∃ order, order.Perm peers ∧ ∀ k : KnownPeers Addr, k.storePeers order = k := by
  rcases List.append_of_mem hnil with ⟨before, after, hsplit⟩
  refine ⟨none :: (before ++ after), ?_, fun k => rfl⟩
  rw [hsplit]
  exact List.perm_middle.symm

/-- The answers after a call are just those. -/
theorem after_iff (k : KnownPeers Addr) (peers : List (Option (PeerStatus Addr))) (h : String)
    (b : Option Addr) : (∃ order, order.Perm peers ∧ (k.storePeers order).getIPByPeer h = b) ↔
      After peers h (k.getIPByPeer h) b := by
  constructor
  · intro hanswer
    rcases hanswer with ⟨order, hperm, hb⟩
    have hafter := storePeers_after k order h
    unfold After at hafter ⊢
    rw [hb] at hafter
    simpa only [gives_perm hperm, hperm.mem_iff] using hafter
  · intro hafter
    rcases hafter with ⟨ip, hgives, hb⟩ | ⟨hb, hnil | hnone⟩
    · rcases storePeers_gives hgives with ⟨order, hperm, horder⟩
      exact ⟨order, hperm, by rw [horder, hb]⟩
    · rcases storePeers_keeps hnil with ⟨order, hperm, horder⟩
      exact ⟨order, hperm, by rw [horder, hb]⟩
    · refine ⟨peers, List.Perm.refl _, ?_⟩
      rcases storePeers_after k peers h with ⟨ip, hgives, _⟩ | ⟨heq, _⟩
      · exact absurd hgives (hnone ip)
      · rw [heq, hb]

/-! ## All calls -/

section Calls

variable {h : String} {m : Call Addr} {older : List (Call Addr)}

theorem answers_nil {b : Option Addr} : Answers h ([] : List (Call Addr)) b ↔ b = none := by
  constructor
  · intro hanswer
    rcases hanswer with ⟨orders, horders, hb⟩
    cases horders
    exact hb.symm
  · intro hb
    exact ⟨[], .nil, hb.symm⟩

theorem answers_cons {b : Option Addr} :
    Answers h (m :: older) b ↔ ∃ a, Answers h older a ∧ After m.values h a b := by
  constructor
  · intro hanswer
    rcases hanswer with ⟨orders, horders, hb⟩
    cases horders with
    | cons hperm hrest => exact ⟨_, ⟨_, hrest, rfl⟩, (after_iff _ _ _ _).mp ⟨_, hperm, hb⟩⟩
  · intro hanswer
    rcases hanswer with ⟨a, ⟨orders, horders, ha⟩, hafter⟩
    subst ha
    rcases (after_iff _ _ _ _).mpr hafter with ⟨order, hperm, hb⟩
    exact ⟨order :: orders, .cons hperm horders, hb⟩

omit [DecidableEq Addr] in
theorem latest_exists (h : String) (calls : List (Call Addr)) : ∃ a, Latest h calls a := by
  induction calls with
  | nil => exact ⟨none, rfl⟩
  | cons m older ih =>
      by_cases hgives : ∃ ip, Gives m.values h ip
      · rcases hgives with ⟨ip, hgives⟩
        exact ⟨some ip, .inl ⟨ip, hgives, rfl⟩⟩
      · rcases ih with ⟨a, ha⟩
        exact ⟨a, .inr ⟨not_exists.mp hgives, ha⟩⟩

/-- The answer of the latest call is given in some order. -/
theorem latest_answers {calls : List (Call Addr)} {a : Option Addr} (ha : Latest h calls a) :
    Answers h calls a := by
  induction calls generalizing a with
  | nil => exact answers_nil.mpr ha
  | cons m older ih =>
      rcases ha with ⟨ip, hgives, ha⟩ | ⟨hnone, ha⟩
      · rcases latest_exists h older with ⟨a', ha'⟩
        exact answers_cons.mpr ⟨a', ih ha', .inl ⟨ip, hgives, ha⟩⟩
      · exact answers_cons.mpr ⟨a, ih ha, .inr ⟨rfl, .inr hnone⟩⟩

/-- Where the peers agree, and what a panic leaves in place is theirs, the call has
the one answer that they give. -/
theorem answer_given {ip : Addr} {a : Option Addr} (hgives : Gives m.values h ip)
    (hagree : ∀ ip', Gives m.values h ip' → ip' = ip)
    (hleft : none ∈ m.values → ∀ c, Answers h older c → c = some ip)
    (ha : Answers h (m :: older) a) : a = some ip := by
  rcases answers_cons.mp ha with ⟨c, hc, ⟨ip', hgives', heq⟩ | ⟨heq, hnil | hnone⟩⟩
  · rw [heq, hagree ip' hgives']
  · rw [heq, hleft hnil c hc]
  · exact absurd hgives (hnone ip)

/-- Without a peer of that name the older calls answer. -/
theorem answer_kept {a : Option Addr} (hnone : ∀ ip, ¬ Gives m.values h ip)
    (ha : Answers h (m :: older) a) : Answers h older a := by
  rcases answers_cons.mp ha with ⟨c, hc, ⟨ip, hgives, _⟩ | ⟨heq, _⟩⟩
  · exact absurd hgives (hnone ip)
  · rw [heq]
    exact hc

/-- The answer is determined when there is one only. -/
theorem determined_unique {calls : List (Call Addr)} :
    Determined h calls ↔ ∀ a b, Answers h calls a → Answers h calls b → a = b := by
  constructor
  · intro hdet a b ha hb
    rcases hdet with ⟨c, _, hall⟩
    rw [hall a ha, hall b hb]
  · intro hone
    rcases latest_exists h calls with ⟨a, ha⟩
    exact ⟨a, ha, fun b hb => hone b a hb (latest_answers ha)⟩

/-- After one more call there is one answer just when its peers agree, and what
it may leave in place is one answer, which is theirs. -/
theorem unique_cons {m : Call Addr} {older : List (Call Addr)} :
    (∀ a b, Answers h (m :: older) a → Answers h (m :: older) b → a = b) ↔
      (∀ ip ip', Gives m.values h ip → Gives m.values h ip' → ip = ip') ∧
        ((∀ ip, ¬ Gives m.values h ip) ∨ none ∈ m.values → Determined h older) ∧
        (none ∈ m.values → ∀ ip a, Gives m.values h ip → Latest h older a → a = some ip) := by
  have hgiven : ∀ ip, Gives m.values h ip → Answers h (m :: older) (some ip) := by
    intro ip hgives
    rcases latest_exists h older with ⟨a, ha⟩
    exact answers_cons.mpr ⟨a, latest_answers ha, .inl ⟨ip, hgives, rfl⟩⟩
  have hkept : none ∈ m.values ∨ (∀ ip, ¬ Gives m.values h ip) → ∀ a, Answers h older a →
      Answers h (m :: older) a :=
    fun hopen a ha => answers_cons.mpr ⟨a, ha, .inr ⟨rfl, hopen⟩⟩
  constructor
  · intro hone
    refine ⟨?_, ?_, ?_⟩
    · intro ip ip' hgives hgives'
      exact Option.some.inj (hone _ _ (hgiven ip hgives) (hgiven ip' hgives'))
    · intro hopen
      rw [determined_unique]
      intro a b ha hb
      exact hone a b (hkept hopen.symm a ha) (hkept hopen.symm b hb)
    · intro hnil ip a hgives ha
      exact hone _ _ (hkept (.inl hnil) a (latest_answers ha)) (hgiven ip hgives)
  · intro hcond a b ha hb
    obtain ⟨hagree, hopen, hsame⟩ := hcond
    by_cases hany : ∃ ip, Gives m.values h ip
    · rcases hany with ⟨ip, hgives⟩
      -- What a panic leaves in place is what the peers give.
      have hleft : none ∈ m.values → ∀ c, Answers h older c → c = some ip := by
        intro hnil c hc
        rcases latest_exists h older with ⟨d, hd⟩
        have hone := determined_unique.mp (hopen (.inr hnil))
        rw [hone c d hc (latest_answers hd)]
        exact hsame hnil ip d hgives hd
      have hagreed : ∀ ip', Gives m.values h ip' → ip' = ip :=
        fun ip' hgives' => hagree ip' ip hgives' hgives
      rw [answer_given hgives hagreed hleft ha, answer_given hgives hagreed hleft hb]
    · have hnone := not_exists.mp hany
      have hone := determined_unique.mp (hopen (.inl hnone))
      exact hone a b (answer_kept hnone ha) (answer_kept hnone hb)

/-- After calls in any number and with any peers, the answer is that of the latest
call in every order exactly when this call is unambiguous. -/
theorem determined_iff (h : String) (calls : List (Call Addr)) :
    Determined h calls ↔ Unambiguous h calls := by
  induction calls with
  | nil =>
      rw [determined_unique]
      refine ⟨fun _ => trivial, fun _ a b ha hb => ?_⟩
      rw [answers_nil.mp ha, answers_nil.mp hb]
  | cons m older ih =>
      rw [determined_unique, unique_cons, ih]
      exact Iff.rfl

end Calls

/-- Two machines that both go by `localhost`. -/
def twoLocalhosts : Call String :=
  (AList.singleton "nodekey:1" (some { hostName := "localhost", tailscaleIPs := ["100.64.0.1"] })).insert
    "nodekey:2" (some { hostName := "localhost", tailscaleIPs := ["100.64.0.2"] })

/-- Either may be pinged. -/
theorem localhost_undetermined : Answers "localhost" [twoLocalhosts] (some "100.64.0.1") ∧
    Answers "localhost" [twoLocalhosts] (some "100.64.0.2") ∧
    ¬ Determined "localhost" [twoLocalhosts] := by
  have hfirst : Answers "localhost" [twoLocalhosts] (some "100.64.0.1") :=
    ⟨[twoLocalhosts.values], .cons (List.Perm.refl _) .nil, rfl⟩
  have hsecond : Answers "localhost" [twoLocalhosts] (some "100.64.0.2") :=
    ⟨[twoLocalhosts.values.reverse], .cons (List.reverse_perm _) .nil, rfl⟩
  refine ⟨hfirst, hsecond, ?_⟩
  intro hdet
  have heq := determined_unique.mp hdet _ _ hfirst hsecond
  simp at heq

end KnownPeers

end TSymbiote.Adapter
