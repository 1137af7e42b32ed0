import TSymbiote.WebUI.PeerMap

/-! # The host list of a peer map reply

The reply lists the hosts the client knows once all goroutines have sent. Which
hosts those are depends on the client before the request and on the order of
the goroutines' map operations. `Covers` is the condition on the client and the
answers under which no order can make the list differ from the hosts that
answered; it is shown sufficient for every interleaving and necessary by
running the goroutines in the order that breaks it.
-/

namespace TSymbiote.WebUI

open Transition FanOut

/-- The host name an answering adapter reports for itself. -/
def AdapterCall.selfHost (call : AdapterCall) : Option String :=
  call.status.bind fun status => hostName (Json.get status "Self")

def AdapterCall.adapter (call : AdapterCall) : String := call.knownAdapter.hostname

def AdapterCall.Failed (call : AdapterCall) : Prop := ∃ err, call.answer = .error err

/-- One request: the devices the control plane lists, one call for each of the
connected adapters among them, and answers that the goroutines survive. -/
structure Request where
  devices : List Device
  calls : List AdapterCall
  found : calls.map (·.knownAdapter) = getDevicesWithTag devices "tag:tsymbiote-adapter"
  wellFormed : ∀ call ∈ calls, call.WellFormed

namespace Request

/-- Adapter `a` answered this request for host `h`. -/
def Answered (req : Request) (h a : String) : Prop :=
  ∃ call ∈ req.calls, call.selfHost = some h ∧ call.adapter = a

/-- A device of this request with adapter name `a` could not be called. -/
def Failed (req : Request) (a : String) : Prop :=
  ∃ call ∈ req.calls, call.Failed ∧ call.adapter = a

def workers (req : Request) : List (Go Client PeerMapResult) := req.calls.map peerMapWorker

/-- Some interleaving of the request's goroutines ends in client `c'` and this reply. -/
def Serves (req : Request) (c c' : Client) (graph : NodeGraph) : Prop :=
  ∃ s, Reaches step (start req.workers c) s ∧ Replied s ∧ c' = s.shared ∧
    graph = nodeGraph s.shared s.results

/-- The reply lists the hosts that answered, and each of them is afterwards
reached through an adapter that answered for it. -/
def Exact (req : Request) (c' : Client) (graph : NodeGraph) : Prop :=
  (∀ h, h ∈ graph.hosts ↔ ∃ a, req.Answered h a) ∧
    ∀ h a, req.Answered h a → ∃ b, c'.getAdapter h = some b ∧ req.Answered h b

/-- No name both fails and answers, no failing adapter is recorded for a host
that answers, and each known host answers or is recorded for a failing adapter. -/
structure Covers (req : Request) (c : Client) : Prop where
  apart : ∀ a h, req.Failed a → ¬ req.Answered h a
  stale : ∀ a h b, req.Failed a → c.getHost a = some h → ¬ req.Answered h b
  visited : ∀ h ∈ c.getHosts, (∃ b, req.Answered h b) ∨ ∃ a, req.Failed a ∧ c.getHost a = some h

end Request

theorem selfHost_failed {call : AdapterCall} (h : call.Failed) : call.selfHost = none := by
  rcases h with ⟨err, herr⟩
  simp [AdapterCall.selfHost, AdapterCall.status, herr]

/-- The three shapes of a goroutine whose answer is survived. -/
theorem peerMapWorker_shape {call : AdapterCall} (h : call.WellFormed) :
    ∃ r, call.result = some r ∧
      ((call.Failed ∧ peerMapWorker call = deleteAdapterThen call.adapter (.send r .ret)) ∨
        (¬ call.Failed ∧ call.selfHost = none ∧ peerMapWorker call = .send r .ret) ∨
        ∃ host, call.selfHost = some host ∧
          peerMapWorker call = setKnownHostThen host call.adapter (.send r .ret)) := by
  obtain ⟨r, hr⟩ := Option.isSome_iff_exists.mp ((result_isSome call).mpr h)
  refine ⟨r, hr, ?_⟩
  unfold AdapterCall.result at hr
  cases ha : call.answer with
  | error err =>
      simp only [ha, Option.some.injEq] at hr
      exact .inl ⟨⟨err, ha⟩, by simp [peerMapWorker, ha, hr, AdapterCall.adapter]⟩
  | ok body =>
      right
      have hok : ¬ call.Failed := by simp [AdapterCall.Failed, ha]
      cases hd : decodeObject body with
      | error err =>
          simp only [ha, hd, Option.some.injEq] at hr
          refine .inl ⟨hok, ?_, by simp [peerMapWorker, ha, hd, hr]⟩
          simp [AdapterCall.selfHost, AdapterCall.status, ha, hd, Except.toOption]
      | ok status =>
          simp only [ha, hd, Option.bind_eq_bind, Option.bind_eq_some_iff] at hr
          rcases hr with ⟨host, hhost, peers, hpeers, hcollect⟩
          refine .inr ⟨host, ?_, ?_⟩
          · simp [AdapterCall.selfHost, AdapterCall.status, ha, hd, Except.toOption, hhost]
          · simp [peerMapWorker, ha, hd, hhost, hpeers, hcollect, AdapterCall.adapter]

/-! ## Every interleaving of a covered request -/

/-- The host is reached through an adapter that answered for it. -/
def Request.Served (req : Request) (c : Client) (h : String) : Prop :=
  ∃ b, c.getAdapter h = some b ∧ req.Answered h b

/-- The call has done its part on the maps. -/
structure Done (req : Request) (c : Client) (call : AdapterCall) : Prop where
  removed : call.Failed → c.getHost call.adapter = none
  registered : ∀ h, call.selfHost = some h → req.Served c h

/-- Where a goroutine of a request that began with client `c₀` stands when the
client is `c`. -/
inductive Stage (req : Request) (c₀ c : Client) (call : AdapterCall) : Go Client PeerMapResult → Prop where
  | deleting (r : PeerMapResult) (hf : call.Failed) :
      Stage req c₀ c call (deleteAdapterThen call.adapter (.send r .ret))
  | found (h : String) (r : PeerMapResult) (hf : call.Failed) (hh : c₀.getHost call.adapter = some h) :
      Stage req c₀ c call
        (.store (·.eraseAdapter call.adapter) (.store (·.eraseHost h) (.send r .ret)))
  | erased (h : String) (r : PeerMapResult) (hf : call.Failed) (hh : c₀.getHost call.adapter = some h)
      (hgone : c.getHost call.adapter = none) : Stage req c₀ c call (.store (·.eraseHost h) (.send r .ret))
  | setting (h : String) (r : PeerMapResult) (hh : call.selfHost = some h) :
      Stage req c₀ c call (setKnownHostThen h call.adapter (.send r .ret))
  | stored (h : String) (r : PeerMapResult) (hh : call.selfHost = some h) :
      Stage req c₀ c call (.store (·.storeHost h call.adapter) (.send r .ret))
  | sending (r : PeerMapResult) (hdone : Done req c call) : Stage req c₀ c call (.send r .ret)
  | returned (hdone : Done req c call) : Stage req c₀ c call .ret

/-- A failing goroutine whose host `h` is still to be removed. -/
def Erasing (req : Request) (c₀ : Client) (tasks : List (Go Client PeerMapResult)) (h : String) :
    Prop :=
  ∃ (i : Nat) (call : AdapterCall) (f : Client → Client) (r : PeerMapResult),
    req.calls[i]? = some call ∧ call.Failed ∧ c₀.getHost call.adapter = some h ∧
      tasks[i]? = some (.store f (.send r .ret))

/-- The maps between the goroutines' operations. -/
structure Between (req : Request) (c₀ c : Client) (tasks : List (Go Client PeerMapResult)) : Prop where
  stages : ∀ (i : Nat) (w : Go Client PeerMapResult) (call : AdapterCall), tasks[i]? = some w →
    req.calls[i]? = some call → Stage req c₀ c call w
  adapters : ∀ a, req.Failed a → c.getHost a = none ∨ c.getHost a = c₀.getHost a
  hosts : ∀ h a, c.getAdapter h = some a →
    req.Answered h a ∨ c₀.getAdapter h = some a
  pending : ∀ a h, req.Failed a → c₀.getHost a = some h →
    c.getHost a = some h ∨ c.getAdapter h = none ∨ Erasing req c₀ tasks h

/-- What other goroutines have done stays done. -/
structure Keeps (req : Request) (c c' : Client) : Prop where
  removed : ∀ a, req.Failed a → c.getHost a = none → c'.getHost a = none
  registered : ∀ h a, req.Answered h a → req.Served c h → req.Served c' h

section Covered

variable {req : Request} {c₀ c : Client}

theorem Keeps.refl : Keeps req c c := ⟨fun _ _ h => h, fun _ _ _ h => h⟩

theorem Done.keep {c' : Client} {call : AdapterCall} (hk : Keeps req c c') (hc : call ∈ req.calls)
    (h : Done req c call) : Done req c' call where
  removed hf := hk.removed _ ⟨call, hc, hf, rfl⟩ (h.removed hf)
  registered k hh := hk.registered k _ ⟨call, hc, hh, rfl⟩ (h.registered k hh)

theorem Stage.keep {c' : Client} {call : AdapterCall} {w : Go Client PeerMapResult}
    (hk : Keeps req c c') (hc : call ∈ req.calls) (h : Stage req c₀ c call w) : Stage req c₀ c' call w := by
  cases h with
  | deleting r hf => exact .deleting r hf
  | found h r hf hh => exact .found h r hf hh
  | erased h r hf hh hgone => exact .erased h r hf hh (hk.removed _ ⟨call, hc, hf, rfl⟩ hgone)
  | setting h r hh => exact .setting h r hh
  | stored h r hh => exact .stored h r hh
  | sending r hdone => exact .sending r (hdone.keep hk hc)
  | returned hdone => exact .returned (hdone.keep hk hc)

theorem keeps_eraseAdapter (a : String) : Keeps req c (c.eraseAdapter a) where
  removed b _ hb := by
    rw [Client.getHost_eraseAdapter]
    split
    · rfl
    · exact hb
  registered _ _ _ h := h

theorem keeps_eraseHost {h : String} (hh : ∀ b, ¬ req.Answered h b) : Keeps req c (c.eraseHost h) where
  removed _ _ hb := hb
  registered k a hk := by
    intro hserved
    rcases hserved with ⟨b, hb, hans⟩
    refine ⟨b, ?_, hans⟩
    rw [Client.getAdapter_eraseHost, if_neg]
    · exact hb
    · intro heq
      subst heq
      exact hh a hk

theorem keeps_storeAdapter {a h : String} (ha : ¬ req.Failed a) : Keeps req c (c.storeAdapter a h) where
  removed b hb hn := by
    rw [Client.getHost_storeAdapter, if_neg]
    · exact hn
    · intro heq
      subst heq
      exact ha hb
  registered _ _ _ h := h

theorem served_storeHost {h a : String} (ha : req.Answered h a) : req.Served (c.storeHost h a) h :=
  ⟨a, by rw [Client.getAdapter_storeHost, if_pos rfl], ha⟩

theorem keeps_storeHost {h a : String} (ha : req.Answered h a) : Keeps req c (c.storeHost h a) where
  removed _ _ hn := hn
  registered k _ _ hs := by
    by_cases hk : k = h
    · subst hk
      exact served_storeHost ha
    · rcases hs with ⟨b, hb, hans⟩
      exact ⟨b, by rw [Client.getAdapter_storeHost, if_neg hk, hb], hans⟩

/-- One goroutine moving on leaves the others' pending removals pending. -/
theorem erasing_set {tasks : List (Go Client PeerMapResult)} {i : Nat} {w w' : Go Client PeerMapResult}
    {call : AdapterCall} {h : String} (hw : tasks[i]? = some w) (hcall : req.calls[i]? = some call)
    (he : Erasing req c₀ tasks h) :
    Erasing req c₀ (tasks.set i w') h ∨
      (call.Failed ∧ c₀.getHost call.adapter = some h ∧ ∃ f r, w = .store f (.send r .ret)) := by
  rcases he with ⟨j, other, f, r, hother, hf, hh, hj⟩
  by_cases hij : i = j
  · subst hij
    obtain rfl := Option.some.inj (hcall.symm.trans hother)
    exact .inr ⟨hf, hh, f, r, Option.some.inj (hw.symm.trans hj)⟩
  · exact .inl ⟨j, other, f, r, hother, hf, hh, by rw [List.getElem?_set_ne hij, hj]⟩

theorem stages_set {c' : Client} {tasks : List (Go Client PeerMapResult)} {i : Nat}
    {w' : Go Client PeerMapResult} {call : AdapterCall} (hb : Between req c₀ c tasks)
    (hcall : req.calls[i]? = some call) (hk : Keeps req c c') (hstage : Stage req c₀ c' call w') :
    Staged (Stage req c₀) req.calls c' (tasks.set i w') :=
  Staged.set hb.stages hcall (fun _ hother _ h => h.keep hk hother) hstage

/-- A goroutine that moves on from elsewhere leaves the pending removals pending. -/
theorem erasing_kept {tasks : List (Go Client PeerMapResult)} {i : Nat} {w : Go Client PeerMapResult}
    {call : AdapterCall} {h : String} (hw : tasks[i]? = some w) (hcall : req.calls[i]? = some call)
    (helse : ∀ f r, w ≠ .store f (.send r .ret)) (w' : Go Client PeerMapResult)
    (he : Erasing req c₀ tasks h) : Erasing req c₀ (tasks.set i w') h := by
  rcases erasing_set hw hcall he with hkept | ⟨_, _, f, r, hat⟩
  · exact hkept
  · exact absurd hat (helse f r)

section Operations

variable {tasks : List (Go Client PeerMapResult)} {i : Nat} {call : AdapterCall} {h : String}
  {r : PeerMapResult}

/-- A goroutine moves on without touching the maps. -/
theorem between_move {w w' : Go Client PeerMapResult} (hb : Between req c₀ c tasks)
    (hw : tasks[i]? = some w) (hcall : req.calls[i]? = some call)
    (helse : ∀ f r, w ≠ .store f (.send r .ret)) (hnew : Stage req c₀ c call w') :
    Between req c₀ c (tasks.set i w') where
  stages := stages_set hb hcall .refl hnew
  adapters := hb.adapters
  hosts := hb.hosts
  pending a k ha hk := by
    rcases hb.pending a k ha hk with hp | hp | hp
    · exact .inl hp
    · exact .inr (.inl hp)
    · exact .inr (.inr (erasing_kept hw hcall helse w' hp))

/-- The lookup finds what it would have found before the request, or nothing. -/
theorem between_deleting (hb : Between req c₀ c tasks)
    (hw : tasks[i]? = some (deleteAdapterThen call.adapter (.send r .ret)))
    (hcall : req.calls[i]? = some call) (hf : call.Failed) {w' : Go Client PeerMapResult} {x : Client}
    (hint : Go.Internal c (deleteAdapterThen call.adapter (.send r .ret)) x w') :
    Between req c₀ x (tasks.set i w') := by
  cases hint
  apply between_move hb hw hcall fun f r => nofun
  dsimp only
  cases hget : c.getHost call.adapter with
  | none => exact .sending r ⟨fun _ => hget, fun k hk => by simp [selfHost_failed hf] at hk⟩
  | some h =>
      apply Stage.found h r hf
      rcases hb.adapters _ ⟨call, List.mem_of_getElem? hcall, hf, rfl⟩ with hn | heq
      · simp [hn] at hget
      · rw [← heq, hget]

theorem between_eraseAdapter (hb : Between req c₀ c tasks)
    (hw : tasks[i]? = some
      (.store (·.eraseAdapter call.adapter) (.store (·.eraseHost h) (.send r .ret))))
    (hcall : req.calls[i]? = some call) (hf : call.Failed) (hh : c₀.getHost call.adapter = some h) :
    Between req c₀ (c.eraseAdapter call.adapter)
      (tasks.set i (.store (·.eraseHost h) (.send r .ret))) where
  stages := by
    apply stages_set hb hcall (keeps_eraseAdapter _)
    exact .erased h r hf hh (by rw [Client.getHost_eraseAdapter, if_pos rfl])
  adapters a ha := by
    rw [Client.getHost_eraseAdapter]
    split
    · exact .inl rfl
    · exact hb.adapters a ha
  hosts := hb.hosts
  pending a k ha hk := by
    rw [Client.getHost_eraseAdapter]
    by_cases hsame : a = call.adapter
    · -- This goroutine now has that host to remove.
      subst hsame
      rw [hh] at hk
      cases hk
      have hi := (List.getElem?_eq_some_iff.mp hw).1
      exact .inr (.inr ⟨i, call, (·.eraseHost h), r, hcall, hf, hh, by simp [hi]⟩)
    · rw [if_neg hsame]
      rcases hb.pending a k ha hk with hp | hp | hp
      · exact .inl hp
      · exact .inr (.inl hp)
      · exact .inr (.inr (erasing_kept hw hcall (fun f r => nofun) _ hp))

/-- The host that goes was recorded for the adapter that failed, and did not answer. -/
theorem between_eraseHost (hcov : req.Covers c₀) (hb : Between req c₀ c tasks)
    (hw : tasks[i]? = some (.store (·.eraseHost h) (.send r .ret)))
    (hcall : req.calls[i]? = some call) (hf : call.Failed) (hh : c₀.getHost call.adapter = some h)
    (hgone : c.getHost call.adapter = none) :
    Between req c₀ (c.eraseHost h) (tasks.set i (.send r .ret)) where
  stages := by
    have hnone : ∀ b, ¬ req.Answered h b := fun b =>
      hcov.stale _ h b ⟨call, List.mem_of_getElem? hcall, hf, rfl⟩ hh
    apply stages_set hb hcall (keeps_eraseHost hnone)
    exact .sending r ⟨fun _ => hgone, fun k hk => by simp [selfHost_failed hf] at hk⟩
  adapters := hb.adapters
  hosts k a hk := by
    rw [Client.getAdapter_eraseHost] at hk
    split at hk
    · contradiction
    · exact hb.hosts k a hk
  pending a k ha hk := by
    rw [Client.getAdapter_eraseHost]
    by_cases hkh : k = h
    · exact .inr (.inl (if_pos hkh))
    · rw [if_neg hkh]
      rcases hb.pending a k ha hk with hp | hp | hp
      · exact .inl hp
      · exact .inr (.inl hp)
      · rcases erasing_set hw hcall hp with hkept | ⟨_, hhk, _⟩
        · exact .inr (.inr hkept)
        · rw [hh] at hhk
          exact absurd (Option.some.inj hhk).symm hkh

theorem between_storeAdapter (hcov : req.Covers c₀) (hb : Between req c₀ c tasks)
    (hw : tasks[i]? = some (setKnownHostThen h call.adapter (.send r .ret)))
    (hcall : req.calls[i]? = some call) (hself : call.selfHost = some h) :
    Between req c₀ (c.storeAdapter call.adapter h)
      (tasks.set i (.store (·.storeHost h call.adapter) (.send r .ret))) := by
  have hans : req.Answered h call.adapter := ⟨call, List.mem_of_getElem? hcall, hself, rfl⟩
  have hother : ∀ a, req.Failed a → a ≠ call.adapter := fun a ha heq =>
    hcov.apart a h ha (heq ▸ hans)
  constructor
  · apply stages_set hb hcall (keeps_storeAdapter fun hf => hother _ hf rfl)
    exact .stored h r hself
  · intro a ha
    rw [Client.getHost_storeAdapter, if_neg (hother a ha)]
    exact hb.adapters a ha
  · exact hb.hosts
  · intro a k ha hk
    rw [Client.getHost_storeAdapter, if_neg (hother a ha)]
    rcases hb.pending a k ha hk with hp | hp | hp
    · exact .inl hp
    · exact .inr (.inl hp)
    · exact .inr (.inr (erasing_kept hw hcall (fun f r => nofun) _ hp))

theorem between_storeHost (hcov : req.Covers c₀) (hb : Between req c₀ c tasks)
    (hw : tasks[i]? = some (.store (·.storeHost h call.adapter) (.send r .ret)))
    (hcall : req.calls[i]? = some call) (hself : call.selfHost = some h) :
    Between req c₀ (c.storeHost h call.adapter) (tasks.set i (.send r .ret)) := by
  have hans : req.Answered h call.adapter := ⟨call, List.mem_of_getElem? hcall, hself, rfl⟩
  have hok : ¬ call.Failed := fun hf => by simp [selfHost_failed hf] at hself
  constructor
  · apply stages_set hb hcall (keeps_storeHost hans)
    apply Stage.sending r
    refine ⟨fun hf => absurd hf hok, fun k hk => ?_⟩
    rw [hself] at hk
    cases hk
    exact served_storeHost hans
  · exact hb.adapters
  · intro k a hk
    rw [Client.getAdapter_storeHost] at hk
    split at hk
    · next hkh =>
        cases hk
        exact .inl (hkh ▸ hans)
    · exact hb.hosts k a hk
  · intro a k ha hk
    have hkh : k ≠ h := fun heq => hcov.stale a k call.adapter ha hk (heq ▸ hans)
    rw [Client.getAdapter_storeHost, if_neg hkh]
    rcases hb.pending a k ha hk with hp | hp | hp
    · exact .inl hp
    · exact .inr (.inl hp)
    · rcases erasing_set hw hcall hp with hkept | ⟨hf, _⟩
      · exact .inr (.inr hkept)
      · exact absurd hf hok

end Operations

/-- One operation of one goroutine. -/
theorem between_internal (hcov : req.Covers c₀) {tasks : List (Go Client PeerMapResult)} {i : Nat}
    {w w' : Go Client PeerMapResult} {x : Client} {call : AdapterCall} (hb : Between req c₀ c tasks)
    (hw : tasks[i]? = some w) (hcall : req.calls[i]? = some call) (hint : Go.Internal c w x w') :
    Between req c₀ x (tasks.set i w') := by
  cases hb.stages i w call hw hcall with
  | deleting r hf => exact between_deleting hb hw hcall hf hint
  | found h r hf hh =>
      cases hint
      exact between_eraseAdapter hb hw hcall hf hh
  | erased h r hf hh hgone =>
      cases hint
      exact between_eraseHost hcov hb hw hcall hf hh hgone
  | setting h r hself =>
      cases hint
      exact between_storeAdapter hcov hb hw hcall hself
  | stored h r hself =>
      cases hint
      exact between_storeHost hcov hb hw hcall hself
  | sending r hdone => cases hint
  | returned hdone => cases hint

theorem between_send {tasks : List (Go Client PeerMapResult)} {i : Nat} {v : PeerMapResult}
    {next : Go Client PeerMapResult} {call : AdapterCall} (hb : Between req c₀ c tasks)
    (hw : tasks[i]? = some (.send v next)) (hcall : req.calls[i]? = some call) :
    Between req c₀ c (tasks.set i next) := by
  cases hb.stages i _ call hw hcall with
  | sending r hdone => exact between_move hb hw hcall (fun f r => nofun) (.returned hdone)

theorem between_start : Between req c₀ c₀ req.workers where
  stages i w call hw hcall := by
    rw [Request.workers, List.getElem?_map, hcall, Option.map_some] at hw
    cases hw
    obtain ⟨r, _, ⟨hf, hworker⟩ | ⟨hok, hself, hworker⟩ | ⟨host, hself, hworker⟩⟩ :=
      peerMapWorker_shape (req.wellFormed call (List.mem_of_getElem? hcall))
    · exact hworker ▸ .deleting r hf
    · exact hworker ▸ .sending r ⟨fun hf => absurd hf hok, fun k hk => by simp [hself] at hk⟩
    · exact hworker ▸ .setting host r hself
  adapters a _ := .inr rfl
  hosts h a ha := .inr ha
  pending a h _ hh := .inl hh

theorem Stage.done {call : AdapterCall} {w : Go Client PeerMapResult} (h : Stage req c₀ c call w)
    (hd : w.Does (some [])) : Done req c call := by
  cases h with
  | deleting r hf =>
      have := hd newClient
      simp [Client.getHost, newClient, Go.Does] at this
  | found h r hf hh => simp [Go.Does] at hd
  | erased h r hf hh hgone => simp [Go.Does] at hd
  | setting h r hh => simp [setKnownHostThen, Go.Does] at hd
  | stored h r hh => simp [Go.Does] at hd
  | sending r hdone => simp [Go.Does] at hd
  | returned hdone => exact hdone

theorem exists_call {tasks : List (Go Client PeerMapResult)} {i : Nat} {w : Go Client PeerMapResult}
    (hlen : tasks.length = req.calls.length) (hw : tasks[i]? = some w) :
    ∃ call, req.calls[i]? = some call := by
  have hi := (List.getElem?_eq_some_iff.mp hw).1
  exact ⟨_, List.getElem?_eq_getElem (hlen ▸ hi)⟩

theorem reaches_between (hcov : req.Covers c₀) {s : State Client PeerMapResult}
    (h : Reaches step (start req.workers c₀) s) :
    s.tasks.length = req.calls.length ∧ Between req c₀ s.shared s.tasks := by
  apply reaches_tasks (P := fun x ts => ts.length = req.calls.length ∧ Between req c₀ x ts) _ _ h
  · exact ⟨by simp [Request.workers], between_start⟩
  · intro y ts i w z w' hts hw hint
    obtain ⟨call, hcall⟩ := exists_call hts.1 hw
    exact ⟨by simpa using hts.1, between_internal hcov hts.2 hw hcall hint⟩
  · intro y ts i v next hts hw
    obtain ⟨call, hcall⟩ := exists_call hts.1 hw
    exact ⟨by simpa using hts.1, between_send hts.2 hw hcall⟩

theorem exact_of_covers (hcov : req.Covers c₀) {graph : NodeGraph} (h : req.Serves c₀ c graph) :
    req.Exact c graph := by
  rcases h with ⟨s, hs, hreplied, rfl, rfl⟩
  obtain ⟨hlen, hb⟩ := reaches_between hcov hs
  obtain ⟨results, _, hdo⟩ := peerMapWorkers_send req.wellFormed
  have hidle := (replied_does (reaches_invariant c₀ hdo hs) hreplied).2
  have htasks : s.tasks = s.workers := by rw [State.tasks, hreplied.started, List.append_nil]
  rw [htasks] at hlen hb
  have hdone : ∀ call ∈ req.calls, Done req s.shared call := by
    intro call hcall
    obtain ⟨i, hi⟩ := List.getElem?_of_mem hcall
    have hiw : i < s.workers.length := hlen ▸ (List.getElem?_eq_some_iff.mp hi).1
    have hw := List.getElem?_eq_getElem hiw
    exact (hb.stages i _ call hw hi).done (hidle _ (List.getElem_mem hiw))
  have hserved : ∀ h a, req.Answered h a → req.Served s.shared h := by
    intro h _ hans
    rcases hans with ⟨call, hcall, hself, rfl⟩
    exact (hdone call hcall).registered h hself
  have hnone : ∀ h, ¬ Erasing req c₀ s.workers h := by
    intro h herasing
    rcases herasing with ⟨i, _, f, r, _, _, _, hw⟩
    have := hidle _ (List.mem_of_getElem? hw)
    simp [Go.Does] at this
  refine ⟨fun h => ?_, fun h a hans => hserved h a hans⟩
  simp only [nodeGraph, Client.mem_getHosts]
  constructor
  · intro hlisted
    rcases hlisted with ⟨a, ha⟩
    rcases hb.hosts h a ha with hans | hold
    · exact ⟨a, hans⟩
    · rcases hcov.visited h ((Client.mem_getHosts _ _).mpr ⟨a, hold⟩) with hans | ⟨b, hfail, hbh⟩
      · exact hans
      · rcases hfail with ⟨call, hcall, hf, rfl⟩
        have hgone := (hdone call hcall).removed hf
        rcases hb.pending _ h ⟨call, hcall, hf, rfl⟩ hbh with hp | hp | hp
        · simp [hgone] at hp
        · simp [ha] at hp
        · exact absurd hp (hnone h)
  · intro hanswered
    rcases hanswered with ⟨a, hans⟩
    obtain ⟨b, hb', _⟩ := hserved h a hans
    exact ⟨b, hb'⟩

end Covered

/-! ## One goroutine after the other -/

/-- What a goroutine left alone does to the client. -/
def AdapterCall.update (call : AdapterCall) (c : Client) : Client :=
  match call.answer with
  | .error _ => (c.deleteAdapter call.adapter).1
  | .ok _ =>
      match call.selfHost with
      | none => c
      | some host => c.setKnownHost host call.adapter

def updateAll (calls : List AdapterCall) (c : Client) : Client :=
  calls.foldl (fun c call => call.update c) c

@[simp] theorem updateAll_nil (c : Client) : updateAll [] c = c := rfl

@[simp] theorem updateAll_cons (call : AdapterCall) (calls : List AdapterCall) (c : Client) :
    updateAll (call :: calls) c = updateAll calls (call.update c) := rfl

@[simp] theorem updateAll_append (calls calls' : List AdapterCall) (c : Client) :
    updateAll (calls ++ calls') c = updateAll calls' (updateAll calls c) := List.foldl_append

theorem update_failed {call : AdapterCall} (h : call.Failed) (c : Client) :
    call.update c = (c.deleteAdapter call.adapter).1 := by
  cases h with
  | intro err herr => rw [AdapterCall.update, herr]

theorem update_answered {call : AdapterCall} {h : String} (hh : call.selfHost = some h) (c : Client) :
    call.update c = c.setKnownHost h call.adapter := by
  cases ha : call.answer with
  | error err =>
      rw [selfHost_failed ⟨err, ha⟩] at hh
      cases hh
  | ok body => simp only [AdapterCall.update, ha, hh]

theorem update_silent {call : AdapterCall} (hf : ¬ call.Failed) (hh : call.selfHost = none)
    (c : Client) : call.update c = c := by
  cases ha : call.answer with
  | error err => exact absurd ⟨err, ha⟩ hf
  | ok body => simp only [AdapterCall.update, ha, hh]

theorem peerMapWorker_settle {call : AdapterCall} (h : call.WellFormed) :
    ∃ r, call.result = some r ∧
      ∀ c, (peerMapWorker call).settle c = (.send r .ret, call.update c) := by
  obtain ⟨r, hr, ⟨hf, hworker⟩ | ⟨hok, hself, hworker⟩ | ⟨host, hself, hworker⟩⟩ :=
    peerMapWorker_shape h
  · refine ⟨r, hr, fun c => ?_⟩
    rw [hworker, update_failed hf]
    cases hc : c.getHost call.adapter <;> simp [deleteAdapterThen, Go.settle, Client.deleteAdapter, hc]
  · refine ⟨r, hr, fun c => ?_⟩
    rw [hworker, update_silent hok hself]
    rfl
  · refine ⟨r, hr, fun c => ?_⟩
    rw [hworker, update_answered hself]
    rfl

/-- The calls of a request may update the client one after the other, in any order. -/
theorem Request.serves_in_order (req : Request) (c : Client) {order : List AdapterCall}
    (horder : order.Perm req.calls) :
    ∃ graph, req.Serves c (updateAll order c) graph ∧
      graph.hosts = (updateAll order c).getHosts := by
  have hsettles : ∀ calls : List AdapterCall, (∀ call ∈ calls, call.WellFormed) →
      ∃ vs, List.Forall₂ Go.Settles (calls.map peerMapWorker) vs := by
    intro calls hcalls
    induction calls with
    | nil => exact ⟨[], .nil⟩
    | cons call calls ih =>
        obtain ⟨r, _, hsettle⟩ := peerMapWorker_settle (hcalls call List.mem_cons_self)
        obtain ⟨vs, hvs⟩ := ih fun other hother => hcalls other (List.mem_cons_of_mem _ hother)
        exact ⟨r :: vs, .cons (fun c => by rw [hsettle]) hvs⟩
  obtain ⟨vs, hvs⟩ := hsettles req.calls req.wellFormed
  obtain ⟨s, hs, hreplied, _, hshared⟩ := reaches_in_order c hvs (horder.map peerMapWorker)
  have hupdates : ∀ call ∈ order, ∀ c, ((peerMapWorker call).settle c).2 = call.update c := by
    intro call hcall c
    obtain ⟨r, _, hsettle⟩ := peerMapWorker_settle (req.wellFormed call (horder.mem_iff.mp hcall))
    rw [hsettle]
  rw [List.foldl_map, List.foldl_ext _ _ _ fun c call hcall => hupdates call hcall c] at hshared
  exact ⟨nodeGraph s.shared s.results, ⟨s, hs, hreplied, hshared.symm, rfl⟩, hshared ▸ rfl⟩

/-! ### First the adapters that answer -/

section Registering

variable {calls : List AdapterCall} (hall : ∀ call ∈ calls, call.selfHost.isSome) (c : Client)

include hall

theorem getAdapter_registered {h : String} (hh : ∀ call ∈ calls, call.selfHost ≠ some h) :
    (updateAll calls c).getAdapter h = c.getAdapter h := by
  induction calls generalizing c with
  | nil => rfl
  | cons call calls ih =>
      have hcall := Option.isSome_iff_exists.mp (hall call List.mem_cons_self)
      rcases hcall with ⟨k, hk⟩
      have hne : h ≠ k := fun heq => hh call List.mem_cons_self (heq ▸ hk)
      rw [updateAll_cons, ih (fun o ho => hall o (List.mem_cons_of_mem _ ho)) _
        fun o ho => hh o (List.mem_cons_of_mem _ ho), update_answered hk,
        Client.getAdapter_setKnownHost, if_neg hne]

/-- The last answer of an adapter decides which host it is recorded for. -/
theorem getHost_registered (a : String) :
    ((updateAll calls c).getHost a = c.getHost a ∧
        ∀ call ∈ calls, call.adapter ≠ a) ∨
      ∃ call ∈ calls, call.adapter = a ∧
        (updateAll calls c).getHost a = call.selfHost := by
  induction calls using List.reverseRecOn with
  | nil => exact .inl ⟨rfl, by simp⟩
  | append_singleton calls call ih =>
      obtain ⟨k, hk⟩ := Option.isSome_iff_exists.mp (hall call (by simp))
      rw [updateAll_append, updateAll_cons, updateAll_nil, update_answered hk,
        Client.getHost_setKnownHost]
      by_cases ha : a = call.adapter
      · rw [if_pos ha]
        exact .inr ⟨call, by simp, ha.symm, hk.symm⟩
      · rw [if_neg ha]
        rcases ih fun o ho => hall o (by simp [ho]) with ⟨hkept, hne⟩ | ⟨o, ho, hoa, hhost⟩
        · refine .inl ⟨hkept, fun o ho => ?_⟩
          rcases List.mem_append.mp ho with ho | ho
          · exact hne o ho
          · rw [List.mem_singleton.mp ho]
            exact fun heq => ha heq.symm
        · exact .inr ⟨o, by simp [ho], hoa, hhost⟩

end Registering

/-! ### Then the ones that fail -/

section Removing

theorem update_removing {call : AdapterCall} (hnone : call.selfHost = none) (c : Client) :
    call.update c = c ∨ (call.Failed ∧ call.update c = (c.deleteAdapter call.adapter).1) := by
  by_cases hf : call.Failed
  · exact .inr ⟨hf, update_failed hf c⟩
  · exact .inl (update_silent hf hnone c)

variable {calls : List AdapterCall} (hall : ∀ call ∈ calls, call.selfHost = none)

include hall

theorem getAdapter_removed_of_none (c : Client) {h : String} (hh : c.getAdapter h = none) :
    (updateAll calls c).getAdapter h = none := by
  induction calls generalizing c with
  | nil => exact hh
  | cons call calls ih =>
      rw [updateAll_cons]
      refine ih (fun o ho => hall o (List.mem_cons_of_mem _ ho)) _ ?_
      rcases update_removing (hall call List.mem_cons_self) c with heq | ⟨_, heq⟩
      · rw [heq, hh]
      · rw [heq, Client.getAdapter_deleteAdapter, hh, ite_self]

theorem getAdapter_removed (c : Client) {call : AdapterCall} (hcall : call ∈ calls)
    (hf : call.Failed) {h : String} (hh : c.getHost call.adapter = some h) :
    (updateAll calls c).getAdapter h = none := by
  induction calls generalizing c with
  | nil => simp at hcall
  | cons other calls ih =>
      have htail : ∀ o ∈ calls, o.selfHost = none := fun o ho => hall o (List.mem_cons_of_mem _ ho)
      rw [updateAll_cons]
      rcases update_removing (hall other List.mem_cons_self) c with heq | ⟨hfail, heq⟩
      · rcases List.mem_cons.mp hcall with rfl | hcall
        · rw [update_failed hf] at heq ⊢
          apply getAdapter_removed_of_none htail
          rw [Client.getAdapter_deleteAdapter, if_pos hh]
        · exact ih htail _ hcall (by rw [heq, hh])
      · rw [heq]
        by_cases hsame : call.adapter = other.adapter
        · apply getAdapter_removed_of_none htail
          rw [Client.getAdapter_deleteAdapter, if_pos (hsame ▸ hh)]
        · rcases List.mem_cons.mp hcall with rfl | hcall
          · exact absurd rfl hsame
          · exact ih htail _ hcall (by rw [Client.getHost_deleteAdapter, if_neg hsame, hh])

theorem getAdapter_spared (c : Client) {h : String}
    (hh : ∀ call ∈ calls, call.Failed → c.getHost call.adapter ≠ some h) :
    (updateAll calls c).getAdapter h = c.getAdapter h := by
  induction calls generalizing c with
  | nil => rfl
  | cons call calls ih =>
      have htail : ∀ o ∈ calls, o.selfHost = none := fun o ho => hall o (List.mem_cons_of_mem _ ho)
      rw [updateAll_cons]
      rcases update_removing (hall call List.mem_cons_self) c with heq | ⟨hf, heq⟩
      · rw [heq]
        exact ih htail c fun o ho => hh o (List.mem_cons_of_mem _ ho)
      · have hkeep := hh call List.mem_cons_self hf
        have hrest : ∀ o ∈ calls, o.Failed →
            (c.deleteAdapter call.adapter).1.getHost o.adapter ≠ some h := by
          intro o ho hof
          rw [Client.getHost_deleteAdapter]
          split
          · simp
          · exact hh o (List.mem_cons_of_mem _ ho) hof
        rw [heq, ih htail _ hrest, Client.getAdapter_deleteAdapter, if_neg hkeep]

end Removing

/-! ## Exactly the covered requests -/

/-- Hosts that answer, then adapters that fail: the order that removes most. -/
def Request.failuresLast (req : Request) : List AdapterCall :=
  req.calls.filter (·.selfHost.isSome) ++ req.calls.filter fun call => !call.selfHost.isSome

theorem failuresLast_perm (req : Request) : req.failuresLast.Perm req.calls :=
  List.filter_append_perm _ _

section LastFailures

variable {req : Request} {c : Client}

theorem answering_isSome (req : Request) :
    ∀ call ∈ req.calls.filter (·.selfHost.isSome), call.selfHost.isSome :=
  fun _ hcall => (List.mem_filter.mp hcall).2

theorem silent_eq_none (req : Request) :
    ∀ call ∈ req.calls.filter (fun call => !call.selfHost.isSome), call.selfHost = none := by
  intro call hcall
  simpa using (List.mem_filter.mp hcall).2

/-- Run last, a failing adapter takes away the host that is then recorded for it. -/
theorem failuresLast_removes {call : AdapterCall} (hcall : call ∈ req.calls) (hf : call.Failed)
    {h : String}
    (hh : (updateAll (req.calls.filter (·.selfHost.isSome)) c).getHost call.adapter = some h) :
    (updateAll req.failuresLast c).getAdapter h = none := by
  have hmem : call ∈ req.calls.filter fun call => !call.selfHost.isSome := by
    simp [hcall, selfHost_failed hf]
  rw [Request.failuresLast, updateAll_append]
  exact getAdapter_removed (silent_eq_none req) _ hmem hf hh

/-- An adapter that answers is recorded for a host that its failure then takes away. -/
theorem apart_of_served (hserved : ∀ h a, req.Answered h a → req.Served (updateAll req.failuresLast c) h)
    (a h : String) (hfail : req.Failed a) : ¬ req.Answered h a := by
  intro hans
  rcases hfail with ⟨call, hcall, hf, rfl⟩
  rcases hans with ⟨other, hother, hself, hadapter⟩
  rcases getHost_registered (answering_isSome req) c call.adapter with ⟨_, hne⟩ | ⟨o, ho, _, hhost⟩
  · exact hne other (List.mem_filter.mpr ⟨hother, by simp [hself]⟩) hadapter
  · obtain ⟨k, hk⟩ := Option.isSome_iff_exists.mp (answering_isSome req o ho)
    have hgone := failuresLast_removes hcall hf (hhost.trans hk)
    obtain ⟨b, hb, _⟩ := hserved k o.adapter ⟨o, (List.mem_filter.mp ho).1, hk, rfl⟩
    rw [hgone] at hb
    cases hb

/-- The answers leave the records of failing adapters alone. -/
theorem getHost_answered (hapart : ∀ a h, req.Failed a → ¬ req.Answered h a) {a : String}
    (ha : req.Failed a) :
    (updateAll (req.calls.filter (·.selfHost.isSome)) c).getHost a = c.getHost a := by
  rcases getHost_registered (answering_isSome req) c a with ⟨hkept, _⟩ | ⟨o, ho, hoa, _⟩
  · exact hkept
  · obtain ⟨k, hk⟩ := Option.isSome_iff_exists.mp (answering_isSome req o ho)
    exact absurd ⟨o, (List.mem_filter.mp ho).1, hk, hoa⟩ (hapart a k ha)

/-- A host that neither answers nor is recorded for a failing adapter stays listed. -/
theorem failuresLast_spares (hapart : ∀ a h, req.Failed a → ¬ req.Answered h a) {h : String}
    (hsilent : ∀ a, ¬ req.Answered h a) (hspared : ∀ a, req.Failed a → c.getHost a ≠ some h) :
    (updateAll req.failuresLast c).getAdapter h = c.getAdapter h := by
  rw [Request.failuresLast, updateAll_append, getAdapter_spared (silent_eq_none req)]
  · apply getAdapter_registered (answering_isSome req)
    intro call hcall hself
    exact hsilent _ ⟨call, (List.mem_filter.mp hcall).1, hself, rfl⟩
  · intro call hcall hf hhost
    have hfail : req.Failed call.adapter := ⟨call, (List.mem_filter.mp hcall).1, hf, rfl⟩
    rw [getHost_answered hapart hfail] at hhost
    exact hspared _ hfail hhost

theorem covers_of_exact (h : ∀ c' graph, req.Serves c c' graph → req.Exact c' graph) :
    req.Covers c := by
  obtain ⟨graph, hserves, hhosts⟩ := req.serves_in_order c (failuresLast_perm req)
  obtain ⟨hlisted, hserved⟩ := h _ graph hserves
  simp only [hhosts, Client.mem_getHosts] at hlisted
  have hapart := apart_of_served hserved
  constructor
  · exact hapart
  · intro a k b hfail hk hans
    have hrecorded := (getHost_answered hapart hfail).trans hk
    rcases hfail with ⟨call, hcall, hf, rfl⟩
    have hgone := failuresLast_removes hcall hf hrecorded
    obtain ⟨b', hb', _⟩ := hserved k b hans
    rw [hgone] at hb'
    cases hb'
  · intro k hk
    by_contra hnot
    push Not at hnot
    obtain ⟨a, ha⟩ := (Client.mem_getHosts c k).mp hk
    have hkept := failuresLast_spares hapart hnot.1 hnot.2
    obtain ⟨b, hb⟩ := (hlisted k).mp ⟨a, hkept.trans ha⟩
    exact hnot.1 b hb

end LastFailures

theorem exact_iff_covers (req : Request) (c : Client) :
    (∀ c' graph, req.Serves c c' graph → req.Exact c' graph) ↔ req.Covers c :=
  ⟨covers_of_exact, fun hcov _ _ h => exact_of_covers hcov h⟩

/-- Every reply of these requests, made one after another, lists its hosts exactly. -/
def HostsExact : Client → List Request → Prop
  | _, [] => True
  | c, req :: reqs =>
      ∀ c' graph, req.Serves c c' graph → req.Exact c' graph ∧ HostsExact c' reqs

/-- Every request covers the client it finds. -/
def HostsCovered : Client → List Request → Prop
  | _, [] => True
  | c, req :: reqs => req.Covers c ∧ ∀ c' graph, req.Serves c c' graph → HostsCovered c' reqs

theorem hostsExact_iff (c : Client) (reqs : List Request) :
    HostsExact c reqs ↔ HostsCovered c reqs := by
  induction reqs generalizing c with
  | nil => exact Iff.rfl
  | cons req reqs ih =>
      simp only [HostsExact, HostsCovered, forall_and, exact_iff_covers, ih]

def adapterDevice (hostname : String) : Device :=
  { hostname, tags := ["tag:tsymbiote-adapter"], connectedToControl := true }

/-- An adapter on the host `node`, which sees no peers but has a peer map. -/
def nodeAnswers (adapter : String) : AdapterCall where
  knownAdapter := adapterDevice adapter
  answer := Adapter.status (.ok { lonelyStatus with peer := some ∅ })
  order := .asListed

def adapterFails (adapter : String) : AdapterCall :=
  { nodeAnswers adapter with answer := .error "connection refused" }

theorem nodeAnswers_wellFormed (adapter : String) : (nodeAnswers adapter).WellFormed := by
  rw [status_wellFormed_iff rfl]
  exact ⟨rfl, ∅, rfl, fun _ he => nomatch he⟩

theorem adapterFails_wellFormed (adapter : String) : (adapterFails adapter).WellFormed := by
  intro status hstatus
  simp [AdapterCall.status, adapterFails] at hstatus

/-- The adapter of `node` answers. -/
def firstRequest : Request where
  devices := [adapterDevice "ts-a"]
  calls := [nodeAnswers "ts-a"]
  found := rfl
  wellFormed := by simp [nodeAnswers_wellFormed]

/-- Its replacement answers while the device of the old pod is still listed. -/
def secondRequest : Request where
  devices := [adapterDevice "ts-b", adapterDevice "ts-a"]
  calls := [nodeAnswers "ts-b", adapterFails "ts-a"]
  found := rfl
  wellFormed := by simp [nodeAnswers_wellFormed, adapterFails_wellFormed]

/-- The failing adapter takes the host its replacement has just registered out
of the reply. -/
theorem replaced_host_not_listed : ¬ ∀ reqs, HostsExact newClient reqs := by
  intro h
  have hfirst : ∃ s, execute step (start firstRequest.workers newClient)
      [.spawn, .work 0, .work 0, .deliver, .close] = some s ∧ Replied s ∧
        s.shared = newClient.setKnownHost "node" "ts-a" := ⟨_, rfl, ⟨rfl, rfl, rfl⟩, rfl⟩
  have hsecond : ∃ s, execute step
      (start secondRequest.workers (newClient.setKnownHost "node" "ts-a"))
      [.spawn, .spawn, .work 0, .work 0, .work 1, .work 1, .work 1, .deliver, .close, .deliver,
        .close] = some s ∧ Replied s ∧ s.shared.getHosts = [] := ⟨_, rfl, ⟨rfl, rfl, rfl⟩, rfl⟩
  rcases hfirst with ⟨s, hs, hreplied, hshared⟩
  rcases hsecond with ⟨t, ht, htreplied, hnone⟩
  have hreqs := h [firstRequest, secondRequest]
  have hrest := (hreqs _ _ ⟨s, execute_reaches hs, hreplied, hshared.symm, rfl⟩).2
  have hexact := (hrest _ _ ⟨t, execute_reaches ht, htreplied, rfl, rfl⟩).1
  have hans : secondRequest.Answered "node" "ts-b" := ⟨nodeAnswers "ts-b", by simp [secondRequest],
    rfl, rfl⟩
  have hlisted := (hexact.1 "node").mpr ⟨_, hans⟩
  simp [nodeGraph, hnone] at hlisted

end TSymbiote.WebUI
