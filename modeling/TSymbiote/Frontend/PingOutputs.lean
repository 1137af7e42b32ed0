import TSymbiote.Frontend.PingLoop
import TSymbiote.WebUI.Replies

/-! # Ping outputs

The handler's reply has one element for each pair, with an error or with the
results of the adapter. `fetchPing` keeps the results field alone, which Go leaves
out when it is empty, as it does with an empty name. For the name of an inherited
property the tables have no place.
-/

namespace TSymbiote.Frontend

open Transition FanOut

/-- An element of the handler's reply, as JSON that is decoded again. -/
def PingResult.ofReply (r : WebUI.PingResults) : PingResult where
  error := omitEmpty r.error
  host := omitEmpty r.host
  target := omitEmpty r.target
  results := if r.results = [] then none else some (r.results.map .object)

/-- The output of a pair. -/
def Results.output (results : Results) (host target : String) : Option Output :=
  (results.lookup host).bind fun targets => targets.lookup target

/-- A request for distinct pairs, and the reply of the handler when its goroutines
have come to their end. -/
structure PingExchange where
  pairs : List Combination
  distinct : pairs.Nodup
  input : WebUI.PingInput
  sent : input.args.map (fun arg => ⟨arg.host, arg.targets.map WebUI.PingTarget.target⟩) = pingArgs pairs
  reply : List WebUI.PingResults
  replied : ∃ parseDuration workers collect s,
    WebUI.ping parseDuration (.ok input) = .fanOut workers collect ∧
      Reaches step (start workers ()) s ∧ Stuck step s ∧ reply = collect s.results

namespace PingExchange

variable {e : PingExchange}

/-- Every request is answered. -/
theorem exists_reply {input : WebUI.PingInput} (parseDuration : String → Option Int)
    (h : (parseDuration input.delay).isSome = true) :
    ∃ parseDuration workers collect s,
      WebUI.ping parseDuration (.ok input) = .fanOut workers collect ∧
        Reaches step (start workers ()) s ∧ Stuck step s ∧
        input.items.map WebUI.pingEntry = collect s.results := by
  obtain ⟨s, hs, hstuck⟩ := exists_stuck step_wf (start (WebUI.pingWorkers input) ())
  have haligned : (WebUI.Handled.fanOut (WebUI.pingWorkers input) id).Aligned input.items
      WebUI.pingEntry := WebUI.aligned_of_results (WebUI.pingWorkers_eq input) rfl
  obtain ⟨delay, hdelay⟩ := Option.isSome_iff_exists.mp h
  refine ⟨parseDuration, WebUI.pingWorkers input, id, s, ?_, hs, hstuck, ?_⟩
  · unfold WebUI.ping
    dsimp only
    rw [hdelay]
  · cases haligned with
    | fanOut _ hreplies => exact ((hreplies s hs).2 hstuck).2.symm

def data (e : PingExchange) : List PingResult := e.reply.map .ofReply

/-- What is set as the page's outputs, if anything is. No earlier ping has assigned
anything to `Object.prototype`. -/
def outputs (typeError : String) (e : PingExchange) : Results :=
  match (PingResponse.reply e.data).fetch typeError ∅ e.pairs with
  | some fetched => if fetched.kept = true then fetched.collected.tables.results else ∅
  | none => ∅

/-- The output of a pair is an error where its entry has one, and else the list of
the adapter's results. -/
def KeepsErrors (typeError : String) (e : PingExchange) : Prop :=
  ∀ r ∈ e.reply,
    if r.error = "" then
      (e.outputs typeError).output r.host r.target = some (.results (some (r.results.map .object)))
    else ∃ text, (e.outputs typeError).output r.host r.target = some (.error text)

/-! ## The reply -/

theorem reply_eq (e : PingExchange) : e.reply = e.input.items.map WebUI.pingEntry := by
  rcases e.replied with ⟨parseDuration, workers, collect, s, hping, hreaches, hstuck, hreply⟩
  unfold WebUI.ping at hping
  dsimp only at hping
  cases hdelay : parseDuration e.input.delay with
  | none => simp [hdelay] at hping
  | some delay =>
      rw [hdelay] at hping
      cases hping
      have haligned : (WebUI.Handled.fanOut (WebUI.pingWorkers e.input) id).Aligned e.input.items
          WebUI.pingEntry := WebUI.aligned_of_results (WebUI.pingWorkers_eq e.input) rfl
      cases haligned with
      | fanOut _ hreplies => exact hreply.trans ((hreplies s hreaches).2 hstuck).2

/-- Each pair has one entry. -/
theorem reply_pairs (e : PingExchange) :
    e.reply.map (fun r => (⟨r.host, r.target⟩ : Combination)) = flattenArgs (pingArgs e.pairs) := by
  rw [reply_eq, ← e.sent]
  unfold flattenArgs WebUI.PingInput.items
  rw [List.map_map, List.map_flatMap, List.flatMap_map]
  congr 1
  funext arg
  rw [List.map_map, List.map_map]
  refine List.map_congr_left fun target _ => ?_
  have hlabel := WebUI.pingEntry_labelled (arg.host, target)
  simp only [Function.comp_apply, hlabel]

theorem reply_inj {r r' : WebUI.PingResults} (hr : r ∈ e.reply) (hr' : r' ∈ e.reply)
    (hhost : r'.host = r.host) (htarget : r'.target = r.target) : r' = r := by
  have hnodup : (e.reply.map fun r => (⟨r.host, r.target⟩ : Combination)).Nodup := by
    rw [reply_pairs]
    exact (flattenArgs_perm e.pairs).nodup_iff.mpr e.distinct
  exact List.inj_on_of_nodup_map hnodup hr' hr (by rw [hhost, htarget])

theorem mem_pairs {c : Combination} :
    c ∈ e.pairs ↔ ∃ r ∈ e.reply, r.host = c.hostId ∧ r.target = c.peerId := by
  rw [← (flattenArgs_perm e.pairs).mem_iff, ← reply_pairs, List.mem_map]
  constructor
  · rintro ⟨r, hr, rfl⟩
    exact ⟨r, hr, rfl, rfl⟩
  · rintro ⟨r, hr, hhost, htarget⟩
    exact ⟨r, hr, by rw [hhost, htarget]⟩

end PingExchange

/-! ## The tables -/

theorem output_setOwn (t : Tables) (st : Store) (host target : String) :
    (t.setOwn st).results.output host target =
      if host = st.host ∧ target = st.target ∧ st.target ≠ "__proto__" then some st.output
      else t.results.output host target := by
  unfold Tables.setOwn Results.output setOutput
  dsimp only
  rw [lookup_insert_ite]
  by_cases hhost : host = st.host
  · have hold : ((t.results.lookup st.host).getD ∅).lookup target =
        (t.results.lookup st.host).bind fun targets => targets.lookup target := by
      cases t.results.lookup st.host <;> rfl
    subst hhost
    rw [if_pos rfl, Option.bind_some]
    by_cases hproto : st.target = "__proto__"
    · rw [if_pos hproto, hold, if_neg fun h => h.2.2 hproto]
    · rw [if_neg hproto, lookup_insert_ite, hold]
      by_cases htarget : target = st.target
      · rw [if_pos htarget, if_pos ⟨rfl, htarget, hproto⟩]
      · rw [if_neg htarget, if_neg fun h => htarget h.2.1]
  · rw [if_neg hhost, if_neg fun h => hhost h.1]

/-- There is no entry for an inherited name. -/
structure Plain (t : Tables) : Prop where
  hosts : ∀ name ∈ inherited, name ∉ t.results
  targets : ∀ host, t.results.output host "__proto__" = none

theorem plain_setOwn {t : Tables} {st : Store} (h : Plain t) (hhost : st.host ∉ inherited) :
    Plain (t.setOwn st) where
  hosts name hname hmem := by
    rcases (AList.mem_insert _).mp hmem with heq | hold
    · exact hhost (heq ▸ hname)
    · exact h.hosts name hname hold
  targets host := by
    rw [output_setOwn, if_neg fun h => h.2.2 h.2.1.symm]
    exact h.targets host

theorem setShared_results {t t' : Tables} {st : Store} (h : t.setShared st = .ok t') :
    t'.results = t.results := by
  unfold Tables.setShared at h
  split at h
  · split at h <;> cases h
    rfl
  · split at h <;> cases h
    rfl

theorem setMethod_results {t t' : Tables} {st : Store} (h : t.setMethod st = .ok t') :
    t'.results = t.results := by
  unfold Tables.setMethod at h
  split at h
  · cases h
  · split at h <;> cases h
    rfl

theorem setOn_eq {t t' : Tables} {object : Output} {st : Store} (h : t.setOn object st = .ok t') :
    t' = t := by
  unfold Tables.setOn at h
  split at h
  · split at h <;> cases h
    rfl
  · cases h
    rfl

/-- A store goes to a table of the host's own, or leaves the results as they are. -/
theorem store_results {t t' : Tables} {st : Store} (h : t.store st = .ok t') :
    (t' = t.setOwn st ∧ (st.host ∈ t.results ∨ st.host ∉ inherited)) ∨ t'.results = t.results := by
  unfold Tables.store at h
  split at h
  · next hown =>
      cases h
      exact .inl ⟨rfl, .inl hown⟩
  · split at h
    · exact .inr (congrArg Tables.results (setOn_eq h))
    · split at h
      · exact .inr (setShared_results h)
      · next hproto =>
          split at h
          · exact .inr (setMethod_results h)
          · next hmethod =>
              cases h
              exact .inl ⟨rfl, .inr (List.mem_cons.not.mpr (not_or.mpr ⟨hproto, hmethod⟩))⟩

theorem plain_store {t t' : Tables} {st : Store} (h : Plain t) (ht : t.store st = .ok t') :
    Plain t' := by
  rcases store_results ht with ⟨rfl, hown | hordinary⟩ | hsame
  · exact plain_setOwn h fun hhost => h.hosts _ hhost hown
  · exact plain_setOwn h hordinary
  · exact ⟨hsame ▸ h.hosts, hsame ▸ h.targets⟩

theorem plain_collect {c c' : Collected} {r : PingResult} (h : Plain c.tables)
    (hc : c.collect r = .ok c') : Plain c'.tables := by
  unfold Collected.collect at hc
  split at hc
  · cases hc
  · split at hc
    · next ht =>
        cases hc
        exact plain_store h ht
    · cases hc

/-- Whatever names the reply has. -/
theorem plain_fetch {typeError : String} {shared : GoMap Output} {pairs : List Combination}
    {response : PingResponse} {fetched : Fetched}
    (h : response.fetch typeError shared pairs = some fetched) : Plain fetched.collected.tables := by
  have hfail : ∀ {c : Collected} {err : String}, Plain c.tables →
      c.fail pairs err = some fetched → Plain fetched.collected.tables := by
    intro c err hc hfail
    have hplain : Plain (attempt Tables.store c.tables (errorStores pairs err)).1 :=
      attempt_invariant plain_store hc
    unfold Collected.fail at hfail
    split at hfail
    · next heq =>
        cases hfail
        rw [heq] at hplain
        exact hplain
    · next heq =>
        cases hfail
        rw [heq] at hplain
        exact hplain
    · cases hfail
  have hfresh : Plain { shared } := ⟨fun name _ => AList.notMem_empty name, fun host => rfl⟩
  unfold PingResponse.fetch at h
  split at h
  · next data =>
      have hplain : Plain (attempt Collected.collect ⟨{ shared }, ∅⟩ data).1.tables :=
        attempt_invariant (P := fun c : Collected => Plain c.tables) plain_collect hfresh
      split at h
      · next heq =>
          cases h
          rw [heq] at hplain
          exact hplain
      · next heq =>
          rw [heq] at hplain
          exact hfail hplain h
      · cases h
  · exact hfail hfresh h

/-- An output of ordinary stores is that of one with these names, and there is one
for each of them. -/
theorem output_foldl_put {stores : List Store}
    (hstores : ∀ st ∈ stores, st.host ∉ inherited ∧ st.target ≠ "__proto__")
    {host target : String} :
    (∀ output, (stores.foldl Tables.put { shared := ∅ }).results.output host target = some output →
      ∃ st ∈ stores, st.host = host ∧ st.target = target ∧ output = st.output) ∧
    ((∃ st ∈ stores, st.host = host ∧ st.target = target) →
      ((stores.foldl Tables.put { shared := ∅ }).results.output host target).isSome = true) := by
  induction stores using List.reverseRecOn with
  | nil =>
      constructor
      · intro output h
        cases h
      · rintro ⟨st, hst, _⟩
        cases hst
  | append_singleton stores st ih =>
      have hlast := hstores st (List.mem_append_right _ (List.mem_singleton_self st))
      have hbefore := fun st hst => hstores st (List.mem_append_left _ hst)
      have hfirst := ih hbefore
      rw [List.foldl_concat, put_ordinary (fun st hst => (hbefore st hst).1) hlast.1, output_setOwn]
      by_cases hnames : host = st.host ∧ target = st.target
      · rw [if_pos ⟨hnames.1, hnames.2, hlast.2⟩]
        refine ⟨fun output h => ?_, fun _ => rfl⟩
        exact ⟨st, by simp, hnames.1.symm, hnames.2.symm, (Option.some.inj h).symm⟩
      · rw [if_neg fun h => hnames ⟨h.1, h.2.1⟩]
        constructor
        · intro output h
          obtain ⟨st', hst', hrest⟩ := hfirst.1 output h
          exact ⟨st', by simp [hst'], hrest⟩
        · rintro ⟨st', hst', hhost, htarget⟩
          rcases List.mem_append.mp hst' with hst' | hst'
          · exact hfirst.2 ⟨st', hst', hhost, htarget⟩
          · rw [List.mem_singleton] at hst'
            subst hst'
            exact absurd ⟨hhost.symm, htarget.symm⟩ hnames

/-! ## The outputs -/

theorem propertyName_omitEmpty {s : String} (h : s ≠ "") : propertyName (omitEmpty s) = s := by
  simp [propertyName, omitEmpty, h]

theorem propertyName_ne_empty (s : String) : propertyName (omitEmpty s) ≠ "" := by
  unfold propertyName omitEmpty
  split
  · decide
  · next h => exact h

/-- An empty name becomes an ordinary one. -/
theorem propertyName_cases (s : String) :
    propertyName (omitEmpty s) = s ∨ propertyName (omitEmpty s) = "undefined" := by
  by_cases h : s = ""
  · exact .inr (by rw [h]; rfl)
  · exact .inl (propertyName_omitEmpty h)

namespace PingExchange

variable {e : PingExchange} {typeError : String}

/-- No entry of the reply has an inherited name where it matters. -/
def Ordinary (e : PingExchange) : Prop :=
  ∀ r ∈ e.reply, r.host ∉ inherited ∧ r.target ≠ "__proto__"

/-- The outputs have no place for inherited names. -/
theorem outputs_plain {host target : String} {output : Output}
    (h : (e.outputs typeError).output host target = some output) :
    host ∉ inherited ∧ target ≠ "__proto__" := by
  unfold outputs at h
  split at h
  · next fetched hfetch =>
      split at h
      · have hplain := plain_fetch hfetch
        obtain ⟨targets, htargets, _⟩ := Option.bind_eq_some_iff.mp h
        refine ⟨fun hname => hplain.hosts host hname ?_, ?_⟩
        · exact AList.lookup_isSome.mp (by rw [htargets]; rfl)
        · rintro rfl
          rw [hplain.targets host] at h
          cases h
      · cases h
  · cases h

theorem ordinary_of_keepsErrors (h : e.KeepsErrors typeError) : e.Ordinary := by
  intro r hr
  have hr' := h r hr
  split at hr'
  · exact outputs_plain hr'
  · obtain ⟨text, htext⟩ := hr'
    exact outputs_plain htext

theorem mem_data {element : PingResult} (h : element ∈ e.data) :
    ∃ r ∈ e.reply, element.toStore = ⟨propertyName (omitEmpty r.host),
      propertyName (omitEmpty r.target),
      .results (if r.results = [] then none else some (r.results.map .object))⟩ := by
  obtain ⟨r, hr, rfl⟩ := List.mem_map.mp h
  exact ⟨r, hr, rfl⟩

theorem stores_ordinary (h : e.Ordinary) :
    ∀ st ∈ e.data.map PingResult.toStore, st.host ∉ inherited ∧ st.target ≠ "__proto__" := by
  intro st hst
  obtain ⟨element, helement, rfl⟩ := List.mem_map.mp hst
  obtain ⟨r, hr, heq⟩ := mem_data helement
  obtain ⟨hhost, htarget⟩ := h r hr
  rw [heq]
  dsimp only
  constructor
  · rcases propertyName_cases r.host with hname | hname
    · rw [hname]
      exact hhost
    · rw [hname]
      decide
  · rcases propertyName_cases r.target with hname | hname
    · rw [hname]
      exact htarget
    · rw [hname]
      decide

/-- Such a reply is gone through to its end. -/
theorem fetch_reply (h : e.Ordinary) (typeError : String) :
    (PingResponse.reply e.data).fetch typeError ∅ e.pairs = some
      ⟨⟨(e.data.map PingResult.toStore).foldl Tables.put { shared := ∅ },
        e.data.foldl Collected.paint ∅⟩, true⟩ := by
  refine fetch_ordinary (fun r hr => (stores_ordinary h r.toStore (List.mem_map_of_mem hr)).1) ?_
  intro c hc
  obtain ⟨r, hr, hhost, _⟩ := mem_pairs.mp hc
  exact hhost ▸ (h r hr).1

theorem outputs_eq (h : e.Ordinary) (typeError : String) :
    e.outputs typeError =
      ((e.data.map PingResult.toStore).foldl Tables.put { shared := ∅ }).results := by
  unfold outputs
  rw [fetch_reply h]
  rfl

/-- What is kept for a pair is the results field of an element. -/
theorem output_source (hordinary : e.Ordinary) {host target : String} {output : Output}
    (h : (e.outputs typeError).output host target = some output) :
    ∃ r ∈ e.reply, propertyName (omitEmpty r.host) = host ∧
      propertyName (omitEmpty r.target) = target ∧
      output = .results (if r.results = [] then none else some (r.results.map .object)) := by
  rw [outputs_eq hordinary] at h
  obtain ⟨st, hst, hhost, htarget, rfl⟩ := (output_foldl_put (stores_ordinary hordinary)).1 output h
  obtain ⟨element, helement, rfl⟩ := List.mem_map.mp hst
  obtain ⟨r, hr, heq⟩ := mem_data helement
  rw [heq] at hhost htarget ⊢
  exact ⟨r, hr, hhost, htarget, rfl⟩

/-- Elements that are complete do not get in each other's way. -/
theorem output_complete (hordinary : e.Ordinary)
    (hnames : ∀ r ∈ e.reply, r.host ≠ "" ∧ r.target ≠ "") {r : WebUI.PingResults}
    (hr : r ∈ e.reply) :
    (e.outputs typeError).output r.host r.target =
      some (.results (if r.results = [] then none else some (r.results.map .object))) := by
  have hsome : ((e.outputs typeError).output r.host r.target).isSome = true := by
    rw [outputs_eq hordinary]
    refine (output_foldl_put (stores_ordinary hordinary)).2
      ⟨(PingResult.ofReply r).toStore, ?_, ?_, ?_⟩
    · exact List.mem_map_of_mem (List.mem_map_of_mem hr)
    · exact propertyName_omitEmpty (hnames r hr).1
    · exact propertyName_omitEmpty (hnames r hr).2
  obtain ⟨output, houtput⟩ := Option.isSome_iff_exists.mp hsome
  obtain ⟨r', hr', hhost, htarget, rfl⟩ := output_source hordinary houtput
  rw [propertyName_omitEmpty (hnames r' hr').1] at hhost
  rw [propertyName_omitEmpty (hnames r' hr').2] at htarget
  rw [houtput, reply_inj hr hr' hhost htarget]

/-- An exchange keeps its errors just when it has none, and no empty list, no empty
name and no inherited one besides. -/
theorem keepsErrors_iff (typeError : String) (e : PingExchange) :
    e.KeepsErrors typeError ↔
      ∀ r ∈ e.reply, r.host ≠ "" ∧ r.target ≠ "" ∧ r.error = "" ∧ r.results ≠ [] ∧
        r.host ∉ inherited ∧ r.target ≠ "__proto__" := by
  constructor
  · intro h
    have hordinary := ordinary_of_keepsErrors h
    have hkept : ∀ r ∈ e.reply, r.host ≠ "" ∧ r.target ≠ "" ∧ r.error = "" := by
      intro r hr
      have hr' := h r hr
      split at hr'
      · next herror =>
          obtain ⟨r', _, hhost, htarget, _⟩ := output_source hordinary hr'
          rw [← hhost, ← htarget]
          exact ⟨propertyName_ne_empty _, propertyName_ne_empty _, herror⟩
      · obtain ⟨text, htext⟩ := hr'
        obtain ⟨_, _, _, _, hresults⟩ := output_source hordinary htext
        cases hresults
    intro r hr
    obtain ⟨hhost, htarget, herror⟩ := hkept r hr
    refine ⟨hhost, htarget, herror, ?_, hordinary r hr⟩
    intro hempty
    have hr' := h r hr
    have hnames : ∀ r ∈ e.reply, r.host ≠ "" ∧ r.target ≠ "" :=
      fun r hr => ⟨(hkept r hr).1, (hkept r hr).2.1⟩
    rw [if_pos herror, output_complete hordinary hnames hr, if_pos hempty] at hr'
    cases hr'
  · intro h r hr
    obtain ⟨_, _, herror, hresults, _⟩ := h r hr
    have hordinary : e.Ordinary := fun r hr => (h r hr).2.2.2.2
    rw [if_pos herror, output_complete hordinary (fun r hr => ⟨(h r hr).1, (h r hr).2.1⟩) hr,
      if_neg hresults]

/-- A ping from a host that is not known. -/
def unknownHost : PingExchange where
  pairs := [⟨"node", "laptop"⟩]
  distinct := List.nodup_singleton _
  input := ⟨5, "disco", "200ms", [⟨[⟨"laptop", .error (WebUI.unknownHost "node")⟩], "node"⟩]⟩
  sent := by decide
  reply := [{ error := "failed to find adapter for host: node", host := "node", target := "laptop" }]
  replied := exists_reply (fun _ => some 200000000) rfl

/-- Its output has neither an error nor results. -/
theorem unknown_host_lost : ¬ unknownHost.KeepsErrors "" := by
  intro h
  obtain ⟨text, htext⟩ := h _ (List.mem_singleton_self _)
  obtain ⟨_, _, _, _, hresults⟩ := output_source (ordinary_of_keepsErrors h) htext
  cases hresults

end PingExchange

end TSymbiote.Frontend
