import TSymbiote.Frontend.PingReply
import TSymbiote.Lib.Maps

/-! # How far the loops of a ping get

Which assignments throw can be told from the names alone, as long as no name that
scripts rely on is assigned to `Object.prototype` and nothing that the language
provides is replaced. Then what `fetchPing` leaves behind is given by the stores
before the first one that throws.
-/

namespace TSymbiote.Frontend

/-! ## Stores -/

/-- What a store assigns to the prototype of all objects. -/
def Store.assigned (st : Store) : Option (String × Output) :=
  if st.host = "__proto__" ∧ st.target ≠ "__proto__" then some (st.target, st.output) else none

def Store.throws (st : Store) : Bool :=
  (st.host = "__proto__" ∧ st.target = "__proto__" ∧ st.output.isObject = true) ∨
    (st.host ∈ methods ∧ readOnly st.host st.target = true)

/-- The host gets a table of its own, or has one. -/
def Tables.Owns (t : Tables) (host : String) : Prop :=
  host ∈ t.results ∨ (t.inheritedTable host = none ∧ host ∉ inherited)

instance (t : Tables) (host : String) : Decidable (t.Owns host) :=
  inferInstanceAs (Decidable (host ∈ t.results ∨ (t.inheritedTable host = none ∧ host ∉ inherited)))

/-- What a store does that does not throw. -/
def Tables.put (t : Tables) (st : Store) : Tables where
  results := if t.Owns st.host then (t.setOwn st).results else t.results
  shared := insertAll t.shared st.assigned.toList

/-- The names that are properties of the prototype after some of the stores. -/
def assignedNames (shared : GoMap Output) (stores : List Store) : List String :=
  shared.keys ++ (stores.filterMap Store.assigned).map Prod.fst

/-- No name that is relied on is assigned, no function of the language is replaced,
and the length of what was assigned stays. -/
structure Untangled (shared : GoMap Output) (stores : List Store) : Prop where
  relied : ∀ name ∈ reliedOn, name ∉ assignedNames shared stores
  functions : ∀ st ∈ stores, st.host ∈ methods → st.target ∉ functionNames
  lengths : ∀ st ∈ stores, st.host ∈ assignedNames shared stores → st.target ≠ "length"

/-- Tables that some of the stores have led to. -/
structure Reached (shared : GoMap Output) (stores : List Store) (t : Tables) : Prop where
  results : ∀ name ∈ inherited, name ∉ t.results
  shared : ∀ name ∈ t.shared, name ∈ assignedNames shared stores

section Stores

variable {shared : GoMap Output} {stores : List Store} {t : Tables} {st : Store}

theorem fresh_reached (shared : GoMap Output) (stores : List Store) :
    Reached shared stores { shared } where
  results name _ := AList.notMem_empty name
  shared _ hname := List.mem_append_left _ hname

theorem assigned_of_ordinary (h : st.host ∉ inherited) : st.assigned = none :=
  if_neg fun hproto => (not_inherited h).1 hproto.1

theorem ordinary_not_throws (h : st.host ∉ inherited) : st.throws = false := by
  obtain ⟨hproto, hmethod⟩ := not_inherited h
  simp [Store.throws, hproto, hmethod]

theorem assigned_nil (h : ∀ st ∈ stores, st.host ∉ inherited) :
    stores.filterMap Store.assigned = [] :=
  List.filterMap_eq_nil_iff.mpr fun st hst => assigned_of_ordinary (h st hst)

theorem mem_assigned (hst : st ∈ stores) {name : String} {output : Output}
    (h : st.assigned = some (name, output)) : name ∈ assignedNames shared stores :=
  List.mem_append_right _ (List.mem_map_of_mem (List.mem_filterMap.mpr ⟨st, hst, h⟩))

theorem inherited_relied {name : String} (h : name ∈ inherited) : name ∈ reliedOn :=
  List.mem_cons_of_mem _ (List.mem_append_right _ h)

theorem inheritedTable_notMem {host : String} (h : host ∉ t.shared) :
    t.inheritedTable host = none := by
  unfold Tables.inheritedTable
  rw [AList.lookup_eq_none.mpr h]
  rfl

theorem inheritedTable_mem {host : String} {object : Output}
    (h : t.inheritedTable host = some object) : host ∈ t.shared := by
  by_contra hnot
  rw [inheritedTable_notMem hnot] at h
  cases h

/-- A store for a host with a table of its own assigns nothing else. -/
theorem put_owns (howns : t.Owns st.host) (hhost : st.host ∉ inherited) :
    t.put st = t.setOwn st := by
  unfold Tables.put
  rw [if_pos howns, assigned_of_ordinary hhost]
  rfl

/-- Any other host that has the name of no inherited property. -/
theorem put_nothing (hnot : ¬ t.Owns st.host) (hassigned : st.assigned = none) : t.put st = t := by
  unfold Tables.put
  rw [if_neg hnot, hassigned]
  rfl

theorem put_inherited (hown : st.host ∉ t.results) (hhost : st.host ∈ inherited) :
    t.put st = { t with shared := insertAll t.shared st.assigned.toList } := by
  have hnot : ¬ t.Owns st.host := not_or.mpr ⟨hown, fun h => h.2 hhost⟩
  unfold Tables.put
  rw [if_neg hnot]

theorem setShared_eq (h : Untangled shared stores) (hst : st ∈ stores) (hown : st.host ∉ t.results)
    (hhost : st.host = "__proto__") :
    t.setShared st = if st.throws = true then .error .typeError else .ok (t.put st) := by
  have hin : st.host ∈ inherited := hhost ▸ List.mem_cons_self
  have hmethod : st.host ∉ methods := hhost ▸ proto_not_method
  rw [put_inherited hown hin]
  unfold Tables.setShared
  by_cases htarget : st.target = "__proto__"
  · have hassigned : st.assigned = none := if_neg fun h => h.2 htarget
    rw [if_pos htarget, hassigned]
    unfold Store.throws
    cases st.output.isObject <;> simp [hhost, htarget, proto_not_method, insertAll]
  · have hassigned : st.assigned = some (st.target, st.output) := if_pos ⟨hhost, htarget⟩
    have hrelied : st.target ∉ reliedOn :=
      fun hmem => h.relied st.target hmem (mem_assigned hst hassigned)
    have hthrows : st.throws = false := by simp [Store.throws, htarget, hmethod]
    rw [if_neg htarget, if_neg hrelied, hthrows, hassigned]
    rfl

theorem setMethod_eq (h : Untangled shared stores) (hst : st ∈ stores) (hown : st.host ∉ t.results)
    (hhost : st.host ∈ methods) :
    t.setMethod st = if st.throws = true then .error .typeError else .ok (t.put st) := by
  have hproto : st.host ≠ "__proto__" := fun h => proto_not_method (h ▸ hhost)
  have hthrows : st.throws = readOnly st.host st.target := by simp [Store.throws, hproto, hhost]
  have hassigned : st.assigned = none := if_neg fun h => hproto h.1
  rw [put_inherited hown (List.mem_cons_of_mem _ hhost), hassigned]
  unfold Tables.setMethod
  rw [if_neg (h.functions st hst hhost), hthrows]
  rfl

/-- What a store does on tables that earlier ones have led to. -/
theorem store_eq (h : Untangled shared stores) (ht : Reached shared stores t) (hst : st ∈ stores) :
    t.store st = if st.throws = true then .error .typeError else .ok (t.put st) := by
  unfold Tables.store
  by_cases hhost : st.host ∈ inherited
  · have hown := ht.results _ hhost
    have hshared : st.host ∉ t.shared :=
      fun hmem => h.relied _ (inherited_relied hhost) (ht.shared _ hmem)
    rw [if_neg hown, inheritedTable_notMem hshared]
    dsimp only
    rcases List.mem_cons.mp hhost with hproto | hmethod
    · rw [if_pos hproto, setShared_eq h hst hown hproto]
    · have hproto : st.host ≠ "__proto__" := fun h => proto_not_method (h ▸ hmethod)
      rw [if_neg hproto, if_pos hmethod, setMethod_eq h hst hown hmethod]
  · obtain ⟨hproto, hmethod⟩ := not_inherited hhost
    rw [ordinary_not_throws hhost]
    by_cases hown : st.host ∈ t.results
    · rw [if_pos hown, put_owns (.inl hown) hhost]
      rfl
    · rw [if_neg hown]
      cases hobject : t.inheritedTable st.host with
      | none =>
          dsimp only
          rw [if_neg hproto, if_neg hmethod, put_owns (.inr ⟨hobject, hhost⟩) hhost]
          rfl
      | some object =>
          have hlength := h.lengths st hst (ht.shared _ (inheritedTable_mem hobject))
          have hnot : ¬ t.Owns st.host := by
            rintro (hmem | ⟨hnone, _⟩)
            · exact hown hmem
            · rw [hobject] at hnone
              cases hnone
          rw [put_nothing hnot (assigned_of_ordinary hhost)]
          unfold Tables.setOn
          cases object with
          | results _ => exact if_neg hlength
          | error _ => rfl

theorem put_reached (ht : Reached shared stores t) (hst : st ∈ stores) :
    Reached shared stores (t.put st) := by
  constructor
  · intro name hname hmem
    unfold Tables.put at hmem
    dsimp only at hmem
    split at hmem
    · next howns =>
        rcases (AList.mem_insert _).mp hmem with heq | hold
        · subst heq
          exact howns.elim (ht.results _ hname) fun h => h.2 hname
        · exact ht.results name hname hold
    · exact ht.results name hname hmem
  · intro name hname
    unfold Tables.put at hname
    rw [mem_insertAll] at hname
    rcases hname with hold | hnew
    · exact ht.shared name hold
    · obtain ⟨⟨name', output⟩, hassigned, rfl⟩ := List.mem_map.mp hnew
      exact mem_assigned hst (Option.mem_toList.mp hassigned)

theorem runs_store (h : Untangled shared stores) :
    Runs (Reached shared stores) stores Store.throws .typeError Tables.store Tables.put where
  ok t ht st hst hthrows := by rw [store_eq h ht hst, hthrows]; rfl
  error t ht st hst hthrows := by rw [store_eq h ht hst, hthrows]; rfl
  keeps t ht st hst _ := put_reached ht hst

/-- The prototype after the stores. -/
theorem shared_foldl_put (stores : List Store) (t : Tables) :
    (stores.foldl Tables.put t).shared = insertAll t.shared (stores.filterMap Store.assigned) := by
  induction stores generalizing t with
  | nil => rfl
  | cons st stores ih =>
      rw [List.foldl_cons, ih]
      unfold Tables.put
      dsimp only
      cases hassigned : st.assigned with
      | none =>
          rw [List.filterMap_cons_none hassigned]
          rfl
      | some e =>
          rw [List.filterMap_cons_some hassigned]
          rfl

/-- Hosts with names of their own have tables of their own, whatever comes first. -/
theorem put_ordinary (h : ∀ st ∈ stores, st.host ∉ inherited) (hhost : st.host ∉ inherited) :
    (stores.foldl Tables.put { shared := ∅ }).put st =
      (stores.foldl Tables.put { shared := ∅ }).setOwn st := by
  have hshared : (stores.foldl Tables.put { shared := ∅ }).shared = ∅ := by
    rw [shared_foldl_put, assigned_nil h]
    rfl
  refine put_owns (.inr ⟨inheritedTable_notMem ?_, hhost⟩) hhost
  rw [hshared]
  exact AList.notMem_empty st.host

end Stores

/-! ## Responses -/

def PingResult.throws (r : PingResult) : Bool := r.toStore.throws

section Responses

variable (typeError : String) (pairs : List Combination)

def PingResponse.data : PingResponse → List PingResult
  | .reply data => data
  | .failed _ => []

/-- All that may be stored. -/
def PingResponse.stores : PingResponse → List Store
  | .reply data => data.map PingResult.toStore ++ errorStores pairs typeError
  | .failed err => errorStores pairs err

/-- The stores before the first one that throws, in the loop over the reply and in
the `catch` clause, where it comes to this. -/
def PingResponse.executed : PingResponse → List Store
  | .reply data =>
      (heeded PingResult.throws data).map PingResult.toStore ++
        if data.any PingResult.throws = true then heeded Store.throws (errorStores pairs typeError)
        else []
  | .failed err => heeded Store.throws (errorStores pairs err)

/-- No store throws that the `catch` clause comes to. -/
def PingResponse.kept : PingResponse → Bool
  | .reply data =>
      !(data.any PingResult.throws && (errorStores pairs typeError).any Store.throws)
  | .failed err => !(errorStores pairs err).any Store.throws

end Responses

def Collected.put (c : Collected) (r : PingResult) : Collected :=
  ⟨c.tables.put r.toStore, Collected.paint c.newEdgeColors r⟩

section Loops

variable {shared : GoMap Output} {stores : List Store} {pairs : List Combination}
  {typeError err : String} {data : List PingResult} {c : Collected}

theorem foldl_put (data : List PingResult) (c : Collected) :
    data.foldl Collected.put c =
      ⟨(data.map PingResult.toStore).foldl Tables.put c.tables,
        data.foldl Collected.paint c.newEdgeColors⟩ := by
  induction data generalizing c with
  | nil => rfl
  | cons r data ih => exact ih (c.put r)

theorem runs_collect (h : Untangled shared stores) (hsub : ∀ r ∈ data, r.toStore ∈ stores) :
    Runs (fun c : Collected => Reached shared stores c.tables) data PingResult.throws .typeError
      Collected.collect Collected.put := by
  have hfree : ∀ c : Collected, Reached shared stores c.tables →
      fieldNames.any (· ∈ c.tables.shared) = false := by
    intro c hc
    rw [List.any_eq_false]
    intro name hname hmem
    exact h.relied name (List.mem_cons_of_mem _ (List.mem_append_left _ hname))
      (hc.shared name (of_decide_eq_true hmem))
  have hstep : ∀ c : Collected, Reached shared stores c.tables → ∀ r ∈ data,
      c.collect r = if r.throws = true then .error .typeError else .ok (c.put r) := by
    intro c hc r hr
    unfold Collected.collect
    rw [hfree c hc, store_eq h hc (hsub r hr)]
    unfold PingResult.throws
    cases r.toStore.throws <;> rfl
  constructor
  · intro c hc r hr hthrows
    rw [hstep c hc r hr, hthrows]
    rfl
  · intro c hc r hr hthrows
    rw [hstep c hc r hr, hthrows]
    rfl
  · intro c hc r hr _
    exact put_reached hc (hsub r hr)

theorem fail_eq (h : Untangled shared stores) (hsub : ∀ st ∈ errorStores pairs err, st ∈ stores)
    (hc : Reached shared stores c.tables) :
    c.fail pairs err = some
      ⟨⟨(heeded Store.throws (errorStores pairs err)).foldl Tables.put c.tables, c.newEdgeColors⟩,
        !(errorStores pairs err).any Store.throws⟩ := by
  have hrun := (((runs_store h).mono hsub).attempt hc).1
  unfold Collected.fail
  rw [hrun]
  cases (errorStores pairs err).any Store.throws <;> rfl

/-- What comes of a response in which nothing is entangled. -/
theorem fetch_eq {response : PingResponse}
    (h : Untangled shared (response.stores typeError pairs)) :
    response.fetch typeError shared pairs = some
      ⟨⟨(response.executed typeError pairs).foldl Tables.put { shared },
        (heeded PingResult.throws response.data).foldl Collected.paint ∅⟩,
        response.kept typeError pairs⟩ := by
  cases response with
  | failed err => exact fail_eq h (fun st hst => hst) (fresh_reached _ _)
  | reply data =>
      have hreply : ∀ r ∈ data, r.toStore ∈ PingResponse.stores typeError pairs (.reply data) :=
        fun r hr => List.mem_append_left _ (List.mem_map_of_mem hr)
      obtain ⟨hrun, hreached⟩ := (runs_collect h hreply).attempt (s := ⟨{ shared }, ∅⟩)
        (fresh_reached _ _)
      unfold PingResponse.fetch PingResponse.executed PingResponse.kept PingResponse.data
      dsimp only
      rw [hrun]
      cases hany : data.any PingResult.throws with
      | false =>
          rw [if_neg Bool.false_ne_true, if_neg Bool.false_ne_true, List.append_nil, foldl_put]
          rfl
      | true =>
          rw [if_pos rfl, if_pos rfl, List.foldl_append, Bool.true_and]
          change Collected.fail _ pairs typeError = _
          rw [fail_eq h (fun st hst => List.mem_append_right _ hst) hreached, foldl_put]

/-- Hosts with names of their own entangle nothing. -/
theorem untangled_of_ordinary (h : ∀ st ∈ stores, st.host ∉ inherited) : Untangled ∅ stores := by
  have hnone : assignedNames ∅ stores = [] := by
    unfold assignedNames
    rw [assigned_nil h]
    rfl
  constructor
  · intro name _
    rw [hnone]
    exact List.not_mem_nil
  · intro st hst hmethod
    exact absurd (List.mem_cons_of_mem _ hmethod) (h st hst)
  · intro st _ hmem
    rw [hnone] at hmem
    cases hmem

theorem mem_errorStores {st : Store} (h : st ∈ errorStores pairs err) :
    ∃ c ∈ pairs, c.hostId = st.host := by
  obtain ⟨e, he, rfl⟩ := List.mem_map.mp h
  obtain ⟨c, hc, rfl⟩ := List.mem_map.mp ((ungroup_grouped _).mem_iff.mp he)
  exact ⟨c, hc, rfl⟩

/-- A reply for such hosts is gone through to its end. -/
theorem fetch_ordinary (hdata : ∀ r ∈ data, r.toStore.host ∉ inherited)
    (hpairs : ∀ c ∈ pairs, c.hostId ∉ inherited) :
    (PingResponse.reply data).fetch typeError ∅ pairs = some
      ⟨⟨(data.map PingResult.toStore).foldl Tables.put { shared := ∅ },
        data.foldl Collected.paint ∅⟩, true⟩ := by
  have huntangled : Untangled ∅ ((PingResponse.reply data).stores typeError pairs) := by
    refine untangled_of_ordinary fun st hst => ?_
    rcases List.mem_append.mp hst with hreply | herror
    · obtain ⟨r, hr, rfl⟩ := List.mem_map.mp hreply
      exact hdata r hr
    · obtain ⟨c, hc, hhost⟩ := mem_errorStores herror
      exact hhost ▸ hpairs c hc
  have hany : data.any PingResult.throws = false :=
    any_eq_false fun r hr => ordinary_not_throws (hdata r hr)
  rw [fetch_eq huntangled]
  unfold PingResponse.executed PingResponse.kept PingResponse.data
  dsimp only
  rw [hany, heeded_of_not_any hany, if_neg Bool.false_ne_true, List.append_nil]
  rfl

end Loops

/-! ## Fills -/

/-- The last result of an element, if its pair has this key. -/
def PingResult.resultFor (edgeId : String) (r : PingResult) : Option Json :=
  if r.edgeId = edgeId then r.lastResult else none

/-- The last results of the pairs that have this key. -/
def alike (data : List PingResult) (edgeId : String) : List Json :=
  data.filterMap (PingResult.resultFor edgeId)

theorem lookup_paint (newEdgeColors : GoMap String) (r : PingResult) (edgeId : String) :
    (Collected.paint newEdgeColors r).lookup edgeId =
      match r.resultFor edgeId with
      | some lastResult => some (getEdgeColorFromResult lastResult)
      | none => newEdgeColors.lookup edgeId := by
  unfold Collected.paint PingResult.resultFor
  cases r.lastResult with
  | none => rw [ite_self]
  | some lastResult =>
      dsimp only
      rw [lookup_insert_ite]
      by_cases hid : r.edgeId = edgeId
      · rw [if_pos hid, if_pos hid.symm]
      · rw [if_neg hid, if_neg (Ne.symm hid)]

/-- The last of them gives the colour. -/
theorem lookup_foldl_paint (data : List PingResult) (edgeId : String) :
    (data.foldl Collected.paint ∅).lookup edgeId =
      (alike data edgeId).getLast?.map getEdgeColorFromResult := by
  induction data using List.reverseRecOn with
  | nil => rfl
  | append_singleton data r ih =>
      rw [List.foldl_concat, lookup_paint, ih]
      unfold alike
      rw [List.filterMap_append]
      cases hlast : r.resultFor edgeId with
      | none => rw [List.filterMap_cons_none hlast, List.filterMap_nil, List.append_nil]
      | some lastResult =>
          rw [List.filterMap_cons_some hlast, List.filterMap_nil, List.getLast?_concat]
          rfl

section Fills

variable (typeError : String) (pairs : List Combination) (response : PingResponse)

/-- What is assigned to `Object.prototype` under the key of an edge in the end. -/
def PingResponse.written (edge : Edge) : Option Output :=
  ((response.executed typeError pairs).filterMap Store.assigned).reverse.lookup edge.edgeId

end Fills

end TSymbiote.Frontend
