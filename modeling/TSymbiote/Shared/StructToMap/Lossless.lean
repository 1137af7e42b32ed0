import TSymbiote.Shared.StructToMap

/-! # What the map of a struct loses

`StructToMap` goes into the structs in a struct's fields, also into those that
write their own JSON text, of which only the exported fields then remain. Over
types with values, `Lossless` is the condition on a struct type under which the
document of the map tells apart what plain encoding tells apart.
-/

namespace TSymbiote.Shared

/-- A struct type is given with whether it writes its own text; `leaf` is any
type of another kind. -/
inductive GoType where
  | leaf
  | slice (elem : GoType)
  | map (elem : GoType)
  | pointer (target : GoType)
  | struct (marshals : Bool) (fields : List (Field × GoType))

mutual

def Value.HasType : Value → GoType → Prop
  | .leaf _, .leaf => True
  | .nilSlice, .slice _ => True
  | .slice elems, .slice elem => ∀ v ∈ elems, v.HasType elem
  | .nilMap, .map _ => True
  | .map entries, .map elem => ∀ e ∈ entries, e.2.HasType elem
  | .nilPointer, .pointer _ => True
  | .pointer v, .pointer target => v.HasType target
  | .struct marshaled fields, .struct marshals types =>
      marshaled.isSome = marshals ∧ FieldsHaveType fields types
  | _, _ => False

def FieldsHaveType : List (Field × Value) → List (Field × GoType) → Prop
  | [], [] => True
  | (f, v) :: fs, (g, t) :: ts => f = g ∧ v.HasType t ∧ FieldsHaveType fs ts
  | _, _ => False

end

mutual

/-- The exported fields of each struct have different names. -/
def GoType.Distinct : GoType → Prop
  | .leaf => True
  | .slice elem => elem.Distinct
  | .map elem => elem.Distinct
  | .pointer target => target.Distinct
  | .struct _ fields => DistinctFields fields

def DistinctFields : List (Field × GoType) → Prop
  | [] => True
  | (f, t) :: ts =>
      (f.exported = true → ∀ e ∈ ts, e.1.exported = true → e.1.name ≠ f.name) ∧ t.Distinct ∧
        DistinctFields ts

end

mutual

/-- No struct that `StructToMap` goes into writes its own text where plain
encoding shows it. -/
def GoType.Plain : GoType → Prop
  | .struct marshals fields => marshals = false ∧ PlainFields fields
  | .pointer (.struct marshals fields) => marshals = false ∧ PlainFields fields
  | _ => True

def PlainFields : List (Field × GoType) → Prop
  | [] => True
  | (f, t) :: ts => (f.exported = true → f.tag ≠ some "-" → t.Plain) ∧ PlainFields ts

end

def Value.fields : Value → List (Field × Value)
  | .struct _ fields => fields
  | _ => []

theorem keys_exported {fs : List (Field × Value)} {ts : List (Field × GoType)} {k : String}
    (hfs : FieldsHaveType fs ts) (hk : k ∈ (jsonAnys (structFields fs)).map Prod.fst) :
    ∃ e ∈ ts, e.1.exported = true ∧ e.1.name = k := by
  induction fs generalizing ts with
  | nil => simp [structFields, jsonAnys] at hk
  | cons e fs ih =>
      rcases e with ⟨f, v⟩
      cases ts with
      | nil => exact hfs.elim
      | cons e ts =>
          rcases e with ⟨g, t⟩
          rcases hfs with ⟨rfl, _, hfs⟩
          have hrest : k ∈ (jsonAnys (structFields fs)).map Prod.fst →
              ∃ e ∈ (f, t) :: ts, e.1.exported = true ∧ e.1.name = k := by
            intro hk
            obtain ⟨e, he, hname⟩ := ih hfs hk
            exact ⟨e, List.mem_cons_of_mem _ he, hname⟩
          simp only [structFields] at hk
          split at hk
          · next hexported _ =>
              simp only [jsonAnys, List.map_cons, List.mem_cons] at hk
              rcases hk with rfl | hk
              · exact ⟨(f, t), List.mem_cons_self, hexported, rfl⟩
              · exact hrest hk
          · exact hrest hk

/-- Equal documents agree field by field, as the names tell the fields apart. -/
theorem documents_cons {f : Field} {v w : Value} {fs gs : List (Field × Value)}
    {ts : List (Field × GoType)}
    (hfresh : f.exported = true → ∀ e ∈ ts, e.1.exported = true → e.1.name ≠ f.name)
    (hfs : FieldsHaveType fs ts) (hgs : FieldsHaveType gs ts)
    (h : jsonAnys (structFields ((f, v) :: fs)) = jsonAnys (structFields ((f, w) :: gs))) :
    (f.exported = true → (fieldAny v).map Any.json = (fieldAny w).map Any.json) ∧
      jsonAnys (structFields fs) = jsonAnys (structFields gs) := by
  cases hexported : f.exported with
  | false =>
      simp only [structFields, hexported] at h
      exact ⟨fun hcontra => absurd hcontra Bool.false_ne_true, h⟩
  | true =>
      have habsent : ∀ {fs} (j : Json) rest, FieldsHaveType fs ts →
          jsonAnys (structFields fs) ≠ (f.name, j) :: rest := by
        intro fs j rest hfs heq
        have hmem : f.name ∈ (jsonAnys (structFields fs)).map Prod.fst := by
          rw [heq]
          exact List.mem_cons_self
        obtain ⟨e, he, hshown, hname⟩ := keys_exported hfs hmem
        exact hfresh hexported e he hshown hname
      simp only [structFields, hexported] at h
      cases hv : fieldAny v with
      | none =>
          cases hw : fieldAny w with
          | none =>
              simp only [hv, hw] at h
              exact ⟨fun _ => rfl, h⟩
          | some b =>
              simp only [hv, hw, jsonAnys] at h
              exact absurd h (habsent _ _ hfs)
      | some a =>
          cases hw : fieldAny w with
          | none =>
              simp only [hv, hw, jsonAnys] at h
              exact absurd h.symm (habsent _ _ hgs)
          | some b =>
              simp only [hv, hw, jsonAnys, List.cons.injEq, Prod.mk.injEq, true_and] at h
              exact ⟨fun _ => congrArg some h.1, h.2⟩

/-! ## Types that lose nothing -/

/-- A struct under a pointer is written like the struct. -/
theorem struct_json {marshaled : Option Json} {fs : List (Field × Value)}
    (h : marshaled.isSome = false) : (Value.struct marshaled fs).json = .object (jsonFields fs) := by
  cases marshaled with
  | none => rw [Value.json]
  | some j => cases h

theorem jsonElems_isEmpty (vs : List Value) : (jsonElems vs).isEmpty = vs.isEmpty := by
  cases vs <;> rfl

theorem jsonEntries_isEmpty (es : List (String × Value)) : (jsonEntries es).isEmpty = es.isEmpty := by
  cases es <;> rfl

theorem leaf_json {v w : Value} (hv : v.HasType .leaf) (hw : w.HasType .leaf)
    (h : (fieldAny v).map Any.json = (fieldAny w).map Any.json) :
    v.json = w.json ∧ v.isEmpty = w.isEmpty := by
  cases v <;> cases w <;> simp_all [Value.HasType, fieldAny, Any.json, Value.json]

theorem slice_json {elem : GoType} {v w : Value} (hv : v.HasType (.slice elem))
    (hw : w.HasType (.slice elem)) (h : (fieldAny v).map Any.json = (fieldAny w).map Any.json) :
    v.json = w.json ∧ v.isEmpty = w.isEmpty := by
  cases v with
  | nilSlice =>
      cases w with
      | nilSlice => exact ⟨rfl, rfl⟩
      | slice elems => simp [fieldAny, Any.json, Value.json] at h
      | _ => exact hw.elim
  | slice elems =>
      cases w with
      | nilSlice => simp [fieldAny, Any.json, Value.json] at h
      | slice elems' =>
          simp only [fieldAny, Any.json, Value.json, Option.map_some, Option.some.injEq,
            Json.array.injEq] at h
          simp only [Value.json, Value.isEmpty, h, ← jsonElems_isEmpty, and_self]
      | _ => exact hw.elim
  | _ => exact hv.elim

theorem map_json {elem : GoType} {v w : Value} (hv : v.HasType (.map elem))
    (hw : w.HasType (.map elem)) (h : (fieldAny v).map Any.json = (fieldAny w).map Any.json) :
    v.json = w.json ∧ v.isEmpty = w.isEmpty := by
  cases v with
  | nilMap =>
      cases w with
      | nilMap => exact ⟨rfl, rfl⟩
      | map entries => simp [fieldAny, Any.json, Value.json] at h
      | _ => exact hw.elim
  | map entries =>
      cases w with
      | nilMap => simp [fieldAny, Any.json, Value.json] at h
      | map entries' =>
          simp only [fieldAny, Any.json, Value.json, Option.map_some, Option.some.injEq,
            Json.object.injEq] at h
          simp only [Value.json, Value.isEmpty, h, ← jsonEntries_isEmpty, and_self]
      | _ => exact hw.elim
  | _ => exact hv.elim

/-- A pointer to what is not a struct is stored as the value it points to. -/
theorem target_json {target : GoType} (htarget : ∀ marshals types, target ≠ .struct marshals types)
    {v w : Value} (hv : v.HasType (.pointer target)) (hw : w.HasType (.pointer target))
    (h : (fieldAny v).map Any.json = (fieldAny w).map Any.json) :
    v.json = w.json ∧ v.isEmpty = w.isEmpty := by
  have hstored : ∀ x : Value, x.HasType target → (fieldAny (.pointer x)).map Any.json = some x.json := by
    intro x hx
    cases x with
    | struct marshaled fields =>
        cases target with
        | struct marshals types => exact absurd rfl (htarget marshals types)
        | _ => exact hx.elim
    | _ => rfl
  cases v with
  | nilPointer =>
      cases w with
      | nilPointer => exact ⟨rfl, rfl⟩
      | pointer y =>
          rw [hstored y hw] at h
          cases h
      | _ => exact hw.elim
  | pointer x =>
      cases w with
      | nilPointer =>
          rw [hstored x hv] at h
          cases h
      | pointer y =>
          rw [hstored x hv, hstored y hw, Option.some.injEq] at h
          exact ⟨by rw [Value.json, Value.json, h], rfl⟩
      | _ => exact hw.elim
  | _ => exact hv.elim

theorem struct_fields {marshals : Bool} {types : List (Field × GoType)} {v : Value}
    (hv : v.HasType (.struct marshals types)) :
    ∃ marshaled fs, v = .struct marshaled fs ∧ marshaled.isSome = marshals ∧
      FieldsHaveType fs types := by
  cases v with
  | struct marshaled fs => exact ⟨marshaled, fs, rfl, hv.1, hv.2⟩
  | _ => exact hv.elim

mutual

theorem plain_json : ∀ (t : GoType), t.Plain → t.Distinct → ∀ v w : Value, v.HasType t →
    w.HasType t → (fieldAny v).map Any.json = (fieldAny w).map Any.json →
    v.json = w.json ∧ v.isEmpty = w.isEmpty
  | .leaf, _, _, _, _, hv, hw, h => leaf_json hv hw h
  | .slice _, _, _, _, _, hv, hw, h => slice_json hv hw h
  | .map _, _, _, _, _, hv, hw, h => map_json hv hw h
  | .struct marshals types, hplain, hdistinct, v, w, hv, hw, h => by
      obtain ⟨marshaled, fs, rfl, hm, hfs⟩ := struct_fields hv
      obtain ⟨marshaled', gs, rfl, hm', hgs⟩ := struct_fields hw
      simp only [fieldAny, Option.map_some, Any.json, Option.some.injEq, Json.object.injEq] at h
      have hsame := plainFields_json types hplain.2 hdistinct fs gs hfs hgs h
      rw [hplain.1] at hm hm'
      rw [struct_json hm, struct_json hm', hsame]
      exact ⟨rfl, rfl⟩
  | .pointer (.struct marshals types), hplain, hdistinct, v, w, hv, hw, h => by
      match v, w, hv, hw, h with
      | .nilPointer, .nilPointer, _, _, _ => exact ⟨rfl, rfl⟩
      | .nilPointer, .pointer y, _, hw, h =>
          obtain ⟨_, gs, rfl, _⟩ := struct_fields hw
          cases h
      | .pointer x, .nilPointer, hv, _, h =>
          obtain ⟨_, fs, rfl, _⟩ := struct_fields hv
          cases h
      | .pointer x, .pointer y, hv, hw, h =>
          obtain ⟨marshaled, fs, rfl, hm, hfs⟩ := struct_fields hv
          obtain ⟨marshaled', gs, rfl, hm', hgs⟩ := struct_fields hw
          simp only [fieldAny, Option.map_some, Any.json, Option.some.injEq, Json.object.injEq] at h
          have hsame := plainFields_json types hplain.2 hdistinct fs gs hfs hgs h
          rw [hplain.1] at hm hm'
          rw [Value.json, Value.json, struct_json hm, struct_json hm', hsame]
          exact ⟨rfl, rfl⟩
  | .pointer .leaf, _, _, _, _, hv, hw, h => target_json (by simp) hv hw h
  | .pointer (.slice _), _, _, _, _, hv, hw, h => target_json (by simp) hv hw h
  | .pointer (.map _), _, _, _, _, hv, hw, h => target_json (by simp) hv hw h
  | .pointer (.pointer _), _, _, _, _, hv, hw, h => target_json (by simp) hv hw h

theorem plainFields_json : ∀ (ts : List (Field × GoType)), PlainFields ts → DistinctFields ts →
    ∀ fs gs : List (Field × Value), FieldsHaveType fs ts → FieldsHaveType gs ts →
    jsonAnys (structFields fs) = jsonAnys (structFields gs) → jsonFields fs = jsonFields gs
  | [], _, _, [], [], _, _, _ => rfl
  | (_, t) :: ts, hplain, hdistinct, (_, v) :: fs, (f, w) :: gs, hfs, hgs, h => by
      rcases hfs with ⟨rfl, hv, hfs⟩
      rcases hgs with ⟨rfl, hw, hgs⟩
      rcases hplain with ⟨hplain, hplains⟩
      rcases hdistinct with ⟨hfresh, hdistinct, hdistincts⟩
      obtain ⟨hfield, hrest⟩ := documents_cons hfresh hfs hgs h
      have hsame := plainFields_json ts hplains hdistincts fs gs hfs hgs hrest
      by_cases hshown : f.exported = true ∧ f.tag ≠ some "-"
      · obtain ⟨hjson, hempty⟩ :=
          plain_json t (hplain hshown.1 hshown.2) hdistinct v w hv hw (hfield hshown.1)
        simp only [jsonFields, hjson, hempty, hsame]
      · have hhidden : f.exported = false ∨ f.tag = some "-" := by
          rw [not_and_or, Bool.not_eq_true, not_not] at hshown
          exact hshown
        rcases hhidden with hhidden | hhidden <;> simp [jsonFields, hhidden, hsame]

end

mutual

/-- A value all of whose own texts are `text`. -/
def GoType.sample (text : String) : GoType → Value
  | .leaf => .leaf .null
  | .slice _ => .nilSlice
  | .map _ => .nilMap
  | .pointer (.struct marshals types) =>
      .pointer (.struct (if marshals then some (.string text) else none) (sampleFields text types))
  | .pointer _ => .nilPointer
  | .struct marshals types =>
      .struct (if marshals then some (.string text) else none) (sampleFields text types)

def sampleFields (text : String) : List (Field × GoType) → List (Field × Value)
  | [] => []
  | (f, t) :: ts => (f, t.sample text) :: sampleFields text ts

end

mutual

theorem sample_hasType (text : String) : ∀ t : GoType, (t.sample text).HasType t
  | .leaf => trivial
  | .slice _ => trivial
  | .map _ => trivial
  | .pointer .leaf => trivial
  | .pointer (.slice _) => trivial
  | .pointer (.map _) => trivial
  | .pointer (.pointer _) => trivial
  | .pointer (.struct marshals types) => by
      refine ⟨?_, sampleFields_haveType text types⟩
      cases marshals <;> rfl
  | .struct marshals types => by
      refine ⟨?_, sampleFields_haveType text types⟩
      cases marshals <;> rfl

theorem sampleFields_haveType (text : String) :
    ∀ ts : List (Field × GoType), FieldsHaveType (sampleFields text ts) ts
  | [] => trivial
  | (_, t) :: ts => ⟨rfl, sample_hasType text t, sampleFields_haveType text ts⟩

end

mutual

/-- The map has nothing of the texts. -/
theorem fieldAny_sample (a b : String) : ∀ t : GoType, fieldAny (t.sample a) = fieldAny (t.sample b)
  | .leaf => rfl
  | .slice _ => rfl
  | .map _ => rfl
  | .pointer .leaf => rfl
  | .pointer (.slice _) => rfl
  | .pointer (.map _) => rfl
  | .pointer (.pointer _) => rfl
  | .pointer (.struct _ types) => by
      simp only [GoType.sample, fieldAny, structFields_sample a b types]
  | .struct _ types => by
      simp only [GoType.sample, fieldAny, structFields_sample a b types]

theorem structFields_sample (a b : String) :
    ∀ ts : List (Field × GoType), structFields (sampleFields a ts) = structFields (sampleFields b ts)
  | [] => rfl
  | (_, t) :: ts => by
      simp only [sampleFields, structFields, fieldAny_sample a b t, structFields_sample a b ts]

end

/-- Either nothing of a sample depends on the text, or it is shown. -/
theorem sample_cases : ∀ t : GoType, (t.Plain ∧ ∀ a b, t.sample a = t.sample b) ∨
    ∀ a, (t.sample a).isEmpty = false ∧ (t.sample a).json.prune ≠ .null
  | .leaf => .inl ⟨trivial, fun _ _ => rfl⟩
  | .slice _ => .inl ⟨trivial, fun _ _ => rfl⟩
  | .map _ => .inl ⟨trivial, fun _ _ => rfl⟩
  | .pointer .leaf => .inl ⟨trivial, fun _ _ => rfl⟩
  | .pointer (.slice _) => .inl ⟨trivial, fun _ _ => rfl⟩
  | .pointer (.map _) => .inl ⟨trivial, fun _ _ => rfl⟩
  | .pointer (.pointer _) => .inl ⟨trivial, fun _ _ => rfl⟩
  | .pointer (.struct marshals types) => .inr fun a => by
      cases marshals <;> simp [GoType.sample, Value.isEmpty, Value.json, Json.prune]
  | .struct marshals types => .inr fun a => by
      cases marshals <;> simp [GoType.sample, Value.isEmpty, Value.json, Json.prune]

theorem jsonFields_cons (f : Field) (v : Value) (fs : List (Field × Value)) :
    jsonFields ((f, v) :: fs) = jsonFields [(f, v)] ++ jsonFields fs := by
  simp only [jsonFields]
  split <;> rfl

theorem jsonFields_hidden {f : Field} (h : ¬ (f.exported = true ∧ f.tag ≠ some "-")) (v : Value) :
    jsonFields [(f, v)] = [] := by
  rw [not_and_or, Bool.not_eq_true, not_not] at h
  rcases h with h | h <;> simp [jsonFields, h]

theorem jsonFields_shown {f : Field} {v : Value} (h : f.exported = true ∧ f.tag ≠ some "-")
    (hempty : v.isEmpty = false) (hnull : v.json.prune ≠ .null) :
    Json.pruneMembers (jsonFields [(f, v)]) = [(f.jsonName, v.json.prune)] := by
  simp only [jsonFields, h.1, h.2, hempty]
  cases hprune : v.json.prune <;> simp_all [Json.pruneMembers]

mutual

/-- Two texts give two documents. -/
theorem sample_lossy {a b : String} (hne : a ≠ b) : ∀ t : GoType, ¬ t.Plain →
    (t.sample a).json.prune ≠ (t.sample b).json.prune
  | .leaf, h => absurd trivial h
  | .slice _, h => absurd trivial h
  | .map _, h => absurd trivial h
  | .pointer .leaf, h => absurd trivial h
  | .pointer (.slice _), h => absurd trivial h
  | .pointer (.map _), h => absurd trivial h
  | .pointer (.pointer _), h => absurd trivial h
  | .pointer (.struct true types), _ => by
      simpa [GoType.sample, Value.json, Json.prune] using hne
  | .pointer (.struct false types), h => by
      have htypes := sampleFields_lossy hne types fun hplain => h ⟨rfl, hplain⟩
      simpa [GoType.sample, Value.json, Json.prune] using htypes
  | .struct true types, _ => by
      simpa [GoType.sample, Value.json, Json.prune] using hne
  | .struct false types, h => by
      have htypes := sampleFields_lossy hne types fun hplain => h ⟨rfl, hplain⟩
      simpa [GoType.sample, Value.json, Json.prune] using htypes

theorem sampleFields_lossy {a b : String} (hne : a ≠ b) : ∀ ts : List (Field × GoType),
    ¬ PlainFields ts → Json.pruneMembers (jsonFields (sampleFields a ts)) ≠
      Json.pruneMembers (jsonFields (sampleFields b ts))
  | [], h => absurd trivial h
  | (f, t) :: ts, h => by
      intro heq
      simp only [sampleFields] at heq
      rw [jsonFields_cons, jsonFields_cons f (t.sample b), Json.pruneMembers_append,
        Json.pruneMembers_append] at heq
      have hrest : PlainFields ts → ¬ (f.exported = true → f.tag ≠ some "-" → t.Plain) :=
        fun hts hplain => h ⟨hplain, hts⟩
      rcases sample_cases t with ⟨hplain, hsame⟩ | hshown
      · rw [hsame a b] at heq
        have htail := List.append_cancel_left heq
        exact sampleFields_lossy hne ts (fun hts => hrest hts fun _ _ => hplain) htail
      · by_cases hvisible : f.exported = true ∧ f.tag ≠ some "-"
        · rw [jsonFields_shown hvisible (hshown a).1 (hshown a).2,
            jsonFields_shown hvisible (hshown b).1 (hshown b).2] at heq
          simp only [List.singleton_append, List.cons.injEq, Prod.mk.injEq, true_and] at heq
          by_cases hts : PlainFields ts
          · have ht : ¬ t.Plain := fun hplain => hrest hts fun _ _ => hplain
            exact sample_lossy hne t ht heq.1
          · exact sampleFields_lossy hne ts hts heq.2
        · rw [jsonFields_hidden hvisible, jsonFields_hidden hvisible] at heq
          have hts : ¬ PlainFields ts := fun hts => hrest hts fun he ht => absurd ⟨he, ht⟩ hvisible
          exact sampleFields_lossy hne ts hts heq

end

end TSymbiote.Shared
