import TSymbiote.Shared.StructToMap

/-! # `StructToMap` by reflection

The function as it is written, over reflected values whose methods panic where
Go's do: `Type` on the zero value, `NumField` on anything but a struct, and
`Interface` on the zero value and on what comes from an unexported field. It
returns just where `structToMap` does, and returns the same map.
-/

namespace TSymbiote.Shared

/-- The kinds that are told apart; `other` is any further one. -/
inductive Kind where
  | invalid
  | pointer
  | struct
  | slice
  | map
  | other
  deriving DecidableEq, Repr

def Kind.name : Kind → String
  | .invalid => "zero"
  | .pointer => "ptr"
  | .struct => "struct"
  | .slice => "slice"
  | .map => "map"
  | .other => "other"

def Value.kind : Value → Kind
  | .leaf _ => .other
  | .nilSlice | .slice _ => .slice
  | .nilMap | .map _ => .map
  | .nilPointer | .pointer _ => .pointer
  | .struct _ _ => .struct

/-- A `reflect.Value`: the zero one, or a value, which is read only where it was
reached through an unexported field. -/
inductive Reflect where
  | zero
  | of (v : Value) (readOnly : Bool)

namespace Reflect

def kind : Reflect → Kind
  | zero => .invalid
  | of v _ => v.kind

def isValid : Reflect → Bool
  | zero => false
  | of _ _ => true

/-- The panic of a method that is called on a value of the wrong kind. -/
def valueError {α : Type} (method : String) (v : Reflect) : Except String α :=
  .error ("reflect: call of reflect.Value." ++ method ++ " on " ++ v.kind.name ++ " Value")

def elem : Reflect → Except String Reflect
  | of (.pointer target) readOnly => .ok (of target readOnly)
  | of .nilPointer _ => .ok zero
  | v => v.valueError "Elem"

/-- The type itself is only used for the fields. -/
def type : Reflect → Except String Unit
  | zero => zero.valueError "Type"
  | of _ _ => .ok ()

/-- `NumField`, and the fields of the type and the value for all the indexes. -/
def fields : Reflect → Except String (List (Field × Reflect))
  | of (.struct _ fields) readOnly =>
      .ok (fields.map fun e => (e.1, of e.2 (readOnly || !e.1.exported)))
  | v => v.valueError "NumField"

def interface : Reflect → Except String Value
  | zero => zero.valueError "Interface"
  | of _ true =>
      .error "reflect.Value.Interface: cannot return value obtained from unexported field or method"
  | of v false => .ok v

end Reflect

/-- The body of the loop: the entry of one field, if it gets one. -/
def reflectField (recurse : Value → Except String (List (String × Any))) (f : Field)
    (field : Reflect) : Except String (Option (String × Any)) :=
  if !f.exported then .ok none
  else do
    let tmpval ← if field.kind = .pointer then field.elem else .ok field
    if !tmpval.isValid then return none
    else if tmpval.kind = .struct then
      let obj ← tmpval.interface
      let fieldValue ← recurse obj
      return some (f.name, .map fieldValue)
    else
      let fieldValue ← tmpval.interface
      return some (f.name, .value fieldValue)

def reflectFields (recurse : Value → Except String (List (String × Any))) :
    List (Field × Reflect) → Except String (List (String × Any))
  | [] => .ok []
  | (f, field) :: rest => do
      let entry ← reflectField recurse f field
      let result ← reflectFields recurse rest
      return entry.toList ++ result

/-- `StructToMap` with the calls it makes to itself nested at most so deep. -/
def structToMapReflect : Nat → Value → Except String (List (String × Any))
  | 0, _ => .error "stack overflow"
  | depth + 1, obj => do
      let val := Reflect.of obj false
      let val ← if val.kind = .pointer then val.elem else .ok val
      val.type
      let fields ← val.fields
      reflectFields (structToMapReflect depth) fields

/-- How `StructToMap` panics on what is not a struct. -/
def panicText : Value → String
  | .nilPointer => "reflect: call of reflect.Value.Type on zero Value"
  | .pointer target => "reflect: call of reflect.Value.NumField on " ++ target.kind.name ++ " Value"
  | v => "reflect: call of reflect.Value.NumField on " ++ v.kind.name ++ " Value"

def fieldEntry (f : Field) (v : Value) : Option (String × Any) :=
  if f.exported then (fieldAny v).map fun a => (f.name, a) else none

theorem structFields_cons (f : Field) (v : Value) (fs : List (Field × Value)) :
    structFields ((f, v) :: fs) = (fieldEntry f v).toList ++ structFields fs := by
  unfold fieldEntry
  cases hexported : f.exported <;> cases hfield : fieldAny v <;>
    simp [structFields, hexported, hfield]

theorem structToMapReflect_struct (depth : Nat) (marshaled : Option Json)
    (fs : List (Field × Value)) :
    structToMapReflect (depth + 1) (.struct marshaled fs) =
      reflectFields (structToMapReflect depth)
        (fs.map fun e => (e.1, .of e.2 (false || !e.1.exported))) := rfl

/-- The struct that `StructToMap` goes into at a field. -/
def Value.nested : Value → Option (List (Field × Value))
  | .struct _ fields | .pointer (.struct _ fields) => some fields
  | _ => none

/-- Recursive calls that return what they should, on structs with the fields `fs`. -/
def Returns (recurse : Value → Except String (List (String × Any))) (fs : List (Field × Value)) :
    Prop :=
  ∀ marshaled, recurse (.struct marshaled fs) = .ok (structFields fs)

theorem reflectField_eq {recurse : Value → Except String (List (String × Any))} {v : Value}
    (hrecurse : ∀ fs, v.nested = some fs → Returns recurse fs) (f : Field) :
    reflectField recurse f (.of v (false || !f.exported)) = .ok (fieldEntry f v) := by
  unfold reflectField fieldEntry
  cases hf : f.exported with
  | false => rfl
  | true =>
      cases v with
      | struct marshaled fs =>
          have hmap := hrecurse fs rfl marshaled
          simp [Reflect.kind, Value.kind, Reflect.isValid, Reflect.interface, bind, Except.bind,
            hmap, fieldAny, pure, Except.pure]
      | pointer target =>
          cases target with
          | struct marshaled fs =>
              have hmap := hrecurse fs rfl marshaled
              simp [Reflect.kind, Value.kind, Reflect.elem, Reflect.isValid, Reflect.interface, bind,
                Except.bind, hmap, fieldAny, pure, Except.pure]
          | _ => rfl
      | _ => rfl

theorem reflectFields_eq {recurse : Value → Except String (List (String × Any))}
    {fs : List (Field × Value)}
    (hrecurse : ∀ e ∈ fs, ∀ gs, e.2.nested = some gs → Returns recurse gs) :
    reflectFields recurse (fs.map fun e => (e.1, .of e.2 (false || !e.1.exported))) =
      .ok (structFields fs) := by
  induction fs with
  | nil => rfl
  | cons e fs ih =>
      rcases e with ⟨f, v⟩
      obtain ⟨hv, hfs⟩ := List.forall_mem_cons.mp hrecurse
      rw [List.map_cons, reflectFields, reflectField_eq hv, ih hfs, structFields_cons]
      rfl

theorem returns_succ {n : Nat} {fs : List (Field × Value)}
    (h : ∀ depth, n ≤ depth → ∀ e ∈ fs, ∀ gs, e.2.nested = some gs →
      Returns (structToMapReflect depth) gs) :
    ∀ depth, n + 1 ≤ depth → Returns (structToMapReflect depth) fs := by
  intro depth hdepth marshaled
  obtain ⟨d, rfl⟩ := Nat.exists_eq_add_of_le' (Nat.le_trans (Nat.le_add_left 1 n) hdepth)
  rw [structToMapReflect_struct]
  exact reflectFields_eq (h d (Nat.le_of_succ_le_succ hdepth))

mutual

/-- With room for all the nested calls, each of them returns. -/
theorem nested_returns : ∀ v : Value, ∃ n, ∀ depth, n ≤ depth → ∀ gs, v.nested = some gs →
    Returns (structToMapReflect depth) gs
  | .struct _ fs => by
      obtain ⟨n, hn⟩ := fields_return fs
      exact ⟨n + 1, fun depth hdepth gs hgs => Option.some.inj hgs ▸ returns_succ hn depth hdepth⟩
  | .pointer (.struct _ fs) => by
      obtain ⟨n, hn⟩ := fields_return fs
      exact ⟨n + 1, fun depth hdepth gs hgs => Option.some.inj hgs ▸ returns_succ hn depth hdepth⟩
  | .leaf _ | .nilSlice | .slice _ | .nilMap | .map _ | .nilPointer => ⟨0, fun _ _ _ h => by cases h⟩
  | .pointer (.leaf _) | .pointer .nilSlice | .pointer (.slice _) | .pointer .nilMap
  | .pointer (.map _) | .pointer .nilPointer | .pointer (.pointer _) =>
      ⟨0, fun _ _ _ h => by cases h⟩

theorem fields_return : ∀ fs : List (Field × Value), ∃ n, ∀ depth, n ≤ depth → ∀ e ∈ fs,
    ∀ gs, e.2.nested = some gs → Returns (structToMapReflect depth) gs
  | [] => ⟨0, fun _ _ _ he => absurd he List.not_mem_nil⟩
  | (f, v) :: fs => by
      obtain ⟨n, hn⟩ := nested_returns v
      obtain ⟨m, hm⟩ := fields_return fs
      refine ⟨max n m, ?_⟩
      intro depth hdepth
      rw [List.forall_mem_cons]
      exact ⟨hn depth (Nat.le_trans (Nat.le_max_left n m) hdepth),
        hm depth (Nat.le_trans (Nat.le_max_right n m) hdepth)⟩

end

/-- By reflection, `StructToMap` returns what `structToMap` says, or panics. -/
theorem structToMapReflect_eq (v : Value) : ∃ n, ∀ depth, n ≤ depth → structToMapReflect depth v =
    match structToMap v with
    | some m => .ok m
    | none => .error (panicText v) := by
  have hstruct : ∀ fs, ∃ n, ∀ depth, n ≤ depth → Returns (structToMapReflect depth) fs := by
    intro fs
    obtain ⟨n, hn⟩ := fields_return fs
    exact ⟨n + 1, returns_succ hn⟩
  have hpanic : ∀ {w : Value}, structToMap w = none →
      (∀ d, structToMapReflect (d + 1) w = .error (panicText w)) →
      ∃ n, ∀ depth, n ≤ depth → structToMapReflect depth w =
        match structToMap w with
        | some m => .ok m
        | none => .error (panicText w) := by
    intro w hnone hsucc
    refine ⟨1, fun depth hdepth => ?_⟩
    obtain ⟨d, rfl⟩ := Nat.exists_eq_add_of_le' hdepth
    rw [hsucc, hnone]
  cases v with
  | struct marshaled fs =>
      obtain ⟨n, hn⟩ := hstruct fs
      exact ⟨n, fun depth hdepth => hn depth hdepth marshaled⟩
  | pointer target =>
      cases target with
      | struct marshaled fs =>
          obtain ⟨n, hn⟩ := hstruct fs
          refine ⟨n + 1, fun depth hdepth => ?_⟩
          obtain ⟨d, rfl⟩ := Nat.exists_eq_add_of_le' (Nat.le_trans (Nat.le_add_left 1 n) hdepth)
          -- the pointer is followed in the same call
          exact hn (d + 1) (Nat.le_of_succ_le hdepth) marshaled
      | _ => exact hpanic rfl fun _ => rfl
  | _ => exact hpanic rfl fun _ => rfl

end TSymbiote.Shared
