import TSymbiote.Lib.Json

/-! # Struct values as maps

Adapters answer most requests with a library's struct turned into a
`map[string]any` by reflection. `Value` is a Go value as reflection and
`encoding/json` see it; `structToMap` follows the reflection, and `Any.json` is
the document the encoder writes for its result.
-/

namespace TSymbiote.Shared

structure Field where
  name : String
  exported : Bool := true
  /-- The name in the JSON tag. -/
  tag : Option String := none
  omitEmpty : Bool := false
  deriving DecidableEq

def Field.jsonName (f : Field) : String := f.tag.getD f.name

/-- A `leaf` has none of the other kinds and is written as `json`; `marshaled`
is what a struct's own marshal method writes. -/
inductive Value where
  | leaf (json : Json)
  | nilSlice
  | slice (elems : List Value)
  | nilMap
  | map (entries : List (String × Value))
  | nilPointer
  | pointer (target : Value)
  | struct (marshaled : Option Json) (fields : List (Field × Value))

/-- A value of the map that `StructToMap` returns. -/
inductive Any where
  | map (entries : List (String × Any))
  | value (v : Value)

/-! ## `encoding/json` -/

/-- What `omitempty` leaves out. -/
def Value.isEmpty : Value → Bool
  | .leaf (.bool b) => !b
  | .leaf (.number digits) => digits = "0"
  | .leaf (.string s) => s = ""
  | .leaf .null | .nilSlice | .nilMap | .nilPointer => true
  | .slice elems => elems.isEmpty
  | .map entries => entries.isEmpty
  | _ => false

mutual

def Value.json : Value → Json
  | .leaf json => json
  | .nilSlice | .nilMap | .nilPointer => .null
  | .slice elems => .array (jsonElems elems)
  | .map entries => .object (jsonEntries entries)
  | .pointer target => target.json
  | .struct (some marshaled) _ => marshaled
  | .struct none fields => .object (jsonFields fields)

def jsonElems : List Value → List Json
  | [] => []
  | v :: vs => v.json :: jsonElems vs

def jsonEntries : List (String × Value) → List (String × Json)
  | [] => []
  | (k, v) :: es => (k, v.json) :: jsonEntries es

def jsonFields : List (Field × Value) → List (String × Json)
  | [] => []
  | (f, v) :: fs =>
      if f.exported = false ∨ f.tag = some "-" ∨ (f.omitEmpty = true ∧ v.isEmpty = true) then
        jsonFields fs
      else (f.jsonName, v.json) :: jsonFields fs

end

mutual

def Any.json : Any → Json
  | .map entries => .object (jsonAnys entries)
  | .value v => v.json

def jsonAnys : List (String × Any) → List (String × Json)
  | [] => []
  | (k, a) :: es => (k, a.json) :: jsonAnys es

end

/-! ## `StructToMap` -/

mutual

/-- The value stored for one exported field; none for a nil pointer. -/
def fieldAny : Value → Option Any
  | .nilPointer => none
  | .pointer (.struct _ fields) => some (.map (structFields fields))
  | .pointer target => some (.value target)
  | .struct _ fields => some (.map (structFields fields))
  | v => some (.value v)

def structFields : List (Field × Value) → List (String × Any)
  | [] => []
  | (f, v) :: fs =>
      match f.exported, fieldAny v with
      | true, some a => (f.name, a) :: structFields fs
      | _, _ => structFields fs

end

/-- None where reflection panics: the argument, or what it points to, is not a
struct. -/
def structToMap : Value → Option (List (String × Any))
  | .struct _ fields | .pointer (.struct _ fields) => some (structFields fields)
  | _ => none

end TSymbiote.Shared
