import TSymbiote.Lib.Maps

/-! # Decoded JSON

JSON documents as trees, the maps a decoder makes of objects (the last of equal
keys wins), and the checked forms of the type assertions on decoded values.
-/

namespace TSymbiote

inductive Json where
  | null
  | bool (b : Bool)
  | number (digits : String)
  | string (s : String)
  | array (elems : List Json)
  | object (members : List (String × Json))

namespace Json

/-- The entries of a decoded object: every key once, with its last value. -/
def lastWins : List (String × Json) → List (String × Json)
  | [] => []
  | (k, v) :: rest => if k ∈ rest.map Prod.fst then lastWins rest else (k, v) :: lastWins rest

/-- `v.(map[string]any)` -/
def asMap : Json → Option (List (String × Json))
  | object members => some (lastWins members)
  | _ => none

/-- `v.(string)` -/
def asString : Json → Option String
  | string s => some s
  | _ => none

/-- `m[k]` on a `map[string]any`: a missing key reads as the nil interface. -/
def get (m : List (String × Json)) (k : String) : Json := (m.lookup k).getD null

/-- Whether the number is zero, by the digits of its mantissa. -/
def isZero (digits : String) : Bool :=
  (digits.toList.takeWhile fun c => c ≠ 'e' && c ≠ 'E').all fun c => !('1' ≤ c && c ≤ '9')

/-- What a condition in a script makes of the value; an undefined one reads like
null. -/
def truthy : Json → Bool
  | null => false
  | bool b => b
  | number digits => !isZero digits
  | string s => s ≠ ""
  | array _ => true
  | object _ => true

/-- The property of a value in a script. Only objects have ones that are read. -/
def field (v : Json) (k : String) : Json :=
  match v with
  | object members => get (lastWins members) k
  | _ => null

def kind : Json → String
  | null => "null"
  | bool _ => "bool"
  | number _ => "number"
  | string _ => "string"
  | array _ => "array"
  | object _ => "object"

mutual

/-- The document without the members that are null. -/
def prune : Json → Json
  | array elems => array (pruneElems elems)
  | object members => object (pruneMembers members)
  | v => v

def pruneElems : List Json → List Json
  | [] => []
  | v :: vs => prune v :: pruneElems vs

def pruneMembers : List (String × Json) → List (String × Json)
  | [] => []
  | (k, v) :: members =>
      match prune v with
      | null => pruneMembers members
      | w => (k, w) :: pruneMembers members

end

theorem pruneMembers_append (members members' : List (String × Json)) :
    pruneMembers (members ++ members') = pruneMembers members ++ pruneMembers members' := by
  induction members with
  | nil => rfl
  | cons e members ih =>
      rcases e with ⟨k, v⟩
      simp only [List.cons_append, pruneMembers, ih]
      split <;> rfl

theorem lastWins_keys (m : List (String × Json)) (k : String) :
    k ∈ (lastWins m).map Prod.fst ↔ k ∈ m.map Prod.fst := by
  induction m with
  | nil => simp [lastWins]
  | cons e rest ih =>
      rcases e with ⟨k', v⟩
      by_cases hk : k' ∈ rest.map Prod.fst
      · rw [lastWins, if_pos hk, ih, List.map_cons, List.mem_cons]
        exact ⟨.inr, fun h => h.elim (fun h => h ▸ hk) id⟩
      · rw [lastWins, if_neg hk, List.map_cons, List.map_cons, List.mem_cons, List.mem_cons, ih]

theorem lastWins_cons {k : String} {v : Json} {m : List (String × Json)}
    (hk : k ∉ m.map Prod.fst) : lastWins ((k, v) :: m) = (k, v) :: lastWins m := by
  rw [lastWins, if_neg hk]

theorem lastWins_of_nodup {m : List (String × Json)} (h : (m.map Prod.fst).Nodup) :
    lastWins m = m := by
  induction m with
  | nil => rfl
  | cons e m ih =>
      rcases e with ⟨k, v⟩
      obtain ⟨hk, hm⟩ := List.nodup_cons.mp h
      rw [lastWins_cons hk, ih hm]

/-! ## Encoded again -/

mutual

/-- A value that was decoded into an `any` and is encoded again. Objects have become
maps, and numbers floats: `float64` is what the text of a number comes out as. -/
def decoded (float64 : String → String) : Json → Json
  | number digits => number (float64 digits)
  | array elems => array (decodedElems float64 elems)
  | object members => object (lastWins (decodedMembers float64 members))
  | v => v

def decodedElems (float64 : String → String) : List Json → List Json
  | [] => []
  | v :: vs => decoded float64 v :: decodedElems float64 vs

def decodedMembers (float64 : String → String) : List (String × Json) → List (String × Json)
  | [] => []
  | (k, v) :: members => (k, decoded float64 v) :: decodedMembers float64 members

end

theorem decodedMembers_keys (float64 : String → String) (members : List (String × Json)) :
    (decodedMembers float64 members).map Prod.fst = members.map Prod.fst := by
  induction members with
  | nil => rfl
  | cons e members ih =>
      rcases e with ⟨k, v⟩
      rw [decodedMembers, List.map_cons, List.map_cons, ih]

/-- It does not matter when the last of equal keys wins. -/
theorem decodedMembers_lastWins (float64 : String → String) (members : List (String × Json)) :
    decodedMembers float64 (lastWins members) = lastWins (decodedMembers float64 members) := by
  induction members with
  | nil => rfl
  | cons e members ih =>
      rcases e with ⟨k, v⟩
      unfold lastWins
      dsimp only [decodedMembers]
      rw [decodedMembers_keys]
      split
      · exact ih
      · dsimp only [decodedMembers]
        rw [ih]

@[simp] theorem get_cons_self (k : String) (v : Json) (m : List (String × Json)) :
    get ((k, v) :: m) k = v := by
  simp [get]

theorem get_cons_ne {k k' : String} (v : Json) (m : List (String × Json)) (h : k ≠ k') :
    get ((k', v) :: m) k = get m k := by
  have hb : (k == k') = false := by simpa using h
  simp [get, List.lookup_cons, hb]

end Json

/-- What a response body holds for a JSON decoder: text it cannot take, with the
decoder's message, or one document. A document with a number beyond those of a
`float64`, which a decoder of maps refuses, counts as malformed. -/
inductive Body where
  | malformed (err : String)
  | document (v : Json)

/-- `json.NewDecoder(body).Decode(&m)` for `m : map[string]any`. A null document
sets the map to nil, which reads like the empty map. Every number of the document is
one of `float64`. -/
def decodeObject : Body → Except String (List (String × Json))
  | .malformed err => .error err
  | .document (.object members) => .ok (Json.lastWins members)
  | .document .null => .ok []
  | .document v =>
      .error ("json: cannot unmarshal " ++ v.kind ++ " into Go value of type map[string]interface \x7b\x7d")

end TSymbiote
