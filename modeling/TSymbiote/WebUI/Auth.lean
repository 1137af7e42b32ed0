import TSymbiote.Lib.Csv

/-! # Who may use the WebUI

The list of allowed users comes from a flag whose value is one CSV record. An
empty list lets everyone in.
-/

namespace TSymbiote.WebUI

/-- The value of `--name=value`. -/
def flagValue (name arg : String) : Option String :=
  if ("--" ++ name ++ "=").toList <+: arg.toList then
    some (String.ofList (arg.toList.drop ("--" ++ name ++ "=").toList.length))
  else none

/-- A string slice from a flag's value. -/
def getStringSlice (value : String) : Except Csv.ReadError (List String) :=
  if value = "" then .ok [] else (Csv.read value.toList).map fun record => record.map String.ofList

/-- The `allowed-users` flag, by default empty. The process does not start when
its value cannot be read. -/
def allowedUsers (args : List String) : Except Csv.ReadError (List String) :=
  match args.findSome? (flagValue "allowed-users") with
  | none => .ok []
  | some value => getStringSlice value

inductive AuthResult where
  | internalServerError
  | forbidden
  | next (userName : String)
  deriving DecidableEq, Repr

/-- `whoIs` is the login name behind the remote address. -/
def uiAuth (allowed : List String) (whoIs : Except String String) : AuthResult :=
  match whoIs with
  | .error _ => .internalServerError
  | .ok loginName =>
      if allowed.length = 0 then .next loginName
      else if !allowed.contains loginName then .forbidden
      else .next loginName

/-- A WebUI with these arguments lets the login through. -/
def Admits (args : List String) (login : String) : Prop :=
  ∃ allowed, allowedUsers args = .ok allowed ∧ uiAuth allowed (.ok login) = .next login

theorem uiAuth_next_iff (allowed : List String) (login : String) :
    uiAuth allowed (.ok login) = .next login ↔ allowed = [] ∨ login ∈ allowed := by
  unfold uiAuth
  cases allowed with
  | nil => simp
  | cons a allowed => by_cases h : login ∈ a :: allowed <;> simp_all

theorem flagValue_self (name value : String) :
    flagValue name ("--" ++ name ++ "=" ++ value) = some value := by
  unfold flagValue
  rw [String.toList_append (s := "--" ++ name ++ "="), if_pos (List.prefix_append _ _),
    List.drop_left, String.ofList_toList]

end TSymbiote.WebUI
