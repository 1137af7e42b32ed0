import Mathlib.Data.List.Basic

/-! # Plain objects as tables

The page keeps its tables in plain objects. Every such object inherits the
properties of `Object.prototype`, so that a table seems to have entries under
their names, and an assignment to `__proto__` makes no entry at all.
-/

namespace TSymbiote.Frontend

/-- The methods of `Object.prototype`. -/
def methods : List String :=
  ["constructor", "__defineGetter__", "__defineSetter__", "hasOwnProperty", "__lookupGetter__",
    "__lookupSetter__", "isPrototypeOf", "propertyIsEnumerable", "toString", "valueOf",
    "toLocaleString"]

/-- The names that every object has a property for. -/
def inherited : List String := "__proto__" :: methods

theorem proto_not_method : "__proto__" ∉ methods := by decide

theorem not_inherited {name : String} (h : name ∉ inherited) :
    name ≠ "__proto__" ∧ name ∉ methods :=
  List.mem_cons.not.trans not_or |>.mp h

/-- Properties of a method that strict code cannot assign to. -/
def readOnly (method name : String) : Bool :=
  name ∈ ["length", "name", "arguments", "caller"] ∨ (method = "constructor" ∧ name = "prototype")

/-- Properties of a method, and of `Object`, that scripts rely on. -/
def functionNames : List String :=
  ["apply", "bind", "call", "assign", "create", "defineProperties", "defineProperty", "entries",
    "freeze", "fromEntries", "getOwnPropertyDescriptor", "getOwnPropertyDescriptors",
    "getOwnPropertyNames", "getOwnPropertySymbols", "getPrototypeOf", "groupBy", "hasOwn", "is",
    "isExtensible", "isFrozen", "isSealed", "keys", "preventExtensions", "seal", "setPrototypeOf",
    "values"] ++ inherited

/-- The text of what a plain object inherits under a name. -/
def inheritedText (name : String) : String :=
  if name = "__proto__" then "[object Object]"
  else if name = "constructor" then "function Object() \x7b [native code] \x7d"
  else "function " ++ name ++ "() \x7b [native code] \x7d"

end TSymbiote.Frontend
