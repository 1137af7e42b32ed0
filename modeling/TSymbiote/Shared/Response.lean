import TSymbiote.Shared.StructToMap

/-! # Answers of the HTTP servers

What a handler leaves on its response writer, and what the client of the
connection then sees. The handlers set a status code before they write anything,
or write a body under the default code.
-/

namespace TSymbiote.Shared

/-- Why a call failed. No error of the HTTP client has an empty text. -/
structure CallError where
  text : String
  nonempty : text ≠ ""

/-- A connection or a body that ends before there is anything to read. -/
def endOfBody : CallError where
  text := "EOF"
  nonempty := by decide

/-- `body` is none when the handler has not written any. -/
structure Response (B : Type) where
  statusCode : Nat := 200
  body : Option B

/-- `http.StatusText`, for the codes the handlers set. -/
def statusText : Nat → String
  | 200 => "OK"
  | 400 => "Bad Request"
  | 401 => "Unauthorized"
  | 403 => "Forbidden"
  | 405 => "Method Not Allowed"
  | 500 => "Internal Server Error"
  | _ => ""

/-- The status line after the protocol: the code, a blank and its text. -/
def statusLine (statusCode : Nat) : String := toString statusCode ++ (" " ++ statusText statusCode)

theorem append_ne_empty (s t : String) (h : t ≠ "") : s ++ t ≠ "" := by
  intro heq
  exact h (String.append_eq_empty_iff.mp heq).2

theorem statusLine_ne_empty (statusCode : Nat) : statusLine statusCode ≠ "" := by
  refine append_ne_empty _ _ ?_
  intro heq
  exact absurd (String.append_eq_empty_iff.mp heq).1 (by decide)

def statusError (statusCode : Nat) : CallError where
  text := statusLine statusCode
  nonempty := statusLine_ne_empty statusCode

/-- A handler's answer; none where it panics, with nothing written. -/
abbrev Reply (B : Type) := Option (Response B)

namespace Reply

variable {B : Type}

def setStatusCode (statusCode : Nat) : Reply B := some { statusCode, body := none }

def write (data : B) : Reply B := some { body := some data }

/-- `StructToMap` panics on anything but a struct. -/
def writeUnstructuredJSON (data : Value) : Reply Body :=
  match structToMap data with
  | none => none
  | some m => write (.document (Any.map m).json)

/-- The server closes the connection of a handler that has panicked. -/
def deliver : Reply B → Except CallError (Response B)
  | none => .error endOfBody
  | some resp => .ok resp

end Reply

end TSymbiote.Shared
