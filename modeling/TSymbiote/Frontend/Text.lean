import Mathlib.Data.List.TakeWhile
import TSymbiote.Lib.Regex
import TSymbiote.Lib.Strings

/-! # Strings of the front end

A string of JavaScript is a list of UTF-16 code units, which need not be well
formed, and a regular expression without the flag `u` reads it unit by unit.
-/

namespace TSymbiote.Frontend

abbrev CodeUnit := UInt16

abbrev Text := List CodeUnit

def unit (c : Char) : CodeUnit := UInt16.ofNat c.toNat

/-- A literal of the source; all of them are ASCII. -/
def ascii (s : String) : Text := s.toList.map unit

def between (first last : Char) (c : CodeUnit) : Bool := unit first ≤ c && c ≤ unit last

def isDigit (c : CodeUnit) : Bool := between '0' '9' c

def isAlphanumeric (c : CodeUnit) : Bool := between 'a' 'z' c || between 'A' 'Z' c || isDigit c

/-- `\w` -/
def isWord (c : CodeUnit) : Bool := isAlphanumeric c || c = unit '_'

def isHexDigit (c : CodeUnit) : Bool := between 'a' 'f' c || between 'A' 'F' c || isDigit c

def isLineTerminator (c : CodeUnit) : Bool := [10, 13, 0x2028, 0x2029].contains c

/-- White space and line terminators: `\s`, and what `trim` removes. -/
def isSpace (c : CodeUnit) : Bool :=
  [9, 10, 11, 12, 13, 32, 0xA0, 0x1680, 0x2028, 0x2029, 0x202F, 0x205F, 0x3000, 0xFEFF].contains c ||
    (0x2000 ≤ c && c ≤ 0x200A)

def newline : CodeUnit := unit '\n'

def trim (text : Text) : Text := ((text.dropWhile isSpace).reverse.dropWhile isSpace).reverse

/-- Neither begins nor ends with white space. -/
def Trimmed (text : Text) : Prop :=
  (∀ c ∈ text.head?, isSpace c = false) ∧ ∀ c ∈ text.getLast?, isSpace c = false

theorem dropWhile_append {spaces text : Text} (hspaces : ∀ c ∈ spaces, isSpace c = true)
    (htext : ∀ c ∈ text.head?, isSpace c = false) : (spaces ++ text).dropWhile isSpace = text := by
  rw [List.dropWhile_append_of_pos hspaces]
  cases text with
  | nil => rfl
  | cons c text => rw [List.dropWhile_cons_of_neg (by simpa using htext c)]

theorem trim_append {text spaces : Text} (htext : Trimmed text)
    (hspaces : ∀ c ∈ spaces, isSpace c = true) : trim (text ++ spaces) = text := by
  have hback : ∀ c ∈ spaces.reverse, isSpace c = true := fun c hc => hspaces c (List.mem_reverse.mp hc)
  have hlast : ∀ c ∈ text.reverse.head?, isSpace c = false := by
    rw [List.head?_reverse]
    exact htext.2
  unfold trim
  cases text with
  | nil =>
      have hnone : spaces.dropWhile isSpace = [] := List.dropWhile_eq_nil_iff.mpr hspaces
      rw [List.nil_append, hnone]
      rfl
  | cons c text =>
      have hfront : ∀ x ∈ (c :: text ++ spaces).head?, isSpace x = false := htext.1
      have hkept : (c :: text ++ spaces).dropWhile isSpace = c :: text ++ spaces :=
        dropWhile_append (List.forall_mem_nil _) hfront
      rw [hkept, List.reverse_append, dropWhile_append hback hlast, List.reverse_reverse]

theorem trim_ne_nil {text : Text} {c : CodeUnit} (hmem : c ∈ text) (hc : isSpace c = false) :
    trim text ≠ [] := by
  intro hnil
  have hspaces := List.dropWhile_eq_nil_iff.mp (List.reverse_eq_nil_iff.mp hnil)
  rw [← List.takeWhile_append_dropWhile (p := isSpace) (l := text)] at hmem
  rcases List.mem_append.mp hmem with hfront | hback
  · rw [List.mem_takeWhile_imp hfront] at hc
    contradiction
  · rw [hspaces c (List.mem_reverse.mpr hback)] at hc
    contradiction

/-! ## Parts of patterns -/

open Regex

def lit (c : Char) : Regex CodeUnit := char fun x => x = unit c

theorem captures_lit {c : Char} {s t : Pos CodeUnit} (h : t ∈ (lit c).run s) :
    Captures s t [unit c] [] := by
  obtain ⟨d, hd, hread⟩ := captures_char h
  rw [of_decide_eq_true hd] at hread
  exact hread

def oneOf (s : String) : Regex CodeUnit := char fun x => (ascii s).contains x

def digit : Regex CodeUnit := char isDigit

def space : Regex CodeUnit := char isSpace

/-- `.` -/
def anyChar : Regex CodeUnit := char fun c => !isLineTerminator c

/-- `^` -/
def textStart : Regex CodeUnit := assert fun before _ => before.isEmpty

/-- `$` -/
def textEnd : Regex CodeUnit := assert fun _ rest => rest.isEmpty

def atLineStart (before : Text) : Bool := before.head?.all isLineTerminator

/-- `^` with the flag `m` -/
def lineStart : Regex CodeUnit := assert fun before _ => atLineStart before

/-- `\b` -/
def wordBoundary : Regex CodeUnit :=
  assert fun before rest => before.head?.any isWord != rest.head?.any isWord

/-- Pieces one after the other. -/
def inOrder : List (Regex CodeUnit) → Regex CodeUnit
  | [] => empty
  | [r] => r
  | r :: rs => seq r (inOrder rs)

end TSymbiote.Frontend
