import Mathlib.Data.List.Basic

/-! # Base64

The standard encoding, and the decoding that browsers do: it drops white space,
takes the padding where it completes the last group or not at all, and ignores
the bits left over.
-/

namespace TSymbiote.Base64

def alphabet : List Char :=
  ['A', 'B', 'C', 'D', 'E', 'F', 'G', 'H', 'I', 'J', 'K', 'L', 'M', 'N', 'O', 'P', 'Q', 'R', 'S',
    'T', 'U', 'V', 'W', 'X', 'Y', 'Z', 'a', 'b', 'c', 'd', 'e', 'f', 'g', 'h', 'i', 'j', 'k', 'l',
    'm', 'n', 'o', 'p', 'q', 'r', 's', 't', 'u', 'v', 'w', 'x', 'y', 'z', '0', '1', '2', '3', '4',
    '5', '6', '7', '8', '9', '+', '/']

def digit (n : Nat) : Char := alphabet.getD n 'A'

def value (c : Char) : Option Nat := alphabet.findIdx? (· = c)

/-- The groups of six bits, the last one filled up with zeros. -/
def digits : List UInt8 → List Nat
  | [] => []
  | [a] => [a.toNat / 4, a.toNat % 4 * 16]
  | [a, b] => [a.toNat / 4, a.toNat % 4 * 16 + b.toNat / 16, b.toNat % 16 * 4]
  | a :: b :: c :: rest =>
      a.toNat / 4 :: (a.toNat % 4 * 16 + b.toNat / 16) :: (b.toNat % 16 * 4 + c.toNat / 64) ::
        c.toNat % 64 :: digits rest

def encode (data : List UInt8) : List Char :=
  let text := (digits data).map digit
  text ++ List.replicate ((4 - text.length % 4) % 4) '='

/-- The bytes of groups of six bits; one group alone is no byte. -/
def undigits : List Nat → Option (List UInt8)
  | [] => some []
  | [_] => none
  | [a, b] => some [UInt8.ofNat (a * 4 + b / 16)]
  | [a, b, c] => some [UInt8.ofNat (a * 4 + b / 16), UInt8.ofNat (b % 16 * 16 + c / 4)]
  | a :: b :: c :: d :: rest =>
      (undigits rest).map fun data =>
        UInt8.ofNat (a * 4 + b / 16) :: UInt8.ofNat (b % 16 * 16 + c / 4) ::
          UInt8.ofNat (c % 4 * 64 + d) :: data

def isWhitespace (c : Char) : Bool := c = ' ' || c = '\t' || c = '\n' || c = '\r' || c.toNat = 12

/-- At most two padding characters, from a text of whole groups. -/
def stripPadding (text : List Char) : List Char :=
  if text.length % 4 = 0 then
    match text.reverse with
    | '=' :: '=' :: rest => rest.reverse
    | '=' :: rest => rest.reverse
    | _ => text
  else text

def decode (text : List Char) : Option (List UInt8) :=
  ((stripPadding (text.filter fun c => !isWhitespace c)).mapM value).bind undigits

/-! ## Round trip -/

theorem value_digit : ∀ n < 64, value (digit n) = some n := by decide

theorem digit_ne : ∀ n < 64, digit n ≠ '=' ∧ isWhitespace (digit n) = false := by decide

theorem digits_lt (data : List UInt8) : ∀ n ∈ digits data, n < 64 := by
  induction data using digits.induct with
  | case1 => simp [digits]
  | case2 a =>
      have ha := a.toNat_lt
      simp [digits]
      omega
  | case3 a b =>
      have ha := a.toNat_lt
      have hb := b.toNat_lt
      simp [digits]
      omega
  | case4 a b c rest ih =>
      have ha := a.toNat_lt
      have hb := b.toNat_lt
      have hc := c.toNat_lt
      intro n hn
      simp only [digits, List.mem_cons] at hn
      rcases hn with rfl | rfl | rfl | rfl | hn
      · omega
      · omega
      · omega
      · omega
      · exact ih n hn

theorem digits_length (data : List UInt8) : (digits data).length % 4 ≠ 1 := by
  induction data using digits.induct with
  | case1 => simp [digits]
  | case2 a => simp [digits]
  | case3 a b => simp [digits]
  | case4 a b c rest ih =>
      simp only [digits, List.length_cons]
      omega

theorem undigits_digits (data : List UInt8) : undigits (digits data) = some data := by
  induction data using digits.induct with
  | case1 => rfl
  | case2 a =>
      have ha := a.toNat_lt
      have hfirst : a.toNat / 4 * 4 + a.toNat % 4 * 16 / 16 = a.toNat := by omega
      simp only [digits, undigits, hfirst, UInt8.ofNat_toNat]
  | case3 a b =>
      have ha := a.toNat_lt
      have hb := b.toNat_lt
      have hfirst : a.toNat / 4 * 4 + (a.toNat % 4 * 16 + b.toNat / 16) / 16 = a.toNat := by omega
      have hsecond : (a.toNat % 4 * 16 + b.toNat / 16) % 16 * 16 + b.toNat % 16 * 4 / 4 = b.toNat := by
        omega
      simp only [digits, undigits, hfirst, hsecond, UInt8.ofNat_toNat]
  | case4 a b c rest ih =>
      have ha := a.toNat_lt
      have hb := b.toNat_lt
      have hc := c.toNat_lt
      have hfirst : a.toNat / 4 * 4 + (a.toNat % 4 * 16 + b.toNat / 16) / 16 = a.toNat := by omega
      have hsecond : (a.toNat % 4 * 16 + b.toNat / 16) % 16 * 16 +
          (b.toNat % 16 * 4 + c.toNat / 64) / 4 = b.toNat := by omega
      have hthird : (b.toNat % 16 * 4 + c.toNat / 64) % 4 * 64 + c.toNat % 64 = c.toNat := by omega
      simp only [digits, undigits, ih, Option.map_some, hfirst, hsecond, hthird, UInt8.ofNat_toNat]

theorem stripPadding_append (text : List Char) (htext : '=' ∉ text) {k : Nat} (hk : k ≤ 2)
    (hlength : (text.length + k) % 4 = 0) :
    stripPadding (text ++ List.replicate k '=') = text := by
  have hhead : ∀ rest, text.reverse ≠ '=' :: rest := by
    intro rest heq
    apply htext
    rw [← List.mem_reverse, heq]
    exact List.mem_cons_self
  unfold stripPadding
  rw [List.length_append, List.length_replicate, if_pos hlength, List.reverse_append,
    List.reverse_replicate]
  match k, hk with
  | 0, _ =>
      simp only [List.replicate_zero, List.nil_append, List.append_nil]
      split
      · next rest heq => exact absurd heq (hhead _)
      · next rest _ heq => exact absurd heq (hhead _)
      · rfl
  | 1, _ =>
      -- a second padding character would be one of the text
      simp only [List.replicate_one, List.singleton_append]
      exact List.reverse_reverse text
  | 2, _ => simp [List.replicate]

theorem mapM_value_digit {ns : List Nat} (h : ∀ n ∈ ns, n < 64) :
    (ns.map digit).mapM value = some ns := by
  induction ns with
  | nil => rfl
  | cons n ns ih =>
      obtain ⟨hn, hns⟩ := List.forall_mem_cons.mp h
      rw [List.map_cons, List.mapM_cons, value_digit n hn, ih hns]
      rfl

theorem encode_filter (data : List UInt8) :
    (encode data).filter (fun c => !isWhitespace c) = encode data := by
  rw [List.filter_eq_self]
  intro c hc
  rcases List.mem_append.mp hc with hc | hc
  · rcases List.mem_map.mp hc with ⟨n, hn, rfl⟩
    rw [(digit_ne n (digits_lt data n hn)).2]
    rfl
  · rw [List.eq_of_mem_replicate hc]
    rfl

theorem decode_encode (data : List UInt8) : decode (encode data) = some data := by
  have htext : '=' ∉ (digits data).map digit := by
    intro hmem
    rcases List.mem_map.mp hmem with ⟨n, hn, heq⟩
    exact (digit_ne n (digits_lt data n hn)).1 heq
  have hlength := digits_length data
  unfold decode
  rw [encode_filter]
  unfold encode
  dsimp only
  rw [List.length_map, stripPadding_append _ htext, mapM_value_digit (digits_lt data)]
  · exact undigits_digits data
  · omega
  · rw [List.length_map]
    omega

end TSymbiote.Base64
