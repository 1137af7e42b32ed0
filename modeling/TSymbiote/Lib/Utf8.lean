import TSymbiote.Lib.Strings

/-! # ASCII characters in UTF-8

An ASCII character is one byte, which stands in the encoding of no other
character. A text can so be searched and split before or after it is encoded.
-/

namespace TSymbiote.Utf8

def encode (cs : List Char) : List UInt8 := cs.flatMap String.utf8EncodeChar

def Ascii (c : Char) : Prop := c.val ≤ 127

instance : DecidablePred Ascii := fun c => inferInstanceAs (Decidable (c.val ≤ 127))

def code (c : Char) : UInt8 := c.val.toUInt8

variable {c d : Char} {cs : List Char}

theorem utf8EncodeChar_ascii (hc : Ascii c) : String.utf8EncodeChar c = [code c] :=
  String.utf8EncodeChar_eq_singleton (Char.utf8Size_eq_one_iff.mpr hc)

theorem code_toNat (hc : Ascii c) : (code c).toNat = c.toNat := by
  have hle : c.val.toNat ≤ 127 := hc
  unfold code
  rw [UInt32.toNat_toUInt8]
  exact Nat.mod_eq_of_lt (by omega)

theorem code_inj (hc : Ascii c) (hd : Ascii d) (h : code c = code d) : c = d := by
  have hnat := congrArg UInt8.toNat h
  rw [code_toNat hc, code_toNat hd] at hnat
  exact Char.toNat_inj.mp hnat

/-- The bytes of the other characters have their high bit set. -/
theorem high_of_not_ascii (hc : ¬Ascii c) : ∀ b ∈ String.utf8EncodeChar c, 128 ≤ b.toNat := by
  have hlt : ¬c.val.toNat ≤ 127 := hc
  unfold String.utf8EncodeChar
  simp only [if_neg hlt]
  intro b hb
  split at hb
  · simp only [List.mem_cons, List.not_mem_nil, or_false] at hb
    rcases hb with rfl | rfl <;> rw [UInt8.toNat_ofNat'] <;> omega
  · split at hb
    · simp only [List.mem_cons, List.not_mem_nil, or_false] at hb
      rcases hb with rfl | rfl | rfl <;> rw [UInt8.toNat_ofNat'] <;> omega
    · simp only [List.mem_cons, List.not_mem_nil, or_false] at hb
      rcases hb with rfl | rfl | rfl | rfl <;> rw [UInt8.toNat_ofNat'] <;> omega

theorem code_mem_char (hc : Ascii c) : code c ∈ String.utf8EncodeChar d ↔ c = d := by
  constructor
  · intro hmem
    by_cases hd : Ascii d
    · rw [utf8EncodeChar_ascii hd, List.mem_singleton] at hmem
      exact code_inj hc hd hmem
    · have hhigh := high_of_not_ascii hd _ hmem
      have hlow : c.toNat ≤ 127 := hc
      rw [code_toNat hc] at hhigh
      omega
  · rintro rfl
    rw [utf8EncodeChar_ascii hc]
    exact List.mem_singleton_self _

theorem code_mem (hc : Ascii c) : code c ∈ encode cs ↔ c ∈ cs := by
  unfold encode
  rw [List.mem_flatMap]
  simp only [code_mem_char hc]
  exact ⟨fun ⟨_, hmem, heq⟩ => heq ▸ hmem, fun hmem => ⟨c, hmem, rfl⟩⟩

theorem encode_append (cs ds : List Char) : encode (cs ++ ds) = encode cs ++ encode ds :=
  List.flatMap_append

theorem encode_intercalate (hc : Ascii c) {parts : List (List Char)} (hne : parts ≠ []) :
    encode ([c].intercalate parts) = [code c].intercalate (parts.map encode) := by
  induction parts with
  | nil => contradiction
  | cons part rest ih =>
      cases rest with
      | nil => simp
      | cons next rest =>
          rw [List.map_cons, List.map_cons, List.intercalate_cons_cons, List.intercalate_cons_cons,
            encode_append, encode_append, ih (List.cons_ne_nil _ _), List.map_cons]
          simp only [encode, List.flatMap_cons, List.flatMap_nil, List.append_nil,
            utf8EncodeChar_ascii hc]

/-- Splitting the bytes is splitting the characters. -/
theorem splitOn_encode (hc : Ascii c) (cs : List Char) :
    (encode cs).splitOn (code c) = (cs.splitOn c).map encode := by
  have hne : cs.splitOn c ≠ [] := List.splitOn_ne_nil c cs
  have hfree : ∀ part ∈ (cs.splitOn c).map encode, code c ∉ part := by
    intro part hpart
    rcases List.mem_map.mp hpart with ⟨chars, hchars, rfl⟩
    rw [code_mem hc]
    exact Strings.not_mem_of_mem_splitOn hchars
  have hjoin : [c].intercalate (cs.splitOn c) = cs := List.intercalate_splitOn c
  have hbytes : [code c].intercalate ((cs.splitOn c).map encode) = encode cs := by
    rw [← encode_intercalate hc hne, hjoin]
  rw [← hbytes]
  exact List.splitOn_intercalate (code c) hfree (mt List.map_eq_nil_iff.mp hne)

end TSymbiote.Utf8
