import Mathlib.Data.List.Infix

/-! # Percent encoding

Codes for the bytes that a part of a URL cannot have, and their decoding. What
is decoded gets shorter, and what has no percent sign stays as it is.
-/

namespace TSymbiote.Percent

def percent : UInt8 := 37

def unhex (c : UInt8) : Option UInt8 :=
  if 48 ≤ c ∧ c ≤ 57 then some (c - 48)
  else if 97 ≤ c ∧ c ≤ 102 then some (c - 97 + 10)
  else if 65 ≤ c ∧ c ≤ 70 then some (c - 65 + 10)
  else none

/-- `url.PathUnescape`; none where a percent sign does not begin a code. -/
def pathUnescape : List UInt8 → Option (List UInt8)
  | [] => some []
  | c :: rest =>
      if c = percent then
        match rest with
        | hi :: lo :: rest =>
            match unhex hi, unhex lo with
            | some x, some y => (pathUnescape rest).map ((x * 16 + y) :: ·)
            | _, _ => none
        | _ => none
      else (pathUnescape rest).map (c :: ·)

variable {s p d : List UInt8}

theorem pathUnescape_cons {c : UInt8} (hc : c ≠ percent) (s : List UInt8) :
    pathUnescape (c :: s) = (pathUnescape s).map (c :: ·) := by
  rw [pathUnescape.eq_def]
  exact if_neg hc

theorem pathUnescape_append (hp : percent ∉ p) (s : List UInt8) :
    pathUnescape (p ++ s) = (pathUnescape s).map (p ++ ·) := by
  induction p with
  | nil => simp
  | cons c p ih =>
      rw [List.mem_cons, not_or] at hp
      rw [List.cons_append, pathUnescape_cons (Ne.symm hp.1), ih hp.2, Option.map_map]
      rfl

theorem pathUnescape_self (hs : percent ∉ s) : pathUnescape s = some s := by
  have h := pathUnescape_append hs []
  rw [List.append_nil] at h
  rw [h, pathUnescape, Option.map_some, List.append_nil]

/-- Only codes are changed, and they get shorter. -/
theorem eq_or_length_lt (h : pathUnescape s = some d) : d = s ∨ d.length < s.length := by
  fun_induction pathUnescape s generalizing d with
  | case1 =>
      cases h
      exact .inl rfl
  | case2 hi lo rest x y _ _ ih =>
      rcases Option.map_eq_some_iff.mp h with ⟨decoded, hdecoded, rfl⟩
      right
      rcases ih hdecoded with heq | hlt
      · rw [heq]
        simp
      · simp only [List.length_cons]
        omega
  | case3 => contradiction
  | case4 => contradiction
  | case5 c rest _ ih =>
      rcases Option.map_eq_some_iff.mp h with ⟨decoded, hdecoded, rfl⟩
      rcases ih hdecoded with heq | hlt
      · rw [heq]
        exact .inl rfl
      · exact .inr (Nat.succ_lt_succ hlt)

theorem length_lt_of_mem (hmem : percent ∈ s) (h : pathUnescape s = some d) :
    d.length < s.length := by
  fun_induction pathUnescape s generalizing d with
  | case1 => contradiction
  | case2 hi lo rest x y _ _ ih =>
      rcases Option.map_eq_some_iff.mp h with ⟨decoded, hdecoded, rfl⟩
      simp only [List.length_cons]
      rcases eq_or_length_lt hdecoded with rfl | hlt <;> omega
  | case3 => contradiction
  | case4 => contradiction
  | case5 c rest hc ih =>
      rcases Option.map_eq_some_iff.mp h with ⟨decoded, hdecoded, rfl⟩
      have hrest : percent ∈ rest := (List.mem_cons.mp hmem).resolve_left (Ne.symm hc)
      exact Nat.succ_lt_succ (ih hrest hdecoded)

/-! ## Encoding -/

def hex (n : UInt8) : UInt8 := if n < 10 then 48 + n else 55 + n

def encodeByte (keep : UInt8 → Bool) (b : UInt8) : List UInt8 :=
  if keep b then [b] else [percent, hex (b / 16), hex (b % 16)]

/-- Bytes that `keep` does not accept become codes. -/
def encode (keep : UInt8 → Bool) (s : List UInt8) : List UInt8 := s.flatMap (encodeByte keep)

variable {keep : UInt8 → Bool} {b : UInt8}

theorem forall_lt_of_ofNat {p : UInt8 → Prop} {k : UInt8}
    (h : ∀ m < k.toNat, p (UInt8.ofNat m)) : ∀ n < k, p n := by
  intro n hn
  have hp := h n.toNat hn
  rwa [UInt8.ofNat_toNat] at hp

theorem forall_byte {p : UInt8 → Prop} (h : ∀ m < 256, p (UInt8.ofNat m)) : ∀ b, p b := by
  intro b
  have hp := h b.toNat b.toNat_lt
  rwa [UInt8.ofNat_toNat] at hp

theorem unhex_hex : ∀ n < 16, unhex (hex n) = some n := forall_lt_of_ofNat (by decide)

theorem digits_lt (b : UInt8) : b / 16 < 16 ∧ b % 16 < 16 := by
  have hlt := b.toNat_lt
  rw [UInt8.lt_iff_toNat_lt, UInt8.lt_iff_toNat_lt, UInt8.toNat_div, UInt8.toNat_mod]
  exact ⟨Nat.div_lt_of_lt_mul hlt, Nat.mod_lt _ (by decide)⟩

theorem ofDigits (b : UInt8) : b / 16 * 16 + b % 16 = b := by
  have hlt := b.toNat_lt
  have h16 : (16 : UInt8).toNat = 16 := rfl
  apply UInt8.toNat.inj
  simp only [UInt8.toNat_add, UInt8.toNat_mul, UInt8.toNat_div, UInt8.toNat_mod, h16]
  omega

theorem pathUnescape_encodeByte_code (hb : keep b = false) (s : List UInt8) :
    pathUnescape (encodeByte keep b ++ s) = (pathUnescape s).map (b :: ·) := by
  have hhi := unhex_hex _ (digits_lt b).1
  have hlo := unhex_hex _ (digits_lt b).2
  unfold encodeByte
  rw [hb, if_neg Bool.false_ne_true, List.cons_append, List.cons_append, List.cons_append,
    List.nil_append, pathUnescape, if_pos rfl]
  simp only [hhi, hlo, ofDigits]

/-- An encoder that does not keep percent signs is undone. -/
theorem pathUnescape_encode (hkeep : keep percent = false) (s : List UInt8) :
    pathUnescape (encode keep s) = some s := by
  induction s with
  | nil => rfl
  | cons b s ih =>
      have hcons : encode keep (b :: s) = encodeByte keep b ++ encode keep s := rfl
      have hdecoded : pathUnescape (encodeByte keep b ++ encode keep s) =
          (pathUnescape (encode keep s)).map (b :: ·) := by
        by_cases hb : keep b = true
        · have hne : b ≠ percent := fun heq => Bool.false_ne_true (hkeep ▸ heq ▸ hb)
          rw [encodeByte, if_pos hb, List.singleton_append, pathUnescape_cons hne]
        · exact pathUnescape_encodeByte_code (Bool.eq_false_iff.mpr hb) _
      rw [hcons, hdecoded, ih, Option.map_some]

theorem pathUnescape_percent_none {t : List UInt8}
    (h : ∀ hi lo rest x y, t = hi :: lo :: rest → unhex hi = some x → unhex lo ≠ some y) :
    pathUnescape (percent :: t) = none := by
  rw [pathUnescape.eq_def]
  dsimp only
  rw [if_pos rfl]
  cases t with
  | nil => rfl
  | cons hi t =>
      cases t with
      | nil => rfl
      | cons lo rest =>
          cases hhi : unhex hi with
          | none => simp only [hhi]
          | some x =>
              cases hlo : unhex lo with
              | none => simp only [hhi, hlo]
              | some y => exact absurd hlo (h hi lo rest x y rfl hhi)

/-- A digit in front was there before the encoding. -/
theorem eq_cons_of_encode {c x : UInt8} {t : List UInt8} (h : encode keep s = c :: t)
    (hc : unhex c = some x) : ∃ s', s = c :: s' ∧ encode keep s' = t := by
  cases s with
  | nil => cases h
  | cons b s =>
      rw [encode, List.flatMap_cons, encodeByte] at h
      by_cases hb : keep b = true
      · rw [if_pos hb, List.singleton_append, List.cons.injEq] at h
        exact ⟨s, by rw [h.1], h.2⟩
      · rw [if_neg hb, List.cons_append, List.cons.injEq] at h
        rw [← h.1] at hc
        cases hc

/-- An encoder that keeps percent signs and digits makes no difference. -/
theorem pathUnescape_encode_of_keep (hpercent : keep percent = true)
    (hdigit : ∀ b, (unhex b).isSome = true → keep b = true) (s : List UInt8) :
    pathUnescape (encode keep s) = pathUnescape s := by
  have hkept : ∀ b s, keep b = true → encode keep (b :: s) = b :: encode keep s := by
    intro b s hb
    rw [encode, List.flatMap_cons, encodeByte, if_pos hb]
    rfl
  fun_induction pathUnescape s with
  | case1 => rfl
  | case2 hi lo rest x y hlo hhi ih =>
      rw [hkept _ _ hpercent, hkept _ _ (hdigit hi (Option.isSome_of_eq_some hhi)),
        hkept _ _ (hdigit lo (Option.isSome_of_eq_some hlo)), pathUnescape, if_pos rfl]
      simp only [hhi, hlo, ih]
  | case3 hi lo rest hdigits =>
      rw [hkept _ _ hpercent]
      apply pathUnescape_percent_none
      intro hi' lo' rest' x y heq hhi hlo
      rcases eq_cons_of_encode heq hhi with ⟨s', hs', heq'⟩
      rcases eq_cons_of_encode heq' hlo with ⟨s'', hs'', -⟩
      rw [hs''] at hs'
      cases hs'
      exact hdigits x y hhi hlo
  | case4 rest hshort =>
      rw [hkept _ _ hpercent]
      apply pathUnescape_percent_none
      intro hi lo rest' x y heq hhi hlo
      rcases eq_cons_of_encode heq hhi with ⟨s', hs', heq'⟩
      rcases eq_cons_of_encode heq' hlo with ⟨s'', hs'', -⟩
      rw [hs''] at hs'
      exact hshort hi lo s'' hs'
  | case5 c rest hc ih =>
      by_cases hkeep : keep c = true
      · rw [hkept _ _ hkeep, pathUnescape_cons hc, ih]
      · have hcode := pathUnescape_encodeByte_code (Bool.eq_false_iff.mpr hkeep) (encode keep rest)
        rw [encode, List.flatMap_cons, ← encode, hcode, ih]

theorem encode_self (hs : ∀ b ∈ s, keep b = true) : encode keep s = s := by
  induction s with
  | nil => rfl
  | cons b s ih =>
      rw [List.forall_mem_cons] at hs
      rw [encode, List.flatMap_cons, encodeByte, if_pos hs.1, List.singleton_append, ← encode,
        ih hs.2]

theorem encode_of_not_mem (h : percent ∉ encode keep s) : encode keep s = s := by
  apply encode_self
  intro b hb
  by_contra hkeep
  apply h
  refine List.mem_flatMap.mpr ⟨b, hb, ?_⟩
  rw [encodeByte, if_neg hkeep]
  exact List.mem_cons_self

theorem encode_eq_iff {u : List UInt8} (hkeep : ∀ b ∈ u, keep b = true) (hu : percent ∉ u) :
    encode keep s = u ↔ s = u := by
  constructor
  · rintro rfl
    exact (encode_of_not_mem hu).symm
  · rintro rfl
    exact encode_self hkeep

/-- The bytes of an encoded list are kept ones and those of the codes. -/
theorem forall_mem_encode {p : UInt8 → Prop} (hkeep : ∀ b ∈ s, keep b = true → p b)
    (hpercent : p percent) (hhex : ∀ n < 16, p (hex n)) : ∀ b ∈ encode keep s, p b := by
  intro b hb
  rcases List.mem_flatMap.mp hb with ⟨c, hcs, hc⟩
  unfold encodeByte at hc
  split at hc
  · next h =>
      rw [List.mem_singleton] at hc
      exact hc ▸ hkeep c hcs h
  · simp only [List.mem_cons, List.not_mem_nil, or_false] at hc
    rcases hc with rfl | rfl | rfl
    · exact hpercent
    · exact hhex _ (digits_lt c).1
    · exact hhex _ (digits_lt c).2

/-! ## Query components -/

def plusToSpace (b : UInt8) : UInt8 := if b = 43 then 32 else b

/-- `url.QueryUnescape`, where a plus sign is a space. -/
def queryUnescape (s : List UInt8) : Option (List UInt8) := pathUnescape (s.map plusToSpace)

theorem queryUnescape_eq (hs : 43 ∉ s) : queryUnescape s = pathUnescape s := by
  have hmap : s.map plusToSpace = s.map id :=
    List.map_congr_left fun b hb => if_neg (ne_of_mem_of_not_mem hb hs)
  rw [queryUnescape, hmap, List.map_id]

/-- A decoded list that begins with other elements than its code does not continue
the code up to a separator. -/
theorem append_ne_of_pathUnescape {x : UInt8} {rest : List UInt8} (hp : percent ∉ p)
    (hx : x ∉ p) (hne : p ≠ []) (hrest : rest = [] ∨ ∃ t, rest = x :: t) (hs : x ∉ s)
    (h : pathUnescape s = some d) : s ++ rest ≠ p ++ d := by
  -- each round takes `p` off the code, and off what is decoded from it
  induction hlength : s.length using Nat.strong_induction_on generalizing s d with
  | _ n ih =>
      intro heq
      have hstart : p <+: s ++ rest := heq ▸ List.prefix_append p d
      rcases List.prefix_or_prefix_of_prefix (List.prefix_append s rest) hstart with hsp | hps
      · rcases hsp with ⟨z, rfl⟩
        have hself := pathUnescape_self fun hmem => hp (List.mem_append_left z hmem)
        rw [hself, Option.some.injEq] at h
        rw [← h, List.append_assoc, List.append_cancel_left_eq] at heq
        rcases hrest with rfl | ⟨t, rfl⟩
        · rcases List.append_eq_nil_iff.mp heq.symm with ⟨hz, hnil⟩
          rw [hz, hnil] at hne
          exact hne rfl
        · have hmem : x ∈ z ++ s := heq ▸ List.mem_cons_self
          rcases List.mem_append.mp hmem with hz | hs'
          · exact hx (List.mem_append_right s hz)
          · exact hs hs'
      · rcases hps with ⟨s', rfl⟩
        rw [pathUnescape_append hp] at h
        rcases Option.map_eq_some_iff.mp h with ⟨d', hd', rfl⟩
        rw [List.append_assoc, List.append_cancel_left_eq] at heq
        have hpos := List.length_pos_of_ne_nil hne
        rw [List.length_append] at hlength
        exact ih s'.length (by omega) (fun hmem => hs (List.mem_append_right p hmem)) hd' rfl heq

end TSymbiote.Percent
