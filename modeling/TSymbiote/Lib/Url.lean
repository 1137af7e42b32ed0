import Mathlib.Data.List.TakeWhile
import TSymbiote.Lib.Path
import TSymbiote.Lib.Percent

/-! # URLs

What a browser makes of the text of a URL, and what a server reads in it.
-/

namespace TSymbiote.Url

open Percent TSymbiote.Path
open scoped Strings

/-- `strings.Cut`: what is before the separator, and what is behind it. -/
def cut (sep : UInt8) (s : List UInt8) : List UInt8 × List UInt8 :=
  (s.takeWhile (· ≠ sep), (s.dropWhile (· ≠ sep)).tail)

variable {sep b : UInt8} {s t key value decoded : List UInt8}

theorem cut_of_not_mem (hs : sep ∉ s) : cut sep s = (s, []) := by
  have hne : ∀ b ∈ s, decide (b ≠ sep) = true := by
    intro b hb
    exact decide_eq_true (ne_of_mem_of_not_mem hb hs)
  unfold cut
  rw [List.takeWhile_eq_self_iff.mpr hne, List.dropWhile_eq_nil_iff.mpr hne, List.tail_nil]

theorem cut_append (hs : sep ∉ s) (t : List UInt8) : cut sep (s ++ sep :: t) = (s, t) := by
  have hne : ∀ b ∈ s, decide (b ≠ sep) = true := by
    intro b hb
    exact decide_eq_true (ne_of_mem_of_not_mem hb hs)
  unfold cut
  rw [List.takeWhile_append_of_pos hne, List.dropWhile_append_of_pos hne]
  simp

/-! ## Queries -/

/-- `url.ParseQuery`, whose error `URL.Query` ignores. -/
def parseQuery (query : List UInt8) : List (List UInt8 × List UInt8) :=
  (query.splitOn 38).filterMap fun part =>
    if 59 ∈ part ∨ part = [] then none
    else
      match queryUnescape (cut 61 part).1, queryUnescape (cut 61 part).2 with
      | some key, some value => some (key, value)
      | _, _ => none

/-- `Values.Get`: the first value, empty when there is none. -/
def get (values : List (List UInt8 × List UInt8)) (key : List UInt8) : List UInt8 :=
  ((values.find? (·.1 = key)).map (·.2)).getD []

/-- A name that is written as it is. -/
def Literal (key : List UInt8) : Prop := ∀ b ∈ key, b ≠ percent ∧ b ≠ 38 ∧ b ≠ 43 ∧ b ≠ 59 ∧ b ≠ 61

instance : Decidable (Literal key) := inferInstanceAs (Decidable (∀ b ∈ key, _))

theorem get_parseQuery (hkey : Literal key) (hvalue : ∀ b ∈ value, b ≠ 38 ∧ b ≠ 59)
    (hdecoded : queryUnescape value = some decoded) :
    get (parseQuery (key ++ 61 :: value)) key = decoded := by
  have hamp : 38 ∉ key ++ 61 :: value := by
    have hfront : 38 ∉ key := fun hmem => (hkey _ hmem).2.1 rfl
    have hback : 38 ∉ value := fun hmem => (hvalue _ hmem).1 rfl
    simp [hfront, hback]
  have hsemi : ¬(59 ∈ key ++ 61 :: value ∨ key ++ 61 :: value = []) := by
    have hfront : 59 ∉ key := fun hmem => (hkey _ hmem).2.2.2.1 rfl
    have hback : 59 ∉ value := fun hmem => (hvalue _ hmem).2 rfl
    simp [hfront, hback]
  have hcut : cut 61 (key ++ 61 :: value) = (key, value) :=
    cut_append (fun hmem => (hkey _ hmem).2.2.2.2 rfl) value
  have hname : queryUnescape key = some key := by
    rw [queryUnescape_eq fun hmem => (hkey _ hmem).2.2.1 rfl]
    exact pathUnescape_self fun hmem => (hkey _ hmem).1 rfl
  have hparsed : parseQuery (key ++ 61 :: value) = [(key, decoded)] := by
    unfold parseQuery
    rw [List.splitOn_eq_singleton hamp, List.filterMap_cons, if_neg hsemi, hcut]
    simp only [hname, hdecoded, List.filterMap_nil]
  rw [hparsed]
  simp [get]

/-! ## The text of a URL -/

/-- The parser of a browser drops these wherever they stand. -/
def removeTabs (url : List UInt8) : List UInt8 := url.filter fun b => b ≠ 9 ∧ b ≠ 10 ∧ b ≠ 13

theorem removeTabs_self (hs : ∀ b ∈ s, b ∉ [9, 10, 13]) : removeTabs s = s := by
  apply List.filter_eq_self.mpr
  intro b hb
  have hb' := hs b hb
  simp only [List.mem_cons, List.not_mem_nil, or_false, not_or] at hb'
  simp only [ne_eq, hb', not_false_eq_true, and_self, decide_true]

/-- The bytes that stay in the query of a special scheme. -/
def queryKeep (b : UInt8) : Bool := 33 ≤ b ∧ b ≤ 126 ∧ b ∉ [34, 35, 39, 60, 62]

/-- What is before the fragment. -/
def beforeFragment (url : List UInt8) : List UInt8 := (cut 35 (removeTabs url)).1

/-- The query a browser asks for. -/
def rawQuery (url : List UInt8) : List UInt8 := encode queryKeep (cut 63 (beforeFragment url)).2

theorem rawQuery_append (hs : ∀ b ∈ s, b ∉ [9, 10, 13, 35, 63])
    (ht : ∀ b ∈ t, b ∉ [9, 10, 13, 35]) : rawQuery (s ++ 63 :: t) = encode queryKeep t := by
  have hkept : ∀ b ∈ s ++ 63 :: t, b ∉ [9, 10, 13, 35] := by
    intro b hb
    rcases List.mem_append.mp hb with hb | hb
    · exact fun hmem => hs b hb (List.mem_append_left [63] hmem)
    · rcases List.mem_cons.mp hb with rfl | hb
      · decide
      · exact ht b hb
  have htabs : removeTabs (s ++ 63 :: t) = s ++ 63 :: t :=
    removeTabs_self fun b hb hmem => hkept b hb (List.mem_append_left [35] hmem)
  have hhash : 35 ∉ s ++ 63 :: t := fun hmem => hkept 35 hmem (by decide)
  have hquestion : 63 ∉ s := fun hmem => hs 63 hmem (by decide)
  unfold rawQuery beforeFragment
  rw [htabs, cut_of_not_mem hhash, cut_append hquestion]

/-! ## The path of a URL -/

/-- A dot, or its code. -/
def singleDots : List Name := [[46], [37, 50, 101], [37, 50, 69]]

def doubleDots : List Name := singleDots.flatMap fun first => singleDots.map (first ++ ·)

/-- A browser resolves the dots of the segments, the last of which leaves an empty
segment. -/
def parsePath : List Name → List Name → List Name
  | path, [] => path
  | path, [segment] =>
      if segment ∈ doubleDots then path.dropLast ++ [[]]
      else if segment ∈ singleDots then path ++ [[]]
      else path ++ [segment]
  | path, segment :: segments =>
      parsePath
        (if segment ∈ doubleDots then path.dropLast
        else if segment ∈ singleDots then path
        else path ++ [segment]) segments

/-- A backslash separates segments as well. -/
def isSeparator (b : UInt8) : Bool := b = slash || b = 92

/-- The bytes that stay in the path. -/
def pathKeep (b : UInt8) : Bool := queryKeep b && !List.contains [63, 94, 96, 123, 125] b

/-- The text behind the first slash, up to query and fragment. -/
def beforeQuery (url : List UInt8) : List UInt8 := (cut 63 (beforeFragment url)).1.tail

/-- The path a browser asks for, of a URL from its path on. -/
def browserPath (url : List UInt8) : List Name :=
  (parsePath [] ((beforeQuery url).splitOnP isSeparator)).map (encode pathKeep)

/-- `filepath.Localize` accepts these names only. -/
def validName (name : List UInt8) : Bool :=
  !name.contains 0 && (ByteArray.mk name.toArray).validateUTF8

/-- The file of an `http.Dir` behind `http.StripPrefix`, for a path that `ServeMux`
has cleaned. -/
def servedFile (root pre target : List Name) : Option (List Name) :=
  if pre <+: clean target then
    match pathUnescape (text ((clean target).drop pre.length)).tail with
    | some name => if validName name then some (root ++ clean (name.splitOn slash)) else none
    | none => none
  else none

/-! ### Plain names -/

/-- No byte means something in a URL or a path. -/
def Plain (name : Name) : Prop := ∀ b ∈ name, b ∉ [9, 10, 13, 35, 37, 47, 63, 92]

variable {names pre root path : List Name} {name : Name}

theorem dots_pos : ∀ segment ∈ singleDots ++ doubleDots, 0 < segment.length := by decide

theorem parsePath_or (path names : List Name) :
    parsePath path names = path ++ names ∨ size (parsePath path names) < size (path ++ names) := by
  have hlast := size_dropLast path
  induction names generalizing path with
  | nil => simp [parsePath]
  | cons segment names ih =>
      have hdots := dots_pos segment
      rw [List.mem_append] at hdots
      cases names with
      | nil =>
          rw [parsePath, size_append, size_singleton]
          split
          · next hdouble =>
              have hpos := hdots (.inr hdouble)
              right
              rw [size_append, size_singleton, List.length_nil]
              omega
          · split
            · next hsingle =>
                have hpos := hdots (.inl hsingle)
                right
                rw [size_append, size_singleton, List.length_nil]
                omega
            · exact .inl rfl
      | cons next names =>
          have hassoc : path ++ segment :: next :: names = path ++ [segment] ++ next :: names := by
            simp
          rw [parsePath, hassoc]
          · apply or_append _ (ih _ (size_dropLast _))
            rw [size_append, size_singleton]
            split
            · right
              omega
            · split
              · right
                omega
              · exact .inl rfl
          · simp

theorem not_dots (hproper : Proper name) (hplain : Plain name) :
    name ∉ doubleDots ∧ name ∉ singleDots := by
  have hall : ∀ dots ∈ doubleDots ++ singleDots, dots = [46] ∨ dots = [46, 46] ∨ percent ∈ dots := by
    decide
  have hnot : name ∉ doubleDots ++ singleDots := by
    intro hmem
    rcases hall name hmem with rfl | rfl | hpercent
    · exact hproper.2.1 rfl
    · exact hproper.2.2 rfl
    · exact hplain percent hpercent (by decide)
  exact not_or.mp (mt List.mem_append.mpr hnot)

theorem parsePath_proper (h : ∀ name ∈ names, Proper name ∧ Plain name) :
    parsePath path names = path ++ names := by
  induction names generalizing path with
  | nil => simp [parsePath]
  | cons segment names ih =>
      rw [List.forall_mem_cons] at h
      obtain ⟨hdouble, hsingle⟩ := not_dots h.1.1 h.1.2
      cases names with
      | nil => rw [parsePath, if_neg hdouble, if_neg hsingle]
      | cons next names =>
          rw [parsePath, if_neg hdouble, if_neg hsingle, ih h.2, List.append_assoc,
            List.singleton_append]
          simp

theorem clean_encode (names : List Name) :
    clean (names.map (encode pathKeep)) = (clean names).map (encode pathKeep) := by
  apply clean_map
  intro name special hspecial
  simp only [List.mem_cons, List.not_mem_nil, or_false] at hspecial
  rcases hspecial with rfl | rfl | rfl <;> exact encode_eq_iff (by decide) (by decide)

theorem text_encode (names : List Name) :
    text (names.map (encode pathKeep)) = encode pathKeep (text names) := by
  induction names with
  | nil => rfl
  | cons name names ih =>
      have hcons : ∀ name names, text (name :: names) = slash :: (name ++ text names) :=
        fun _ _ => rfl
      have hslash : encodeByte pathKeep slash = [slash] := rfl
      rw [List.map_cons, hcons, hcons, ih, encode, encode, encode, List.flatMap_cons, hslash,
        List.flatMap_append, List.singleton_append]

theorem pathKeep_digit : ∀ b, (unhex b).isSome = true → pathKeep b = true :=
  forall_byte (by decide +kernel)

theorem pathUnescape_encode_path (s : List UInt8) :
    pathUnescape (encode pathKeep s) = pathUnescape s :=
  pathUnescape_encode_of_keep (by decide) pathKeep_digit s

/-! ### The file of a plain name -/

theorem mem_text {b : UInt8} (h : b ∈ text names) : b = slash ∨ ∃ name ∈ names, b ∈ name := by
  obtain ⟨name, hname, hb⟩ := List.mem_flatMap.mp h
  rcases List.mem_cons.mp hb with heq | hmem
  · exact .inl heq
  · exact .inr ⟨name, hname, hmem⟩

theorem beforeQuery_text (h : ∀ name ∈ names, Plain name) :
    beforeQuery (text names) = (text names).tail := by
  have hbytes : ∀ b ∈ text names, b ∉ [9, 10, 13, 35, 63] := by
    intro b hb
    rcases mem_text hb with rfl | ⟨name, hname, hmem⟩
    · decide
    · have hb' := h name hname b hmem
      simp only [List.mem_cons, List.not_mem_nil, or_false, not_or] at hb' ⊢
      simp only [hb', not_false_eq_true, and_self]
  have htabs : removeTabs (text names) = text names :=
    removeTabs_self fun b hb hmem => hbytes b hb (List.mem_append_left [35, 63] hmem)
  unfold beforeQuery beforeFragment
  rw [htabs, cut_of_not_mem fun hmem => hbytes 35 hmem (by decide)]
  dsimp only
  rw [cut_of_not_mem fun hmem => hbytes 63 hmem (by decide)]

theorem browserPath_text (h : ∀ name ∈ names, Proper name ∧ Plain name) (hne : names ≠ []) :
    browserPath (text names) = names.map (encode pathKeep) := by
  have hseparators : ∀ name ∈ names, ∀ b ∈ name, isSeparator b = false := by
    intro name hname b hb
    have hb' := (h name hname).2 b hb
    simp only [List.mem_cons, List.not_mem_nil, or_false, not_or] at hb'
    simp only [isSeparator, slash, hb', decide_false, Bool.or_self]
  have hsplit := splitOnP_text (by decide) hseparators
  cases names with
  | nil => contradiction
  | cons name names =>
      have hcons : text (name :: names) = slash :: (name ++ text names) := rfl
      have htail : (name ++ text names).splitOnP isSeparator = name :: names := by
        rw [hcons, List.splitOnP_cons_eq_if_modifyHead, if_pos (by decide)] at hsplit
        exact (List.cons.inj hsplit).2
      unfold browserPath
      rw [beforeQuery_text fun name hname => (h name hname).2, hcons, List.tail_cons, htail,
        parsePath_proper h, List.nil_append]

theorem servedFile_plain (hpre : ∀ n ∈ pre, Proper n ∧ Plain n)
    (hkeep : ∀ n ∈ pre, ∀ b ∈ n, pathKeep b = true) (hproper : Proper name) (hplain : Plain name)
    (hvalid : validName name = true) :
    servedFile root pre (browserPath (text (pre ++ [name]))) = some (root ++ [name]) := by
  have hall : ∀ n ∈ pre ++ [name], Proper n ∧ Plain n := by
    intro n hn
    rcases List.mem_append.mp hn with hn | hn
    · exact hpre n hn
    · rw [List.mem_singleton.mp hn]
      exact ⟨hproper, hplain⟩
  have hself : pre.map (encode pathKeep) = pre :=
    (List.map_congr_left fun n hn => encode_self (hkeep n hn)).trans (List.map_id pre)
  have hcleaned : clean (browserPath (text (pre ++ [name]))) = pre ++ [encode pathKeep name] := by
    rw [browserPath_text hall (by simp), clean_encode, clean_proper fun n hn => (hall n hn).1,
      List.map_append, hself, List.map_singleton]
  have hdecoded : pathUnescape (encode pathKeep name) = some name := by
    rw [pathUnescape_encode_path]
    exact pathUnescape_self fun hmem => hplain percent hmem (by decide)
  have hslash : slash ∉ name := fun hmem => hplain slash hmem (by decide)
  have hclean : clean [name] = [name] := clean_proper (by simpa using hproper)
  unfold servedFile
  rw [hcleaned, if_pos (List.prefix_append pre _), List.drop_left, text_singleton, List.tail_cons,
    hdecoded]
  dsimp only
  rw [if_pos hvalid, List.splitOn_eq_singleton hslash, hclean]

/-! ### Nothing but plain names is found -/

theorem beforeQuery_sublist (url : List UInt8) : (beforeQuery url).Sublist url.tail := by
  have hfragment : (beforeFragment url).Sublist url :=
    (List.takeWhile_sublist _).trans List.filter_sublist
  exact ((List.takeWhile_sublist _).trans hfragment).tail

theorem mem_beforeQuery {url : List UInt8} (h : b ∈ beforeQuery url) : b ∉ [9, 10, 13, 35, 63] := by
  have hpath : b ∈ (cut 63 (beforeFragment url)).1 := List.mem_of_mem_tail h
  have hquestion := List.mem_takeWhile_imp hpath
  have hfragment : b ∈ beforeFragment url := (List.takeWhile_sublist _).subset hpath
  have hhash := List.mem_takeWhile_imp hfragment
  have htabs := List.of_mem_filter ((List.takeWhile_sublist _).subset hfragment)
  simp only [ne_eq, decide_eq_true_eq] at hquestion hhash htabs
  simp only [List.mem_cons, List.not_mem_nil, or_false, not_or]
  exact ⟨htabs.1, htabs.2.1, htabs.2.2, hhash, hquestion⟩

/-- What the server cleans is what the browser asks for without its codes. -/
theorem served_rest {found : List Name} (hpre : ∀ n ∈ pre, percent ∉ n)
    (h : servedFile root pre (browserPath s) = some found) :
    ∃ rest decoded, clean (parsePath [] ((beforeQuery s).splitOnP isSeparator)) = pre ++ rest ∧
      pathUnescape (text rest).tail = some decoded ∧ found = root ++ clean (decoded.splitOn slash) := by
  unfold servedFile browserPath at h
  rw [clean_encode] at h
  split at h
  · next hprefix =>
      obtain ⟨after, hafter⟩ := hprefix
      obtain ⟨pre', rest, hcleaned, hpre', hrest⟩ := List.map_eq_append_iff.mp hafter.symm
      have hself : pre'.map (encode pathKeep) = pre' := by
        have hmem : ∀ n ∈ pre', encode pathKeep n = n := fun n hn =>
          encode_of_not_mem (hpre _ (hpre' ▸ List.mem_map_of_mem hn))
        exact (List.map_congr_left hmem).trans (List.map_id pre')
      have htail : (encode pathKeep (text rest)).tail = encode pathKeep (text rest).tail := by
        cases rest with
        | nil => rfl
        | cons name names => rfl
      rw [← hafter, List.drop_left, ← hrest, text_encode, htail, pathUnescape_encode_path] at h
      split at h
      · next decoded hdecoded =>
          split at h
          · cases h
            exact ⟨rest, decoded, by rw [hcleaned, ← hpre', hself], hdecoded, rfl⟩
          · contradiction
      · contradiction
  · contradiction

/-- A name that is found as it was written has come through every step unchanged,
since each of them can only shorten the text. -/
theorem unchanged {rest : List Name} (hne : name ≠ [])
    (hcleaned : clean (parsePath [] ((beforeQuery (text (pre ++ [name]))).splitOnP isSeparator)) =
      pre ++ rest)
    (hdecoded : pathUnescape (text rest).tail = some decoded)
    (hname : name ∈ decoded.splitOn slash) :
    beforeQuery (text (pre ++ [name])) = (text (pre ++ [name])).tail ∧
      pre ++ rest = (text (pre ++ [name])).tail.splitOnP isSeparator ∧
      (text rest).tail = name ∧ decoded = name := by
  have hsub := beforeQuery_sublist (text (pre ++ [name]))
  have hcut := hsub.length_le
  have hsplit : size ((beforeQuery (text (pre ++ [name]))).splitOnP isSeparator) = _ :=
    size_splitOnP _
  have hparse := parsePath_or [] ((beforeQuery (text (pre ++ [name]))).splitOnP isSeparator)
  have hclean := clean_or (parsePath [] ((beforeQuery (text (pre ++ [name]))).splitOnP isSeparator))
  have hcode := eq_or_length_lt hdecoded
  have hpart : name = decoded ∨ name.length < decoded.length := by
    rw [List.splitOn_eq_splitOnP] at hname
    exact Strings.mem_splitOnP_or hname
  have hparse' := length_le_of_or hparse
  have hclean' := length_le_of_or hclean
  have hcode' := length_le_of_or hcode
  have hpart' := length_le_of_or hpart
  have htext : (text (pre ++ [name])).length = size pre + (name.length + 1) := by
    rw [← size_singleton, ← size_append]
    rfl
  have hpos := List.length_pos_of_ne_nil hne
  rw [hcleaned, size_append] at hclean hclean'
  rw [List.length_tail] at hcode hcode' hcut
  have hrest : (text rest).length = size rest := rfl
  rw [List.nil_append] at hparse hparse'
  have hcut_eq : beforeQuery (text (pre ++ [name])) = (text (pre ++ [name])).tail := by
    apply hsub.eq_of_length
    rw [List.length_tail]
    omega
  have hparse_eq := hparse.resolve_right (by omega)
  have hclean_eq := hclean.resolve_right (by omega)
  have hcode_eq := hcode.resolve_right (by omega)
  have hpart_eq := hpart.resolve_right (by omega)
  refine ⟨hcut_eq, ?_, ?_, hpart_eq.symm⟩
  · rw [hclean_eq, hparse_eq, hcut_eq]
  · rw [← hcode_eq, hpart_eq]

theorem plain_of_servedFile (hpre : ∀ n ∈ pre, percent ∉ n) (hne : name ≠ []) (hslash : slash ∉ name)
    (h : servedFile root pre (browserPath (text (pre ++ [name]))) = some (root ++ [name])) :
    Plain name := by
  obtain ⟨rest, decoded, hcleaned, hdecoded, hfound⟩ := served_rest hpre h
  rw [List.append_cancel_left_eq] at hfound
  have hname : name ∈ decoded.splitOn slash := mem_clean (hfound ▸ List.mem_singleton_self name)
  obtain ⟨hquery, hsplit, hrest, rfl⟩ := unchanged hne hcleaned hdecoded hname
  have htail : decoded.Sublist (text (pre ++ [decoded])).tail := by
    rw [text_append, text_singleton]
    cases pre with
    | nil => exact List.Sublist.refl decoded
    | cons first pre =>
        have hlast := List.sublist_append_right (first ++ text pre) (slash :: decoded)
        exact (List.sublist_cons_self slash decoded).trans hlast
  intro b hb hmem
  have hmark := mem_beforeQuery (hquery ▸ htail.subset hb)
  have hpercent : percent ∉ decoded := by
    intro hpercent
    rw [hrest] at hdecoded
    exact Nat.lt_irrefl _ (length_lt_of_mem hpercent hdecoded)
  have hbackslash : isSeparator b = false := by
    rcases mem_text (List.mem_of_mem_tail (hrest ▸ hb)) with rfl | ⟨segment, hsegment, hb'⟩
    · exact absurd hb hslash
    · exact Strings.not_of_mem_splitOnP (hsplit ▸ List.mem_append_right pre hsegment) b hb'
  simp only [List.mem_cons, List.not_mem_nil, or_false, not_or] at hmark hmem
  rcases hmem with h | h | h | h | rfl | rfl | h | rfl
  · exact hmark.1 h
  · exact hmark.2.1 h
  · exact hmark.2.2.1 h
  · exact hmark.2.2.2.1 h
  · exact hpercent hb
  · exact hslash hb
  · exact hmark.2.2.2.2 h
  · exact absurd hbackslash (by decide)

end TSymbiote.Url
