import Mathlib.Data.List.Infix

/-! # Reading one CSV record

The reader of the source language's standard library on one record, with a comma
between fields and without lazy quotes, trimming or comments. A field that begins
with a quote runs to the closing quote, over commas and line ends, and two quotes
in it are one; in any other field a quote is an error. Carriage returns before a
line feed and before the end of the text are dropped, and empty lines skipped.
-/

namespace TSymbiote.Csv

inductive ReadError where
  | eof
  | bareQuote
  | quote
  deriving DecidableEq, Repr

def normalize : List Char → List Char
  | [] => []
  | ['\r'] => []
  | '\r' :: '\n' :: rest => '\n' :: normalize rest
  | c :: rest => c :: normalize rest

/-- Where the reader stands: before a field, in one without quotes, in a quoted
one, or after a quote in a quoted one. -/
inductive Mode where
  | start
  | plain
  | quoted
  | closing
  deriving DecidableEq, Repr

/-- The fields of the record from here on, `field` being the first one so far. -/
def fields : Mode → List Char → List Char → Except ReadError (List (List Char))
  | .quoted, _, [] => .error .quote
  | .quoted, field, c :: rest =>
      if c = '"' then fields .closing field rest else fields .quoted (field ++ [c]) rest
  | .closing, field, [] => .ok [field]
  | .closing, field, c :: rest =>
      if c = '"' then fields .quoted (field ++ [c]) rest
      else if c = ',' then (fields .start [] rest).map (field :: ·)
      else if c = '\n' then .ok [field]
      else .error .quote
  | .start, field, [] => .ok [field]
  | .start, field, c :: rest =>
      if c = '"' then fields .quoted field rest
      else if c = ',' then (fields .start [] rest).map (field :: ·)
      else if c = '\n' then .ok [field]
      else fields .plain (field ++ [c]) rest
  | .plain, field, [] => .ok [field]
  | .plain, field, c :: rest =>
      if c = '"' then .error .bareQuote
      else if c = ',' then (fields .start [] rest).map (field :: ·)
      else if c = '\n' then .ok [field]
      else fields .plain (field ++ [c]) rest

def skipEmptyLines (text : List Char) : List Char := text.dropWhile (· = '\n')

def read (text : List Char) : Except ReadError (List (List Char)) :=
  match skipEmptyLines (normalize text) with
  | [] => .error .eof
  | c :: line => fields .start [] (c :: line)

example : read "a,\"b \"\"c\"\",d\",\r\n".toList = .ok ["a".toList, "b \"c\",d".toList, []] := by
  decide +kernel

/-! ## Every field is in the text -/

/-- A field as it is written between quotes. -/
def doubled (field : List Char) : List Char :=
  field.flatMap fun c => if c = '"' then ['"', '"'] else [c]

theorem doubled_append (f g : List Char) : doubled (f ++ g) = doubled f ++ doubled g :=
  List.flatMap_append

theorem doubled_singleton {c : Char} (hc : c ≠ '"') : doubled [c] = [c] := by
  simp [doubled, hc]

/-- What is read of the text when the current field is `field`. -/
def Behind (read field : List Char) : Mode → Prop
  | .start => field = []
  | .plain => doubled field <:+ read
  | .quoted => doubled field <:+ read
  | .closing => doubled field ++ ['"'] <:+ read

theorem Behind.doubled_infix {read field : List Char} {mode : Mode} (h : Behind read field mode)
    (rest : List Char) : doubled field <:+: read ++ rest := by
  have hread : doubled field <:+: read := by
    cases mode with
    | start =>
        cases h
        exact List.nil_infix
    | plain => exact List.IsSuffix.isInfix h
    | quoted => exact List.IsSuffix.isInfix h
    | closing => exact (List.prefix_append _ _).isInfix.trans (List.IsSuffix.isInfix h)
  exact hread.trans (List.prefix_append _ _).isInfix

theorem suffix_concat {f read : List Char} (h : f <:+ read) (c : Char) : f ++ [c] <:+ read ++ [c] := by
  rcases h with ⟨before, rfl⟩
  exact ⟨before, by rw [List.append_assoc]⟩

theorem ok_of_map {field : List Char} {result : Except ReadError (List (List Char))}
    {record : List (List Char)} (h : result.map (field :: ·) = .ok record) :
    ∃ tail, result = .ok tail ∧ record = field :: tail := by
  cases result with
  | error err => cases h
  | ok tail =>
      cases h
      exact ⟨tail, rfl, rfl⟩

/-- The characters within a field. -/
inductive Moves : Mode → List Char → Char → Mode → List Char → Prop where
  | opened {field : List Char} : Moves .start field '"' .quoted field
  | quoted {field : List Char} {c : Char} (hc : c ≠ '"') : Moves .quoted field c .quoted (field ++ [c])
  | closed {field : List Char} : Moves .quoted field '"' .closing field
  | doubled {field : List Char} : Moves .closing field '"' .quoted (field ++ ['"'])
  | plain {mode : Mode} {field : List Char} {c : Char} (hmode : mode = .start ∨ mode = .plain)
      (hc : c ≠ ',' ∧ c ≠ '"' ∧ c ≠ '\n') : Moves mode field c .plain (field ++ [c])

/-- What one more character makes of a record: the field ends, or the record
ends, or the field goes on. -/
inductive Next (rest : List Char) : Mode → List Char → Char → List (List Char) → Prop where
  | comma {mode : Mode} {field : List Char} {tail : List (List Char)}
      (h : fields .start [] rest = .ok tail) : Next rest mode field ',' (field :: tail)
  | line {mode : Mode} {field : List Char} : Next rest mode field '\n' [field]
  | moves {mode mode' : Mode} {field field' : List Char} {c : Char} {record : List (List Char)}
      (hmove : Moves mode field c mode' field') (h : fields mode' field' rest = .ok record) :
      Next rest mode field c record

theorem fields_next {mode : Mode} {field rest : List Char} {c : Char} {record : List (List Char)}
    (h : fields mode field (c :: rest) = .ok record) : Next rest mode field c record := by
  have hcomma : ∀ {mode}, c = ',' → (fields .start [] rest).map (field :: ·) = .ok record →
      Next rest mode field c record := by
    intro mode hc hmap
    obtain ⟨tail, htail, hrecord⟩ := ok_of_map hmap
    rw [hc, hrecord]
    exact .comma htail
  have hline : ∀ {mode}, c = '\n' → Except.ok [field] = (Except.ok record : Except ReadError _) →
      Next rest mode field c record := by
    intro mode hc hrecord
    cases hrecord
    rw [hc]
    exact .line
  cases mode with
  | quoted =>
      unfold fields at h
      split at h
      · next hc => exact hc ▸ .moves .closed h
      · next hc => exact .moves (.quoted hc) h
  | closing =>
      unfold fields at h
      split at h
      · next hc => exact .moves (hc ▸ .doubled) h
      · split at h
        · exact hcomma ‹_› h
        · split at h
          · exact hline ‹_› h
          · contradiction
  | start =>
      unfold fields at h
      split at h
      · next hc => exact hc ▸ .moves .opened h
      · next hquote =>
          split at h
          · exact hcomma ‹_› h
          · next hnocomma =>
              split at h
              · exact hline ‹_› h
              · next hnoline => exact .moves (.plain (.inl rfl) ⟨hnocomma, hquote, hnoline⟩) h
  | plain =>
      unfold fields at h
      split at h
      · contradiction
      · next hquote =>
          split at h
          · exact hcomma ‹_› h
          · next hnocomma =>
              split at h
              · exact hline ‹_› h
              · next hnoline => exact .moves (.plain (.inr rfl) ⟨hnocomma, hquote, hnoline⟩) h

theorem Behind.move {read field field' : List Char} {mode mode' : Mode} {c : Char}
    (h : Behind read field mode) (hmove : Moves mode field c mode' field') :
    Behind (read ++ [c]) field' mode' := by
  cases hmove with
  | opened =>
      have hempty : field = [] := h
      show doubled field <:+ read ++ ['"']
      rw [hempty]
      exact List.nil_suffix
  | quoted hc =>
      show doubled (field ++ [c]) <:+ read ++ [c]
      rw [doubled_append, doubled_singleton hc]
      exact suffix_concat h c
  | closed => exact suffix_concat h '"'
  | doubled =>
      -- The pair of quotes now read is the doubled quote.
      have hpair : doubled (field ++ ['"']) = (doubled field ++ ['"']) ++ ['"'] := by
        rw [doubled_append, List.append_assoc]
        rfl
      show doubled (field ++ ['"']) <:+ read ++ ['"']
      rw [hpair]
      exact suffix_concat h '"'
  | plain hmode hc =>
      have hfield : doubled field <:+ read := by
        rcases hmode with rfl | rfl
        · have hempty : field = [] := h
          rw [hempty]
          exact List.nil_suffix
        · exact h
      show doubled (field ++ [c]) <:+ read ++ [c]
      rw [doubled_append, doubled_singleton hc.2.1]
      exact suffix_concat hfield c

theorem fields_infix {mode : Mode} {field rest read : List Char} {record : List (List Char)}
    (h : fields mode field rest = .ok record) (hbehind : Behind read field mode) :
    ∀ f ∈ record, doubled f <:+: read ++ rest := by
  induction rest generalizing mode field read record with
  | nil =>
      have hlast := hbehind.doubled_infix []
      cases mode <;> simp [fields] at h <;> subst h <;> simpa using hlast
  | cons c rest ih =>
      have hread : read ++ c :: rest = (read ++ [c]) ++ rest := by simp
      have hlast := hbehind.doubled_infix (c :: rest)
      cases fields_next h with
      | comma htail =>
          intro f hf
          rcases List.mem_cons.mp hf with rfl | hf
          · exact hlast
          · rw [hread]
            exact ih htail rfl f hf
      | line => simpa using hlast
      | moves hmove hrest =>
          rw [hread]
          exact ih hrest (hbehind.move hmove)

theorem prefix_of_normalize {l text : List Char} (hl : '\n' ∉ l) (h : l <+: normalize text) :
    l <+: text := by
  fun_induction normalize text generalizing l with
  | case1 => exact h
  | case2 =>
      rw [List.prefix_nil.mp h]
      exact List.nil_prefix
  | case3 rest ih =>
      rcases List.prefix_cons_iff.mp h with rfl | ⟨t, rfl, _⟩
      · exact List.nil_prefix
      · simp at hl
  | case4 c rest _ _ ih =>
      rcases List.prefix_cons_iff.mp h with rfl | ⟨t, rfl, ht⟩
      · exact List.nil_prefix
      · have hnl : '\n' ∉ t := fun hm => hl (List.mem_cons_of_mem _ hm)
        exact (List.prefix_cons_inj c).mpr (ih hnl ht)

/-- Dropping carriage returns brings no two other characters together, except
around a line feed. -/
theorem infix_of_normalize {l text : List Char} (hl : '\n' ∉ l) (h : l <:+: normalize text) :
    l <:+: text := by
  fun_induction normalize text with
  | case1 => exact h
  | case2 =>
      rw [List.infix_nil.mp h]
      exact List.nil_infix
  | case3 rest ih =>
      rcases List.infix_cons_iff.mp h with hpre | hinf
      · rcases List.prefix_cons_iff.mp hpre with rfl | ⟨t, rfl, _⟩
        · exact List.nil_infix
        · simp at hl
      · exact (ih hinf).trans (List.suffix_append ['\r', '\n'] rest).isInfix
  | case4 c rest hend hcrlf ih =>
      rcases List.infix_cons_iff.mp h with hpre | hinf
      · rcases List.prefix_cons_iff.mp hpre with rfl | ⟨t, rfl, ht⟩
        · exact List.nil_infix
        · have hnl : '\n' ∉ t := fun hm => hl (List.mem_cons_of_mem _ hm)
          exact ((List.prefix_cons_inj c).mpr (prefix_of_normalize hnl ht)).isInfix
      · exact (ih hinf).trans (List.suffix_cons c rest).isInfix

theorem doubled_replicate (k : Nat) :
    doubled (List.replicate k '"') = List.replicate (2 * k) '"' := by
  induction k with
  | zero => rfl
  | succ k ih =>
      show '"' :: '"' :: doubled (List.replicate k '"') = List.replicate (2 * k + 2) '"'
      rw [ih]
      rfl

/-- A run of quotes in a field of the record is written as one twice as long. -/
theorem run_doubled {text : List Char} {record : List (List Char)} (h : read text = .ok record)
    {f : List Char} (hf : f ∈ record) {k : Nat} (hrun : List.replicate k '"' <:+: f) :
    List.replicate (2 * k) '"' <:+: text := by
  have htext : doubled f <:+: skipEmptyLines (normalize text) := by
    unfold read at h
    split at h
    · cases h
    · next c line hline =>
        have hbehind : Behind [] [] .start := rfl
        rw [hline]
        exact fields_infix h hbehind f hf
  have hdoubled : List.replicate (2 * k) '"' <:+: doubled f := by
    rcases hrun with ⟨before, after, rfl⟩
    rw [doubled_append, doubled_append, doubled_replicate]
    exact ⟨doubled before, doubled after, rfl⟩
  refine infix_of_normalize (fun hm => absurd (List.eq_of_mem_replicate hm) (by decide)) ?_
  exact (hdoubled.trans htext).trans (List.dropWhile_suffix _).isInfix

/-! ## A plain join -/

/-- Nothing in the field means anything to the reader. -/
structure Clean (s : List Char) : Prop where
  comma : ',' ∉ s
  quote : '"' ∉ s
  newline : '\n' ∉ s

theorem Clean.tail {c : Char} {s : List Char} (h : Clean (c :: s)) : Clean s :=
  ⟨fun hm => h.comma (List.mem_cons_of_mem _ hm), fun hm => h.quote (List.mem_cons_of_mem _ hm),
    fun hm => h.newline (List.mem_cons_of_mem _ hm)⟩

theorem Clean.head {c : Char} {s : List Char} (h : Clean (c :: s)) :
    c ≠ ',' ∧ c ≠ '"' ∧ c ≠ '\n' := by
  refine ⟨?_, ?_, ?_⟩
  · intro heq
    subst heq
    exact h.comma List.mem_cons_self
  · intro heq
    subst heq
    exact h.quote List.mem_cons_self
  · intro heq
    subst heq
    exact h.newline List.mem_cons_self

theorem fields_step {mode : Mode} (hmode : mode = .start ∨ mode = .plain) {c : Char}
    (hc : c ≠ ',' ∧ c ≠ '"' ∧ c ≠ '\n') (field rest : List Char) :
    fields mode field (c :: rest) = fields .plain (field ++ [c]) rest := by
  rcases hmode with rfl | rfl <;> simp [fields, hc]

theorem fields_last {mode : Mode} (hmode : mode = .start ∨ mode = .plain) {s : List Char}
    (hs : Clean s) (field : List Char) : fields mode field s = .ok [field ++ s] := by
  induction s generalizing mode field with
  | nil => rcases hmode with rfl | rfl <;> simp [fields]
  | cons c s ih =>
      rw [fields_step hmode hs.head, ih (.inr rfl) hs.tail, List.append_assoc, List.singleton_append]

theorem fields_comma {mode : Mode} (hmode : mode = .start ∨ mode = .plain) {s : List Char}
    (hs : Clean s) (field rest : List Char) :
    fields mode field (s ++ ',' :: rest) =
      (fields .start [] rest).map ((field ++ s) :: ·) := by
  induction s generalizing mode field with
  | nil => rcases hmode with rfl | rfl <;> simp [fields]
  | cons c s ih =>
      rw [List.cons_append, fields_step hmode hs.head, ih (.inr rfl) hs.tail, List.append_assoc,
        List.singleton_append]

theorem fields_join {ss : List (List Char)} (hne : ss ≠ []) (hss : ∀ s ∈ ss, Clean s) :
    fields .start [] ([','].intercalate ss) = .ok ss := by
  induction ss with
  | nil => exact absurd rfl hne
  | cons s ss ih =>
      have hs := hss s List.mem_cons_self
      cases ss with
      | nil => rw [List.intercalate_singleton, fields_last (.inl rfl) hs, List.nil_append]
      | cons s' ss =>
          have hrest := ih (List.cons_ne_nil _ _) fun t ht => hss t (List.mem_cons_of_mem _ ht)
          rw [List.intercalate_cons_cons, List.append_assoc, List.singleton_append,
            fields_comma (.inl rfl) hs, hrest]
          rfl

/-- Without quotes in the text, no field of the record has a separator in it. -/
theorem fields_unquoted {mode : Mode} {field rest : List Char} {record : List (List Char)}
    (hmode : mode = .start ∨ mode = .plain) (h : fields mode field rest = .ok record)
    (hrest : '"' ∉ rest) (hfield : ',' ∉ field ∧ '\n' ∉ field) :
    ∀ f ∈ record, ',' ∉ f ∧ '\n' ∉ f := by
  induction rest generalizing mode field record with
  | nil => rcases hmode with rfl | rfl <;> simp [fields] at h <;> subst h <;> simpa using hfield
  | cons c rest ih =>
      have hquote : c ≠ '"' := fun heq => hrest (heq ▸ List.mem_cons_self)
      have hrest' : '"' ∉ rest := fun hm => hrest (List.mem_cons_of_mem _ hm)
      cases fields_next h with
      | comma htail =>
          intro f hf
          rcases List.mem_cons.mp hf with rfl | hf
          · exact hfield
          · exact ih (.inl rfl) htail hrest' (by simp) f hf
      | line => simpa using hfield
      | moves hmove hmoved =>
          cases hmove with
          | plain _ hc =>
              apply ih (.inr rfl) hmoved hrest'
              simp [hfield, Ne.symm hc.1, Ne.symm hc.2.2]
          | opened => exact absurd rfl hquote
          | quoted => simp at hmode
          | closed => exact absurd rfl hquote
          | doubled => exact absurd rfl hquote

theorem normalize_cons {c : Char} {rest : List Char} (hrest : rest ≠ []) (hnl : '\n' ∉ rest) :
    normalize (c :: rest) = c :: normalize rest := by
  cases rest with
  | nil => exact absurd rfl hrest
  | cons d rest =>
      have hd : d ≠ '\n' := fun heq => hnl (heq ▸ List.mem_cons_self)
      by_cases hc : c = '\r'
      · subst hc
        rw [normalize]
        · simp
        · intro rest' _ heq
          exact hd (List.cons.inj heq).1
      · rw [normalize]
        · simp [hc]
        · intro rest' hcr
          exact absurd hcr hc

/-- A carriage return at the end of the text is lost. -/
theorem normalize_concat {text : List Char} (hnl : '\n' ∉ text) :
    normalize (text ++ ['\r']) = text := by
  induction text with
  | nil => rfl
  | cons c text ih =>
      have htext : '\n' ∉ text := fun hm => hnl (List.mem_cons_of_mem _ hm)
      rw [List.cons_append, normalize_cons (by simp) (by simp [htext]), ih htext]

theorem normalize_self {text : List Char} (hnl : '\n' ∉ text) (hend : ∀ t, text ≠ t ++ ['\r']) :
    normalize text = text := by
  induction text with
  | nil => rfl
  | cons c text ih =>
      have htext : '\n' ∉ text := fun hm => hnl (List.mem_cons_of_mem _ hm)
      cases text with
      | nil =>
          have hc : c ≠ '\r' := fun heq => hend [] (by rw [heq]; rfl)
          simp [normalize, hc]
      | cons d text =>
          rw [normalize_cons (by simp) htext, ih htext fun t ht => hend (c :: t) (by rw [ht]; rfl)]

/-- One line is read as it is. -/
theorem read_line {text line : List Char} (hline : normalize text = line) (hne : line ≠ [])
    (hnl : '\n' ∉ line) : read text = fields .start [] line := by
  cases line with
  | nil => exact absurd rfl hne
  | cons c line =>
      have hc : c ≠ '\n' := fun heq => hnl (heq ▸ List.mem_cons_self)
      simp [read, hline, skipEmptyLines, hc]

theorem mem_join {c : Char} (hc : c ≠ ',') {ss : List (List Char)} :
    c ∈ [','].intercalate ss ↔ ∃ s ∈ ss, c ∈ s := by
  induction ss with
  | nil => simp
  | cons s ss ih =>
      cases ss with
      | nil => simp
      | cons s' ss =>
          rw [List.intercalate_cons_cons, List.mem_append, List.mem_append, ih]
          simp [hc]

theorem join_concat (init : List (List Char)) (s t : List Char) :
    [','].intercalate (init ++ [s ++ t]) = [','].intercalate (init ++ [s]) ++ t := by
  induction init with
  | nil => simp
  | cons a init ih =>
      have hne : ∀ u : List Char, init ++ [u] ≠ [] := fun u => by simp
      rw [List.cons_append, List.cons_append, List.intercalate_cons_of_ne_nil (hne _),
        List.intercalate_cons_of_ne_nil (hne _), ih]
      simp only [List.append_assoc]

/-- A join that ends in a carriage return has it from its last field. -/
theorem join_ending {ss : List (List Char)} {u : List Char}
    (h : [','].intercalate ss = u ++ ['\r']) : ∃ init t, ss = init ++ [t ++ ['\r']] := by
  induction ss generalizing u with
  | nil => simp at h
  | cons s ss ih =>
      cases ss with
      | nil =>
          rw [List.intercalate_singleton] at h
          exact ⟨[], u, by rw [h, List.nil_append]⟩
      | cons s' ss =>
          rw [List.intercalate_cons_cons] at h
          rcases List.eq_nil_or_concat ([','].intercalate (s' :: ss)) with hnil | ⟨v, c, hv⟩
          · rw [hnil, List.append_nil] at h
            have hlast := congrArg List.getLast? h
            simp at hlast
          · rw [hv, List.concat_eq_append, ← List.append_assoc] at h
            obtain ⟨_, hc⟩ := List.append_inj' h rfl
            obtain rfl := (List.cons.inj hc).1
            obtain ⟨init, t, hss⟩ := ih (hv.trans (List.concat_eq_append ..))
            exact ⟨s :: init, t, by rw [hss, List.cons_append]⟩

/-- A text without commas inside a join is inside one of the fields. -/
theorem infix_of_join {l : List Char} (hl : ',' ∉ l) {ss : List (List Char)} (hne : ss ≠ [])
    (h : l <:+: [','].intercalate ss) : ∃ s ∈ ss, l <:+: s := by
  induction ss with
  | nil => exact absurd rfl hne
  | cons s ss ih =>
      cases ss with
      | nil =>
          rw [List.intercalate_singleton] at h
          exact ⟨s, List.mem_cons_self, h⟩
      | cons s' ss =>
          rw [List.intercalate_cons_cons, List.append_assoc, List.singleton_append] at h
          rcases h with ⟨before, after, heq⟩
          rcases List.append_eq_append_iff.mp heq with ⟨mid, hs, _⟩ | ⟨mid, hl', hmid⟩
          · exact ⟨s, List.mem_cons_self, before, mid, hs.symm⟩
          · cases mid with
            | nil =>
                rw [List.append_nil] at hl'
                exact ⟨s, List.mem_cons_self, before, [], by rw [List.append_nil, hl']⟩
            | cons c mid =>
                obtain ⟨rfl, hrest⟩ := List.cons.inj hmid
                rcases List.append_eq_append_iff.mp hl' with ⟨gap, _, hgap⟩ | ⟨gap, hbefore, hgap⟩
                · exact absurd (hgap ▸ List.mem_append_right _ List.mem_cons_self) hl
                · cases gap with
                  | nil =>
                      rw [List.nil_append] at hgap
                      exact absurd (hgap ▸ List.mem_cons_self) hl
                  | cons d gap =>
                      obtain ⟨_, hmid'⟩ := List.cons.inj hgap
                      have hinfix : l <:+: [','].intercalate (s' :: ss) :=
                        ⟨gap, after, by rw [hrest, hmid']; rfl⟩
                      obtain ⟨t, ht, hlt⟩ := ih (List.cons_ne_nil _ _) hinfix
                      exact ⟨t, List.mem_cons_of_mem _ ht, hlt⟩

/-! ## Which plain joins read back -/

/-- The join of the fields is read as a record with the same fields in it. -/
def ReadsBack (ss : List (List Char)) : Prop :=
  ∃ record, read ([','].intercalate ss) = .ok record ∧ ∀ s, s ∈ record ↔ s ∈ ss

/-- No field has a separator or a quote, the only field is not empty, and a last
field that ends in a carriage return occurs before, with it and without. -/
structure Joinable (ss : List (List Char)) : Prop where
  nonblank : ss ≠ [[]]
  clean : ∀ s ∈ ss, Clean s
  ending : ∀ init t, ss = init ++ [t ++ ['\r']] → t ∈ init ∧ t ++ ['\r'] ∈ init

theorem clean_init {init : List (List Char)} {t : List Char}
    (h : ∀ s ∈ init ++ [t ++ ['\r']], Clean s) : ∀ s ∈ init ++ [t], Clean s := by
  intro s hs
  rcases List.mem_append.mp hs with hs | hs
  · exact h s (List.mem_append_left _ hs)
  · rw [List.mem_singleton.mp hs]
    have hlast := h (t ++ ['\r']) (by simp)
    exact ⟨fun hm => hlast.comma (List.mem_append_left _ hm),
      fun hm => hlast.quote (List.mem_append_left _ hm),
      fun hm => hlast.newline (List.mem_append_left _ hm)⟩

theorem newline_notMem_join {ss : List (List Char)} (hss : ∀ s ∈ ss, Clean s) :
    '\n' ∉ [','].intercalate ss := by
  rw [mem_join (by decide)]
  intro hmem
  rcases hmem with ⟨s, hs, hm⟩
  exact (hss s hs).newline hm

theorem join_eq_nil {ss : List (List Char)} (hne : ss ≠ []) :
    [','].intercalate ss = [] ↔ ss = [[]] := by
  cases ss with
  | nil => exact absurd rfl hne
  | cons s ss => cases ss <;> simp [List.intercalate_cons_cons]

/-- The last field loses its carriage return. -/
theorem read_return {init : List (List Char)} {t : List Char}
    (hss : ∀ s ∈ init ++ [t ++ ['\r']], Clean s) :
    read ([','].intercalate (init ++ [t ++ ['\r']])) =
      if init ++ [t] = [[]] then .error .eof else .ok (init ++ [t]) := by
  have hclean := clean_init hss
  have hnl := newline_notMem_join hclean
  have hline : normalize ([','].intercalate (init ++ [t ++ ['\r']])) =
      [','].intercalate (init ++ [t]) := by
    rw [join_concat, normalize_concat hnl]
  have hnil : init ++ [t] ≠ [] := by simp
  split
  · next hblank =>
      rw [hblank, List.intercalate_singleton] at hline
      simp [read, hline, skipEmptyLines]
  · next hblank =>
      rw [read_line hline (mt (join_eq_nil hnil).mp hblank) hnl, fields_join hnil hclean]

theorem read_clean {ss : List (List Char)} (hne : ss ≠ []) (hblank : ss ≠ [[]])
    (hss : ∀ s ∈ ss, Clean s) (hend : ∀ init t, ss ≠ init ++ [t ++ ['\r']]) :
    read ([','].intercalate ss) = .ok ss := by
  have hnl := newline_notMem_join hss
  have hline : normalize ([','].intercalate ss) = [','].intercalate ss := by
    refine normalize_self hnl fun t ht => ?_
    obtain ⟨init, t', hss'⟩ := join_ending ht
    exact hend init t' hss'
  rw [read_line hline (mt (join_eq_nil hne).mp hblank) hnl, fields_join hne hss]

/-- Read back, the fields have no quotes: the longest run of quotes in them would
have to be twice as long. -/
theorem quote_free {ss : List (List Char)} (hne : ss ≠ []) (h : ReadsBack ss) :
    ∀ s ∈ ss, '"' ∉ s := by
  rcases h with ⟨record, hread, hsame⟩
  intro s hs hquote
  have hruns : ∀ n, ∃ f ∈ ss, List.replicate (2 ^ n) '"' <:+: f := by
    intro n
    induction n with
    | zero =>
        obtain ⟨before, after, rfl⟩ := List.append_of_mem hquote
        exact ⟨_, hs, before, after, by simp⟩
    | succ n ih =>
        rcases ih with ⟨f, hf, hrun⟩
        have htext := run_doubled hread ((hsame f).mpr hf) hrun
        rw [Nat.pow_succ, Nat.mul_comm]
        exact infix_of_join (fun hm => absurd (List.eq_of_mem_replicate hm) (by decide)) hne htext
  obtain ⟨f, hf, hrun⟩ := hruns ([','].intercalate ss).length
  have htext := (run_doubled hread ((hsame f).mpr hf) hrun).length_le
  have hlt := Nat.lt_two_pow_self (n := ([','].intercalate ss).length)
  rw [List.length_replicate] at htext
  omega

theorem clean_of_readsBack {ss : List (List Char)} (hne : ss ≠ []) (h : ReadsBack ss) :
    ∀ s ∈ ss, Clean s := by
  have hquote := quote_free hne h
  rcases h with ⟨record, hread, hsame⟩
  have htext : '"' ∉ skipEmptyLines (normalize ([','].intercalate ss)) := by
    intro hm
    have hnorm := (List.dropWhile_suffix _).subset hm
    have hinfix : ['"'] <:+: normalize ([','].intercalate ss) := (List.singleton_infix_iff _ _).mpr hnorm
    have hjoin := (List.singleton_infix_iff _ _).mp (infix_of_normalize (by decide) hinfix)
    obtain ⟨s, hs, hq⟩ := (mem_join (by decide)).mp hjoin
    exact hquote s hs hq
  intro s hs
  have hrecord : ',' ∉ s ∧ '\n' ∉ s := by
    unfold read at hread
    split at hread
    · cases hread
    · next c line hline =>
        rw [hline] at htext
        exact fields_unquoted (.inl rfl) hread htext (by simp) s ((hsame s).mpr hs)
  exact ⟨hrecord.1, hquote s hs, hrecord.2⟩

/-- The join of some fields reads back exactly when they are joinable. -/
theorem readsBack_iff {ss : List (List Char)} (hne : ss ≠ []) : ReadsBack ss ↔ Joinable ss := by
  constructor
  · intro h
    have hclean := clean_of_readsBack hne h
    rcases h with ⟨record, hread, hsame⟩
    refine ⟨?_, hclean, ?_⟩
    · intro heq
      subst heq
      cases hread
    · intro init t heq
      subst heq
      rw [read_return hclean] at hread
      split at hread
      · cases hread
      · cases hread
        have hne' : t ++ ['\r'] ≠ t := fun heq => by simpa using congrArg List.length heq
        have hwith := (hsame (t ++ ['\r'])).mpr (by simp)
        have hwithout := (hsame t).mp (by simp)
        simp [hne', hne'.symm] at hwith hwithout
        exact ⟨hwithout, hwith⟩
  · intro h
    by_cases hend : ∃ init t, ss = init ++ [t ++ ['\r']]
    · rcases hend with ⟨init, t, rfl⟩
      obtain ⟨hwithout, hwith⟩ := h.ending init t rfl
      have hblank : init ++ [t] ≠ [[]] := by
        intro heq
        have hlen := congrArg List.length heq
        simp only [List.length_append, List.length_singleton] at hlen
        rw [List.length_eq_zero_iff.mp (by omega : init.length = 0)] at hwithout
        cases hwithout
      refine ⟨init ++ [t], by rw [read_return h.clean, if_neg hblank], fun s => ?_⟩
      simp only [List.mem_append, List.mem_singleton]
      constructor
      · intro hs
        rcases hs with hs | rfl
        · exact .inl hs
        · exact .inl hwithout
      · intro hs
        rcases hs with hs | rfl
        · exact .inl hs
        · exact .inl hwith
    · push Not at hend
      exact ⟨ss, read_clean hne h.nonblank h.clean hend, fun _ => Iff.rfl⟩

end TSymbiote.Csv
