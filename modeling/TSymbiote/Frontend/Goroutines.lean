import TSymbiote.Frontend.Text
import TSymbiote.Lib.Regex.Preferred
import TSymbiote.Lib.Replace

/-! # Goroutine dumps

The page splits a dump before each header line and takes the header apart again.
A dump that is put together from records is parsed to the same records.
-/

namespace TSymbiote.Frontend.Goroutines

open Regex
open scoped Strings

@[ext] structure ParsedGoroutine where
  id : Text
  state : Text
  duration : Option Text
  stack : Text
  deriving DecidableEq

/-- `(?=^goroutine \d+)` with the flag `m` -/
def separator : Regex CodeUnit :=
  ahead (inOrder [lineStart, word (ascii "goroutine "), plus digit])

/-- `^goroutine (\d+) \[([^\]]+)\]:` -/
def headerPattern : Regex CodeUnit :=
  inOrder [textStart, word (ascii "goroutine "), group 1 (plus digit), word (ascii " ["),
    group 2 (plus (char fun c => c ≠ unit ']')), word (ascii "]:")]

/-- `^(.+?),\s*(.+)$` -/
def durationPattern : Regex CodeUnit :=
  inOrder [textStart, group 1 (seq anyChar (star false anyChar)), lit ',', star true space,
    group 2 (plus anyChar), textEnd]

def captured (t : Pos CodeUnit) (i : Nat) : Text := (t.capture i).getD []

/-- The callback of `parts.map`. -/
def parsePart (part : Text) : ParsedGoroutine :=
  match exec headerPattern part with
  | none => { id := ascii "?", state := ascii "unknown", duration := none, stack := trim part }
  | some (_, headerMatch) =>
      let id := captured headerMatch 1
      let stateInfo := captured headerMatch 2
      let durationMatch := exec durationPattern stateInfo
      let state := match durationMatch with
        | some (_, t) => captured t 1
        | none => stateInfo
      let duration := durationMatch.map fun m => captured m.2 2
      let stackLines := trim ([newline].intercalate ((part.splitOn newline).drop 1))
      { id, state, duration, stack := stackLines }

def parseGoroutines (stackTrace : Text) : List ParsedGoroutine :=
  ((split separator stackTrace).filter fun part => trim part ≠ []).map parsePart

def formatHeader (g : ParsedGoroutine) : Text :=
  match g.duration with
  | some duration =>
      if duration ≠ [] then
        ascii "goroutine " ++ g.id ++ ascii " [" ++ g.state ++ ascii ", " ++ duration ++ ascii "]:"
      else ascii "goroutine " ++ g.id ++ ascii " [" ++ g.state ++ ascii "]:"
  | none => ascii "goroutine " ++ g.id ++ ascii " [" ++ g.state ++ ascii "]:"

def formatGoroutineText (g : ParsedGoroutine) : Text := formatHeader g ++ [newline] ++ g.stack

/-- Begins with `goroutine ` and a digit. -/
def StartsGoroutine (line : Text) : Prop :=
  ∃ d rest, line = ascii "goroutine " ++ d :: rest ∧ isDigit d = true

/-- A record as a dump has it; its lines are those of the flag `m`. -/
structure Goroutine where
  parsed : ParsedGoroutine
  id_digits : parsed.id ≠ [] ∧ ∀ c ∈ parsed.id, isDigit c = true
  state_line : parsed.state ≠ [] ∧
    ∀ c ∈ parsed.state, isLineTerminator c = false ∧ c ≠ unit ']' ∧ c ≠ unit ','
  duration_line : ∀ duration, parsed.duration = some duration → duration ≠ [] ∧
    (∀ c ∈ duration, isLineTerminator c = false ∧ c ≠ unit ']') ∧
      ∀ c ∈ duration.head?, isSpace c = false
  stack_trimmed : Trimmed parsed.stack
  stack_lines : ∀ before rest, parsed.stack = before ++ rest → atLineStart before.reverse = true →
    ¬ StartsGoroutine rest

/-- A blank line between each two. -/
def dump (gs : List Goroutine) : Text :=
  [newline, newline].intercalate (gs.map fun g => formatGoroutineText g.parsed)

/-! ## The header -/

/-- What is between the brackets. -/
def stateInfo (g : ParsedGoroutine) : Text :=
  match g.duration with
  | some duration => if duration ≠ [] then g.state ++ ascii ", " ++ duration else g.state
  | none => g.state

theorem formatHeader_eq (g : ParsedGoroutine) :
    formatHeader g = ascii "goroutine " ++ (g.id ++ (ascii " [" ++ (stateInfo g ++ ascii "]:"))) := by
  unfold formatHeader stateInfo
  cases g.duration with
  | none => simp
  | some duration =>
      dsimp only
      split <;> simp

theorem stateInfo_line (g : Goroutine) : stateInfo g.parsed ≠ [] ∧
    ∀ c ∈ stateInfo g.parsed, isLineTerminator c = false ∧ c ≠ unit ']' := by
  obtain ⟨hstate, hchars⟩ := g.state_line
  have hchars' : ∀ c ∈ g.parsed.state, isLineTerminator c = false ∧ c ≠ unit ']' := fun c hc =>
    ⟨(hchars c hc).1, (hchars c hc).2.1⟩
  have hcomma : ∀ c ∈ ascii ", ", isLineTerminator c = false ∧ c ≠ unit ']' := by decide
  unfold stateInfo
  cases hduration : g.parsed.duration with
  | none => exact ⟨hstate, hchars'⟩
  | some duration =>
      obtain ⟨hne, hline, _⟩ := g.duration_line duration hduration
      dsimp only
      rw [if_pos hne]
      refine ⟨by simp [hstate], ?_⟩
      intro c hc
      rcases List.mem_append.mp hc with hc | hc
      · rcases List.mem_append.mp hc with hc | hc
        · exact hchars' c hc
        · exact hcomma c hc
      · exact hline c hc

theorem exec_captured {r : Regex CodeUnit} {text first second : Text} {t : Pos CodeUnit}
    (h : Prefers r (.start [] text) t) (hcaptures : t.captures = [(2, second), (1, first)]) :
    ∃ s t, exec r text = some (s, t) ∧ captured t 1 = first ∧ captured t 2 = second := by
  refine ⟨_, t, exec_of_prefers h, ?_, ?_⟩
  · rw [captured, Pos.capture, hcaptures]
    rfl
  · rw [captured, Pos.capture, hcaptures]
    rfl

theorem exec_header (g : Goroutine) (rest : Text) :
    ∃ s t, exec headerPattern (formatHeader g.parsed ++ rest) = some (s, t) ∧
      captured t 1 = g.parsed.id ∧ captured t 2 = stateInfo g.parsed := by
  obtain ⟨hid, hdigits⟩ := g.id_digits
  obtain ⟨hinfo, hline⟩ := stateInfo_line g
  have htext : formatHeader g.parsed ++ rest = ascii "goroutine " ++ (g.parsed.id ++
      (ascii " [" ++ (stateInfo g.parsed ++ (ascii "]:" ++ rest)))) := by
    rw [formatHeader_eq]
    simp
  have hspace : ∀ x : Text, ∀ c ∈ (ascii " [" ++ x).head?, isDigit c = false := by
    rintro x c ⟨⟩
    rfl
  have hbracket : ∀ x : Text, ∀ c ∈ (ascii "]:" ++ x).head?, decide (c ≠ unit ']') = false := by
    rintro x c ⟨⟩
    rfl
  have hinside : ∀ c ∈ stateInfo g.parsed, decide (c ≠ unit ']') = true := fun c hc =>
    decide_eq_true (hline c hc).2
  obtain ⟨t, hmatch, hcaptures⟩ :
      ∃ t, Prefers headerPattern (.start [] (formatHeader g.parsed ++ rest)) t ∧
        t.captures = [(2, stateInfo g.parsed), (1, g.parsed.id)] := by
    rw [htext]
    exact ⟨_, prefers_seq (prefers_of_run (run_assert rfl)) (prefers_seq (prefers_of_run (run_word _ _ _ _)) (prefers_seq
      (prefers_group_plus hid hdigits (hspace _)) (prefers_seq (prefers_of_run (run_word _ _ _ _))
      (prefers_seq (prefers_group_plus hinfo hinside (hbracket _))
      (prefers_of_run (run_word _ _ _ _)))))), rfl⟩
  exact exec_captured hmatch hcaptures

/-! ## State and duration -/

theorem exec_duration {state duration : Text} (hstate : state ≠ [])
    (hline : ∀ c ∈ state, isLineTerminator c = false ∧ c ≠ unit ',') (hduration : duration ≠ [])
    (hline' : ∀ c ∈ duration, isLineTerminator c = false)
    (hfront : ∀ c ∈ duration.head?, isSpace c = false) :
    ∃ s t, exec durationPattern (state ++ ascii ", " ++ duration) = some (s, t) ∧
      captured t 1 = state ∧ captured t 2 = duration := by
  have htext : state ++ ascii ", " ++ duration =
      state ++ (unit ',' :: ([unit ' '] ++ (duration ++ []))) := by
    simp [ascii]
  have hany : ∀ c ∈ state, (fun c => !isLineTerminator c) c = true := fun c hc => by
    simp [(hline c hc).1]
  have hany' : ∀ c ∈ duration, (fun c => !isLineTerminator c) c = true := fun c hc => by
    simp [hline' c hc]
  have hspace : ∀ c ∈ [unit ' '], isSpace c = true := by decide
  have hfront' : ∀ c ∈ (duration ++ []).head?, isSpace c = false := by
    rw [List.append_nil]
    exact hfront
  have hend : ∀ c ∈ ([] : Text).head?, (fun c => !isLineTerminator c) c = false := by
    rintro c ⟨⟩
  obtain ⟨t, hmatch, hcaptures⟩ :
      ∃ t, Prefers durationPattern (.start [] (state ++ ascii ", " ++ duration)) t ∧
        t.captures = [(2, duration), (1, state)] := by
    rw [htext]
    obtain ⟨skipped, others, hrun, hskipped⟩ := run_group_lazy hstate hany
    have hcomma : ∀ x ∈ skipped, (inOrder [lit ',', star true space, group 2 (plus anyChar),
        textEnd]).run x = [] := by
      intro x hx
      obtain ⟨c, hc, hhead⟩ := hskipped x hx
      apply run_seq_nil
      apply run_char_none
      rw [hhead]
      rintro d ⟨⟩
      exact decide_eq_false (hline c hc).2
    exact ⟨_, prefers_seq (prefers_of_run (run_assert rfl)) (prefers_seq_skip hrun hcomma (prefers_seq
      (prefers_of_run (run_char (decide_eq_true rfl))) (prefers_seq
      (prefers_star_greedy hspace hfront') (prefers_seq
      (prefers_group_plus hduration hany' hend)
      (prefers_of_run (run_assert rfl)))))), rfl⟩
  exact exec_captured hmatch hcaptures

theorem exec_no_duration {state : Text} (hcomma : unit ',' ∉ state) :
    exec durationPattern state = none := by
  cases hexec : exec durationPattern state with
  | none => rfl
  | some m =>
      exfalso
      rcases m with ⟨s, t⟩
      obtain ⟨before, rest, rfl, hmem, htext⟩ := search_start hexec
      obtain ⟨_, h₀⟩ := mem_run_assert_seq.mp hmem
      obtain ⟨s₁, hgroup, h₁⟩ := mem_run_seq.mp h₀
      obtain ⟨s₂, hchar, _⟩ := mem_run_seq.mp h₁
      obtain ⟨front, hfront⟩ := run_reads hgroup
      have hrest : rest = front ++ ([unit ','] ++ s₂.rest) := by
        rw [← (captures_lit hchar).reads.rest]
        exact hfront.rest
      apply hcomma
      have hstate : state = before.reverse ++ rest := htext.symm
      rw [hstate, hrest]
      simp

/-! ## One record -/

theorem header_free (g : Goroutine) : ∀ c ∈ formatHeader g.parsed, isLineTerminator c = false := by
  have hopening : ∀ c ∈ ascii "goroutine ", isLineTerminator c = false := by decide
  have hbracket : ∀ c ∈ ascii " [", isLineTerminator c = false := by decide
  have hclosing : ∀ c ∈ ascii "]:", isLineTerminator c = false := by decide
  have hdigit : ∀ c, isDigit c = true → isLineTerminator c = false := by
    have hall : ∀ c ∈ [10, 13, 0x2028, 0x2029], isDigit c = false := by decide
    intro c hc
    by_contra hline
    rw [Bool.not_eq_false, isLineTerminator, List.contains_iff_mem] at hline
    rw [hall c hline] at hc
    contradiction
  intro c hc
  rw [formatHeader_eq] at hc
  simp only [List.mem_append] at hc
  rcases hc with hc | hc | hc | hc | hc
  · exact hopening c hc
  · exact hdigit c (g.id_digits.2 c hc)
  · exact hbracket c hc
  · exact ((stateInfo_line g).2 c hc).1
  · exact hclosing c hc

theorem parsePart_format (g : Goroutine) {spaces : Text} (hspaces : ∀ c ∈ spaces, isSpace c = true) :
    parsePart (formatGoroutineText g.parsed ++ spaces) = g.parsed := by
  have hnewline : newline ∉ formatHeader g.parsed := by
    intro hmem
    exact absurd (header_free g newline hmem) (by decide)
  have htext : formatGoroutineText g.parsed ++ spaces =
      formatHeader g.parsed ++ newline :: (g.parsed.stack ++ spaces) := by
    unfold formatGoroutineText
    simp
  have hstack : trim ([newline].intercalate
      (((formatGoroutineText g.parsed ++ spaces).splitOn newline).drop 1)) = g.parsed.stack := by
    rw [htext, List.splitOn_append_cons_self_of_not_mem hnewline, List.drop_one, List.tail_cons,
      List.intercalate_splitOn, trim_append g.stack_trimmed hspaces]
  obtain ⟨s, t, hheader, hid, hinfo⟩ := exec_header g (newline :: (g.parsed.stack ++ spaces))
  rw [← htext] at hheader
  unfold parsePart
  rw [hheader]
  dsimp only
  rw [hstack, hid, hinfo]
  cases hduration : g.parsed.duration with
  | none =>
      have hstate : stateInfo g.parsed = g.parsed.state := by
        unfold stateInfo
        rw [hduration]
      rw [hstate, exec_no_duration fun hmem => (g.state_line.2 _ hmem).2.2 rfl]
      exact ParsedGoroutine.ext rfl rfl hduration.symm rfl
  | some duration =>
      obtain ⟨hne, hline, hfront⟩ := g.duration_line duration hduration
      have hstate : stateInfo g.parsed = g.parsed.state ++ ascii ", " ++ duration := by
        unfold stateInfo
        rw [hduration]
        exact if_pos hne
      obtain ⟨s', t', hexec, hfirst, hsecond⟩ := exec_duration g.state_line.1
        (fun c hc => ⟨(g.state_line.2 c hc).1, (g.state_line.2 c hc).2.2⟩) hne
        (fun c hc => (hline c hc).1) hfront
      rw [hstate, hexec]
      refine ParsedGoroutine.ext rfl hfirst ?_ rfl
      rw [Option.map_some, hsecond, hduration]

/-! ## The split -/

theorem separator_boundary {before rest : Text} :
    Boundary separator before rest ↔ atLineStart before = true ∧ StartsGoroutine rest := by
  unfold separator
  rw [boundary_ahead]
  constructor
  · intro h
    obtain ⟨t, hmem⟩ := List.exists_mem_of_ne_nil _ h
    obtain ⟨s₀, hstart, h₀⟩ := mem_run_seq.mp hmem
    obtain ⟨s₁, hword, h₁⟩ := mem_run_seq.mp h₀
    obtain ⟨s₂, hdigit, -⟩ := mem_run_seq.mp h₁
    obtain ⟨hline, rfl⟩ := mem_run_assert.mp hstart
    obtain ⟨d, hd, hread⟩ := captures_char hdigit
    have hrest : rest = ascii "goroutine " ++ s₁.rest := mem_run_word hword
    rw [hread.reads.rest] at hrest
    exact ⟨hline, d, s₂.rest, hrest, hd⟩
  · rintro ⟨hline, d, tail, rfl, hd⟩
    exact run_seq_ne_nil (if_pos hline)
      (run_seq_ne_nil (run_word _ _ _ _) (run_plus_ne_nil hd))

theorem separator_reads : ReadsNothing separator := fun _ _ h => ahead_reads h

/-- The texts of the records, each with the blank line behind it. -/
def parts : List Goroutine → List Text
  | [] => []
  | [g] => [formatGoroutineText g.parsed]
  | g :: gs => (formatGoroutineText g.parsed ++ [newline, newline]) :: parts gs

theorem parts_cons (g next : Goroutine) (gs : List Goroutine) :
    parts (g :: next :: gs) =
      (formatGoroutineText g.parsed ++ [newline, newline]) :: parts (next :: gs) := rfl

theorem dump_eq (gs : List Goroutine) : dump gs = (parts gs).flatten := by
  unfold dump
  induction gs with
  | nil => rfl
  | cons g gs ih =>
      cases gs with
      | nil => simp [parts]
      | cons next gs =>
          rw [List.map_cons] at ih
          rw [List.map_cons, List.map_cons, List.intercalate_cons_cons, ih, parts_cons,
            List.flatten_cons]

theorem startsGoroutine_format (g : Goroutine) (rest : Text) :
    StartsGoroutine (formatGoroutineText g.parsed ++ rest) := by
  obtain ⟨hne, hdigits⟩ := g.id_digits
  cases hid : g.parsed.id with
  | nil => contradiction
  | cons d id =>
      have hd : isDigit d = true := hdigits d (hid ▸ List.mem_cons_self)
      have htext : formatGoroutineText g.parsed ++ rest = ascii "goroutine " ++ d :: (id ++
          (ascii " [" ++ (stateInfo g.parsed ++ (ascii "]:" ++ ([newline] ++ (g.parsed.stack ++ rest)))))) := by
        rw [formatGoroutineText, formatHeader_eq, hid]
        simp only [List.append_assoc, List.cons_append]
      exact ⟨d, _, htext, hd⟩

/-- A line that starts a goroutine does so before its end. -/
theorem startsGoroutine_of_newline {line rest : Text} (h : StartsGoroutine (line ++ newline :: rest)) :
    StartsGoroutine line := by
  obtain ⟨d, tail, htext, hd⟩ := h
  have hfree : newline ∉ ascii "goroutine " ++ [d] := by
    intro hmem
    rcases List.mem_append.mp hmem with hmem | hmem
    · exact absurd hmem (by decide)
    · rw [← List.mem_singleton.mp hmem] at hd
      exact absurd hd (by decide)
  have hstart : ascii "goroutine " ++ [d] <+: line ++ newline :: rest := ⟨tail, by rw [htext]; simp⟩
  obtain ⟨more, hmore⟩ := prefix_of_not_mem hfree hstart
  exact ⟨d, more, by rw [← hmore]; simp, hd⟩

theorem not_lineStart {front before : Text} (hne : front ≠ [])
    (h : ∀ c ∈ front, isLineTerminator c = false) : atLineStart (front.reverse ++ before) = false := by
  obtain ⟨init, c, rfl⟩ := (List.eq_nil_or_concat' front).resolve_left hne
  have hc := h c (List.mem_append_right init (List.mem_singleton_self c))
  simp [atLineStart, hc]

theorem not_startsGoroutine_newline {blank rest : Text} (hne : blank ≠ [])
    (h : ∀ c ∈ blank, c = newline) : ¬ StartsGoroutine (blank ++ rest) := by
  rintro ⟨d, tail, htext, _⟩
  cases blank with
  | nil => contradiction
  | cons c blank =>
      have hc := h c List.mem_cons_self
      have hg : c = unit 'g' := (List.cons.inj htext).1
      rw [hc] at hg
      exact absurd hg (by decide)

/-- What may stand behind a record. -/
def Behind (sep rest : Text) : Prop := sep = [] ∧ rest = [] ∨ sep = [newline, newline]

/-- In a record no line behind the header starts a goroutine. -/
theorem not_boundary_inside (g : Goroutine) {sep rest front back before : Text} (hsep : Behind sep rest)
    (htext : formatGoroutineText g.parsed ++ sep = front ++ back) (hfront : front ≠ [])
    (hback : back ≠ []) : ¬ Boundary separator (front.reverse ++ before) (back ++ rest) := by
  rw [separator_boundary]
  rintro ⟨hline, hstarts⟩
  have hwhole : formatHeader g.parsed ++ newline :: (g.parsed.stack ++ sep) = front ++ back := by
    rw [← htext, formatGoroutineText]
    simp
  rcases List.append_eq_append_iff.mp hwhole with ⟨k, hk, hrest⟩ | ⟨k, hk, hrest⟩
  · cases k with
    | nil =>
        rw [List.append_nil] at hk
        rw [hk, not_lineStart (hk ▸ hfront) (header_free g)] at hline
        contradiction
    | cons c k =>
        obtain ⟨rfl, hbody⟩ := List.cons.inj hrest
        have hinner : atLineStart k.reverse = true := by
          rw [hk] at hline
          cases k using List.reverseRecOn with
          | nil => rfl
          | append_singleton k d => simpa [atLineStart] using hline
        rcases List.append_eq_append_iff.mp hbody with ⟨j, hj, hspaces⟩ | ⟨j, hj, hspaces⟩
        · rcases hsep with ⟨hnil, _⟩ | hblank
          · rw [hnil] at hspaces
            exact hback (List.append_eq_nil_iff.mp hspaces.symm).2
          · have hblanks : ∀ c ∈ sep, c = newline := by
              rw [hblank]
              decide
            rw [hspaces] at hblanks
            exact not_startsGoroutine_newline hback
              (fun c hc => hblanks c (List.mem_append_right j hc)) hstarts
        · apply g.stack_lines k j hj hinner
          rcases hsep with ⟨hnil, hnil'⟩ | hblank
          · rw [hspaces, hnil, hnil', List.append_nil, List.append_nil] at hstarts
            exact hstarts
          · rw [hspaces, hblank, List.append_assoc] at hstarts
            exact startsGoroutine_of_newline hstarts
  · have hfree : ∀ c ∈ front, isLineTerminator c = false := fun c hc =>
      header_free g c (hk ▸ List.mem_append_left k hc)
    rw [not_lineStart hfront hfree] at hline
    contradiction

theorem atLineStart_blank (text before : Text) :
    atLineStart ((text ++ [newline, newline]).reverse ++ before) = true := by
  rw [List.reverse_append]
  rfl

theorem cut_parts (gs : List Goroutine) (before : Text) : Cut separator before (parts gs) := by
  induction gs generalizing before with
  | nil => trivial
  | cons g gs ih =>
      cases gs with
      | nil =>
          refine ⟨by simp [formatGoroutineText], ?_, fun h => absurd rfl h, trivial⟩
          intro front back htext hfront hback
          apply not_boundary_inside g (.inl ⟨rfl, rfl⟩) _ hfront hback
          rw [List.append_nil, htext]
      | cons next gs =>
          rw [parts_cons]
          refine ⟨by simp, ?_, ?_, ih _⟩
          · intro front back htext hfront hback
            exact not_boundary_inside g (.inr rfl) htext hfront hback
          · intro _
            rw [separator_boundary]
            refine ⟨atLineStart_blank _ before, ?_⟩
            cases gs with
            | nil =>
                have hflat : (parts [next]).flatten = formatGoroutineText next.parsed ++ [] := by
                  simp [parts]
                rw [hflat]
                exact startsGoroutine_format next []
            | cons later gs =>
                rw [parts_cons, List.flatten_cons, List.append_assoc]
                exact startsGoroutine_format next _

/-! ## The whole dump -/

theorem trim_format (g : Goroutine) (sep : Text) : trim (formatGoroutineText g.parsed ++ sep) ≠ [] := by
  obtain ⟨d, tail, htext, _⟩ := startsGoroutine_format g sep
  rw [htext]
  exact trim_ne_nil (List.mem_append_left _ List.mem_cons_self) (by decide : isSpace (unit 'g') = false)

theorem parse_parts (gs : List Goroutine) :
    ((parts gs).filter fun part => trim part ≠ []).map parsePart = gs.map Goroutine.parsed := by
  have hkept : ∀ (g : Goroutine) (sep : Text) (later : List Text),
      ((formatGoroutineText g.parsed ++ sep) :: later).filter (fun part => trim part ≠ []) =
        (formatGoroutineText g.parsed ++ sep) :: later.filter fun part => trim part ≠ [] :=
    fun g sep later => List.filter_cons_of_pos (decide_eq_true (trim_format g sep))
  induction gs with
  | nil => rfl
  | cons g gs ih =>
      cases gs with
      | nil =>
          have hpart := parsePart_format g (List.forall_mem_nil _ : ∀ c ∈ [], isSpace c = true)
          have hlast := hkept g [] []
          rw [List.append_nil] at hpart hlast
          rw [parts, hlast, List.map_cons, hpart]
          rfl
      | cons next gs =>
          have hblank : ∀ c ∈ [newline, newline], isSpace c = true := by decide
          rw [parts_cons, hkept, List.map_cons, parsePart_format g hblank, ih]
          rfl

/-- A dump is parsed to the records it was put together from. -/
theorem parseGoroutines_dump (gs : List Goroutine) :
    parseGoroutines (dump gs) = gs.map Goroutine.parsed := by
  unfold parseGoroutines
  cases gs with
  | nil => decide
  | cons g gs =>
      have hne : parts (g :: gs) ≠ [] := by cases gs <;> simp [parts]
      rw [dump_eq, split_flatten separator_reads hne (cut_parts (g :: gs) []), parse_parts]

/-- A goroutine that has been waiting. -/
def waiting : Goroutine where
  parsed := ⟨ascii "18", ascii "IO wait", some (ascii "3 minutes"), ascii "main.main()"⟩
  id_digits := by decide
  state_line := by decide
  duration_line := by
    rintro duration ⟨⟩
    refine ⟨by decide, by decide, ?_⟩
    rintro c ⟨⟩
    rfl
  stack_trimmed := by
    constructor
    · rintro c ⟨⟩
      rfl
    · rintro c ⟨⟩
      rfl
  stack_lines := by
    rintro before rest hstack _ ⟨d, more, rfl, _⟩
    have hmem : unit 'g' ∈ before ++ (ascii "goroutine " ++ d :: more) :=
      List.mem_append_right before (List.mem_append_left (d :: more) (by decide))
    rw [← hstack] at hmem
    exact absurd hmem (by decide)

example : dump [waiting] = ascii "goroutine 18 [IO wait, 3 minutes]:\nmain.main()" := by decide

example : parseGoroutines (ascii "panic\ngoroutine 1 [running]:\nmain.main()") =
    [⟨ascii "?", ascii "unknown", none, ascii "panic"⟩,
      ⟨ascii "1", ascii "running", none, ascii "main.main()"⟩] := by decide

end TSymbiote.Frontend.Goroutines
