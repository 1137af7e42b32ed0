import TSymbiote.Frontend.Text
import TSymbiote.Lib.Replace

/-! # Syntax highlighting

The highlighters escape a text for HTML, put `span` elements around parts of it
and give the result to the page as it is. Here it is shown that whatever the text
is, the elements are the only tags, and that without them the text is unchanged.
-/

namespace TSymbiote.Frontend.Highlight

open Regex
open scoped Strings

/-! ## The pieces of the result -/

/-- Text, or a `span` element with a class around it. -/
inductive Piece where
  | plain (text : Text)
  | span (cls text : Text)

def openTag (cls : Text) : Text := ascii "<span class=\"" ++ cls ++ ascii "\">"

def closeTag : Text := ascii "</span>"

def Piece.html : Piece → Text
  | .plain text => text
  | .span cls text => openTag cls ++ text ++ closeTag

def Piece.text : Piece → Text
  | .plain text => text
  | .span _ text => text

/-- The classes that the highlighters use. -/
def classes : List Text :=
  [ascii "text-blue-400", ascii "text-cyan-400", ascii "text-gray-300", ascii "text-green-400",
    ascii "text-yellow-400", ascii "text-purple-400", ascii "text-gray-400", ascii "text-gray-500"]

def Piece.Known : Piece → Prop
  | .plain _ => True
  | .span cls _ => cls ∈ classes

/-! ## The highlighters -/

/-- `.replace(/&/g, '&amp;').replace(/</g, '&lt;').replace(/>/g, '&gt;')` -/
def escapeHTML (text : Text) : Text :=
  replaceAll (replaceAll (replaceAll text [unit '&'] (ascii "&amp;")) [unit '<'] (ascii "&lt;"))
    [unit '>'] (ascii "&gt;")

def spanOf (cls : String) (text : Text) : Text := (Piece.span (ascii cls) text).html

/-- `"(\\u[a-zA-Z0-9]{4}|\\[^u]|[^\\"])*"(\s*:)?` -/
def stringToken : Regex CodeUnit :=
  inOrder [lit '"',
    star true (group 2 (alt
      (inOrder [lit '\\', lit 'u', char isAlphanumeric, char isAlphanumeric, char isAlphanumeric,
        char isAlphanumeric])
      (alt (inOrder [lit '\\', char fun c => c ≠ unit 'u'])
        (char fun c => !(ascii "\\\"").contains c)))),
    lit '"',
    opt (group 3 (inOrder [star true space, lit ':']))]

/-- `\b(true|false|null)\b` -/
def wordToken : Regex CodeUnit :=
  inOrder [wordBoundary,
    group 4 (alt (word (ascii "true")) (alt (word (ascii "false")) (word (ascii "null")))),
    wordBoundary]

/-- `-?\d+(?:\.\d*)?(?:[eE][+\-]?\d+)?` -/
def numberToken : Regex CodeUnit :=
  inOrder [opt (lit '-'), plus digit, opt (inOrder [lit '.', star true digit]),
    opt (inOrder [oneOf "eE", opt (oneOf "+-"), plus digit])]

def token : Regex CodeUnit := group 1 (alt stringToken (alt wordToken numberToken))

/-- The replacer of `syntaxHighlight`. -/
def highlightToken (matched : Text) : Text :=
  if test (inOrder [textStart, lit '"']) matched then
    if test (inOrder [lit ':', textEnd]) matched then
      spanOf "text-cyan-400" matched.dropLast ++ spanOf "text-gray-300" (ascii ":")
    else spanOf "text-green-400" matched
  else if test (alt (word (ascii "true")) (word (ascii "false"))) matched then
    spanOf "text-yellow-400" matched
  else if test (word (ascii "null")) matched then spanOf "text-purple-400" matched
  else spanOf "text-blue-400" matched

def syntaxHighlight (json : Text) : Text :=
  token.replaceAll (fun s t => highlightToken (s.to t)) (escapeHTML json)

/-- What a replacement is written with; a group without a match is empty. -/
inductive TemplatePart where
  | literal (text : Text)
  | group (i : Nat)

def TemplatePart.expand (t : Pos CodeUnit) : TemplatePart → Text
  | .literal text => text
  | .group i => (t.capture i).getD []

def expand (template : List TemplatePart) (t : Pos CodeUnit) : Text :=
  template.flatMap (TemplatePart.expand t)

def spanTemplate (cls : String) (parts : List TemplatePart) : List TemplatePart :=
  [.literal (openTag (ascii cls))] ++ parts ++ [.literal closeTag]

def isPathChar (c : CodeUnit) : Bool := isAlphanumeric c || (ascii "_./").contains c

/-- `^[a-zA-Z0-9_./]+\.[a-zA-Z0-9_]+\(` -/
def callStart : Regex CodeUnit :=
  inOrder [textStart, plus (char isPathChar), lit '.', plus (char isWord), lit '(']

/-- `^([a-zA-Z0-9_./]+)\.([a-zA-Z0-9_]+)(\(.*\))$` -/
def call : Regex CodeUnit :=
  inOrder [textStart, group 1 (plus (char isPathChar)), lit '.', group 2 (plus (char isWord)),
    group 3 (inOrder [lit '(', star true anyChar, lit ')']), textEnd]

def callTemplate : List TemplatePart :=
  spanTemplate "text-gray-400" [.group 1, .literal (ascii ".")] ++
    spanTemplate "text-yellow-400" [.group 2] ++ spanTemplate "text-gray-500" [.group 3]

/-- `^\t` -/
def fileStart : Regex CodeUnit := inOrder [textStart, lit '\t']

/-- `^(\t)([^\s:]+):(\d+)(\s+\+0x[a-fA-F0-9]+)?$` -/
def file : Regex CodeUnit :=
  inOrder [textStart, group 1 (lit '\t'), group 2 (plus (char fun c => !isSpace c && c ≠ unit ':')),
    lit ':', group 3 (plus digit),
    opt (group 4 (inOrder [plus space, word (ascii "+0x"), plus (char isHexDigit)])), textEnd]

def fileTemplate : List TemplatePart :=
  [.group 1] ++ spanTemplate "text-cyan-400" [.group 2] ++ [.literal (ascii ":")] ++
    spanTemplate "text-blue-400" [.group 3] ++ spanTemplate "text-gray-500" [.group 4]

/-- `^created by ` -/
def createdStart : Regex CodeUnit := inOrder [textStart, word (ascii "created by ")]

/-- `^(created by )([a-zA-Z0-9_./]+)\.([a-zA-Z0-9_]+)( in goroutine \d+)?$` -/
def created : Regex CodeUnit :=
  inOrder [textStart, group 1 (word (ascii "created by ")), group 2 (plus (char isPathChar)), lit '.',
    group 3 (plus (char isWord)),
    opt (group 4 (inOrder [word (ascii " in goroutine "), plus digit])), textEnd]

def createdTemplate : List TemplatePart :=
  spanTemplate "text-purple-400" [.group 1] ++
    spanTemplate "text-gray-400" [.group 2, .literal (ascii ".")] ++
    spanTemplate "text-yellow-400" [.group 3] ++ spanTemplate "text-gray-500" [.group 4]

def highlightLine (line : Text) : Text :=
  if test callStart line then call.replace (fun _ => expand callTemplate) line
  else if test fileStart line then file.replace (fun _ => expand fileTemplate) line
  else if test createdStart line then created.replace (fun _ => expand createdTemplate) line
  else spanOf "text-gray-300" line

def highlightStackTrace (text : Text) : Text :=
  [newline].intercalate (((escapeHTML text).splitOn newline).map highlightLine)

/-! ## Escaping -/

def escapeUnit (c : CodeUnit) : Text :=
  if c = unit '&' then ascii "&amp;"
  else if c = unit '<' then ascii "&lt;"
  else if c = unit '>' then ascii "&gt;"
  else [c]

/-- The references that are undone, none of them what another one gives. -/
def references : List (Text × Text) :=
  [(ascii "&lt;", [unit '<']), (ascii "&gt;", [unit '>']), (ascii "&amp;", [unit '&'])]

def unescape (html : Text) : Text := substitute references html

variable {text html : Text}

/-- The replacements do not get into each other's way. -/
theorem escapeHTML_eq (text : Text) : escapeHTML text = text.flatMap escapeUnit := by
  unfold escapeHTML
  rw [replaceAll_singleton, replaceAll_singleton, replaceAll_singleton, List.flatMap_assoc,
    List.flatMap_assoc]
  apply List.flatMap_congr
  intro c _
  unfold escapeUnit
  by_cases hand : c = unit '&'
  · rw [hand]
    decide
  · by_cases hless : c = unit '<'
    · rw [hless]
      decide
    · by_cases hgreater : c = unit '>'
      · rw [hgreater]
        decide
      · simp [hand, hless, hgreater]

/-- A unit is one of those that are escaped, or as good as any other. -/
theorem escapeUnit_cases (c : CodeUnit) :
    (escapeUnit c, [c]) ∈ references ∨
      escapeUnit c = [c] ∧ c ≠ unit '&' ∧ c ≠ unit '<' ∧ c ≠ unit '>' := by
  unfold escapeUnit
  by_cases hand : c = unit '&'
  · left
    rw [hand]
    decide
  · by_cases hless : c = unit '<'
    · left
      rw [hless]
      decide
    · by_cases hgreater : c = unit '>'
      · left
        rw [hgreater]
        decide
      · right
        rw [if_neg hand, if_neg hless, if_neg hgreater]
        exact ⟨rfl, hand, hless, hgreater⟩

theorem escapeHTML_marks (text : Text) : ∀ c ∈ escapeHTML text, c ≠ unit '<' ∧ c ≠ unit '>' := by
  have hreferences : ∀ entry ∈ references, ∀ c ∈ entry.1, c ≠ unit '<' ∧ c ≠ unit '>' := by decide
  intro c hc
  rw [escapeHTML_eq] at hc
  obtain ⟨d, _, hd⟩ := List.mem_flatMap.mp hc
  rcases escapeUnit_cases d with hentry | ⟨hself, _, hless, hgreater⟩
  · exact hreferences _ hentry c hd
  · rw [hself, List.mem_singleton] at hd
    rw [hd]
    exact ⟨hless, hgreater⟩

theorem unescape_escapeHTML (text : Text) : unescape (escapeHTML text) = text := by
  have hfree : PrefixFree references := by decide
  have hand : ∀ entry ∈ references, entry.1.head? = some (unit '&') := by decide
  rw [escapeHTML_eq]
  induction text with
  | nil => rfl
  | cons c text ih =>
      rw [List.flatMap_cons]
      rcases escapeUnit_cases c with hentry | ⟨hself, hne, _, _⟩
      · have hreference := substitute_append hfree hentry (text.flatMap escapeUnit)
        unfold unescape at ih ⊢
        rw [hreference, ih, List.singleton_append]
      · unfold unescape at ih ⊢
        rw [hself, List.singleton_append, substitute_cons_of_head hand hne, ih]

/-! ## What is rendered -/

/-- The HTML is made of pieces, which together have the text. -/
def Renders (html text : Text) : Prop :=
  ∃ pieces : List Piece, (∀ p ∈ pieces, p.Known) ∧
    html = pieces.flatMap Piece.html ∧ text = pieces.flatMap Piece.text

theorem renders_piece {p : Piece} (h : p.Known) : Renders p.html p.text :=
  ⟨[p], by simpa using h, by simp, by simp⟩

theorem renders_append {html' text' : Text} (h : Renders html text) (h' : Renders html' text') :
    Renders (html ++ html') (text ++ text') := by
  obtain ⟨pieces, hknown, rfl, rfl⟩ := h
  obtain ⟨more, hmore, rfl, rfl⟩ := h'
  refine ⟨pieces ++ more, ?_, List.flatMap_append.symm, List.flatMap_append.symm⟩
  intro p hp
  rcases List.mem_append.mp hp with hp | hp
  · exact hknown p hp
  · exact hmore p hp

theorem renders_plain (text : Text) : Renders text text := renders_piece (p := .plain text) trivial

theorem renders_span (cls : String) (h : ascii cls ∈ classes) (text : Text) :
    Renders (spanOf cls text) text := renders_piece (p := .span (ascii cls) text) h

theorem keeps_renders {r : Regex CodeUnit} {f : Pos CodeUnit → Pos CodeUnit → Text}
    (h : ∀ before rest, ∀ t ∈ r.run (.start before rest),
      Renders (f (.start before rest) t) ((Pos.start before rest).to t)) : Keeps r f Renders where
  nil := ⟨[], List.forall_mem_nil _, rfl, rfl⟩
  char c := renders_plain [c]
  append _ _ _ _ := renders_append
  replaced := h

/-! ### Tokens -/

theorem test_colon (h : test (inOrder [lit ':', textEnd]) text = true) :
    text.dropLast ++ ascii ":" = text := by
  obtain ⟨⟨s, t⟩, hexec⟩ := Option.isSome_iff_exists.mp h
  obtain ⟨before, rest, rfl, hmem, htext⟩ := search_start hexec
  obtain ⟨hcolon, hend⟩ := mem_run_seq_assert.mp hmem
  have hlast : rest = ascii ":" ++ t.rest := (captures_lit hcolon).reads.rest
  rw [List.isEmpty_iff.mp hend, List.append_nil] at hlast
  have htext' : text = before.reverse ++ ascii ":" := by
    rw [← hlast, htext]
    rfl
  rw [htext']
  exact congrArg (· ++ ascii ":") List.dropLast_concat

theorem highlightToken_renders (matched : Text) : Renders (highlightToken matched) matched := by
  unfold highlightToken
  split
  · split
    · next hcolon =>
        have hkey := renders_append (renders_span "text-cyan-400" (by decide) matched.dropLast)
          (renders_span "text-gray-300" (by decide) (ascii ":"))
        rw [test_colon hcolon] at hkey
        exact hkey
    · exact renders_span _ (by decide) matched
  · split
    · exact renders_span _ (by decide) matched
    · split
      · exact renders_span _ (by decide) matched
      · exact renders_span _ (by decide) matched

theorem syntaxHighlight_renders (json : Text) : Renders (syntaxHighlight json) (escapeHTML json) := by
  have hkeeps : Keeps token (fun s t => highlightToken (s.to t)) Renders :=
    keeps_renders fun before rest t _ => highlightToken_renders _
  exact hkeeps.replaceAll (escapeHTML json)

/-! ### Lines -/

variable {before rest : Text} {t : Pos CodeUnit}

theorem call_renders (h : t ∈ call.run (.start before rest)) :
    Renders (expand callTemplate t) ((Pos.start before rest).to t) := by
  obtain ⟨_, h₀⟩ := mem_run_assert_seq.mp h
  obtain ⟨s₁, hgroup₁, h₁⟩ := mem_run_seq.mp h₀
  obtain ⟨s₂, hchar, h₂⟩ := mem_run_seq.mp h₁
  obtain ⟨s₃, hgroup₂, h₃⟩ := mem_run_seq.mp h₂
  obtain ⟨hgroup₃, _⟩ := mem_run_seq_assert.mp h₃
  obtain ⟨path, hpath⟩ := captures_group rfl hgroup₁
  obtain ⟨name, hname⟩ := captures_group rfl hgroup₂
  obtain ⟨args, hargs⟩ := captures_group rfl hgroup₃
  have hread : Captures s₁ s₂ (ascii ".") [] := captures_lit hchar
  have hall := ((hpath.trans hread).trans hname).trans hargs
  have h1 : t.capture 1 = some path := hall.capture 1
  have h2 : t.capture 2 = some name := hall.capture 2
  have h3 : t.capture 3 = some args := hall.capture 3
  have hpieces := renders_append (renders_append
    (renders_span "text-gray-400" (by decide) (path ++ ascii "."))
    (renders_span "text-yellow-400" (by decide) name))
    (renders_span "text-gray-500" (by decide) args)
  rw [hall.reads.to]
  simpa [expand, callTemplate, spanTemplate, TemplatePart.expand, h1, h2, h3, spanOf, Piece.html]
    using hpieces

theorem file_renders (h : t ∈ file.run (.start before rest)) :
    Renders (expand fileTemplate t) ((Pos.start before rest).to t) := by
  obtain ⟨_, h₀⟩ := mem_run_assert_seq.mp h
  obtain ⟨s₁, hgroup₁, h₁⟩ := mem_run_seq.mp h₀
  obtain ⟨s₂, hgroup₂, h₂⟩ := mem_run_seq.mp h₁
  obtain ⟨s₃, hchar, h₃⟩ := mem_run_seq.mp h₂
  obtain ⟨s₄, hgroup₃, h₄⟩ := mem_run_seq.mp h₃
  obtain ⟨hgroup₄, _⟩ := mem_run_seq_assert.mp h₄
  obtain ⟨tab, htab⟩ := captures_group rfl hgroup₁
  obtain ⟨path, hpath⟩ := captures_group rfl hgroup₂
  obtain ⟨number, hnumber⟩ := captures_group rfl hgroup₃
  obtain ⟨offset, captured, hoffset, hcaptured⟩ := captures_opt_group rfl hgroup₄
  have hread : Captures s₂ s₃ (ascii ":") [] := captures_lit hchar
  have hall := (((htab.trans hpath).trans hread).trans hnumber).trans hoffset
  obtain ⟨h4, hothers⟩ := hall.optional hcaptured rfl
  have h1 : t.capture 1 = some tab := hothers 1 (by decide)
  have h2 : t.capture 2 = some path := hothers 2 (by decide)
  have h3 : t.capture 3 = some number := hothers 3 (by decide)
  have hpieces := renders_append (renders_append (renders_append (renders_append
    (renders_plain tab)
    (renders_span "text-cyan-400" (by decide) path))
    (renders_plain (ascii ":")))
    (renders_span "text-blue-400" (by decide) number))
    (renders_span "text-gray-500" (by decide) offset)
  rw [hall.reads.to]
  simpa [expand, fileTemplate, spanTemplate, TemplatePart.expand, h1, h2, h3, h4, spanOf, Piece.html]
    using hpieces

theorem created_renders (h : t ∈ created.run (.start before rest)) :
    Renders (expand createdTemplate t) ((Pos.start before rest).to t) := by
  obtain ⟨_, h₀⟩ := mem_run_assert_seq.mp h
  obtain ⟨s₁, hgroup₁, h₁⟩ := mem_run_seq.mp h₀
  obtain ⟨s₂, hgroup₂, h₂⟩ := mem_run_seq.mp h₁
  obtain ⟨s₃, hchar, h₃⟩ := mem_run_seq.mp h₂
  obtain ⟨s₄, hgroup₃, h₄⟩ := mem_run_seq.mp h₃
  obtain ⟨hgroup₄, _⟩ := mem_run_seq_assert.mp h₄
  obtain ⟨opening, hopening⟩ := captures_group (by decide) hgroup₁
  obtain ⟨path, hpath⟩ := captures_group rfl hgroup₂
  obtain ⟨name, hname⟩ := captures_group rfl hgroup₃
  obtain ⟨parent, captured, hparent, hcaptured⟩ := captures_opt_group (by decide) hgroup₄
  have hread : Captures s₂ s₃ (ascii ".") [] := captures_lit hchar
  have hall := (((hopening.trans hpath).trans hread).trans hname).trans hparent
  obtain ⟨h4, hothers⟩ := hall.optional hcaptured rfl
  have h1 : t.capture 1 = some opening := hothers 1 (by decide)
  have h2 : t.capture 2 = some path := hothers 2 (by decide)
  have h3 : t.capture 3 = some name := hothers 3 (by decide)
  have hpieces := renders_append (renders_append (renders_append
    (renders_span "text-purple-400" (by decide) opening)
    (renders_span "text-gray-400" (by decide) (path ++ ascii ".")))
    (renders_span "text-yellow-400" (by decide) name))
    (renders_span "text-gray-500" (by decide) parent)
  rw [hall.reads.to]
  simpa [expand, createdTemplate, spanTemplate, TemplatePart.expand, h1, h2, h3, h4, spanOf,
    Piece.html] using hpieces

theorem highlightLine_renders (line : Text) : Renders (highlightLine line) line := by
  unfold highlightLine
  split
  · exact (keeps_renders fun _ _ _ h => call_renders h).replace line
  · split
    · exact (keeps_renders fun _ _ _ h => file_renders h).replace line
    · split
      · exact (keeps_renders fun _ _ _ h => created_renders h).replace line
      · exact renders_span _ (by decide) line

theorem intercalate_renders (lines : List Text) :
    Renders ([newline].intercalate (lines.map highlightLine)) ([newline].intercalate lines) := by
  induction lines with
  | nil => exact renders_plain []
  | cons line lines ih =>
      cases lines with
      | nil => simpa using highlightLine_renders line
      | cons next lines =>
          rw [List.map_cons, List.map_cons, List.intercalate_cons_cons, List.intercalate_cons_cons]
          exact renders_append (renders_append (highlightLine_renders line) (renders_plain [newline])) ih

theorem highlightStackTrace_renders (stackTrace : Text) :
    Renders (highlightStackTrace stackTrace) (escapeHTML stackTrace) := by
  have hlines := intercalate_renders ((escapeHTML stackTrace).splitOn newline)
  rw [List.intercalate_splitOn] at hlines
  exact hlines

/-! ## Nothing but spans -/

/-- The tags that the highlighters insert, to be replaced by nothing. -/
def spanTags : List (Text × Text) := (closeTag :: classes.map openTag).map fun tag => (tag, [])

def removeSpans (html : Text) : Text := substitute spanTags html

/-- The spans are the only tags, and without them the HTML is the text. -/
structure Faithful (html text : Text) : Prop where
  elements : ∃ pieces : List Piece, html = pieces.flatMap Piece.html ∧
    ∀ p ∈ pieces, p.Known ∧ ∀ c ∈ p.text, c ≠ unit '<' ∧ c ≠ unit '>'
  text : unescape (removeSpans html) = text

theorem removeSpans_render {pieces : List Piece}
    (h : ∀ p ∈ pieces, p.Known ∧ ∀ c ∈ p.text, c ≠ unit '<' ∧ c ≠ unit '>') :
    removeSpans (pieces.flatMap Piece.html) = pieces.flatMap Piece.text := by
  have hfree : PrefixFree spanTags := by decide +kernel
  have hhead : ∀ entry ∈ spanTags, entry.1.head? = some (unit '<') := by decide +kernel
  unfold removeSpans
  induction pieces with
  | nil => rfl
  | cons p pieces ih =>
      rw [List.forall_mem_cons] at h
      obtain ⟨⟨hknown, hmarks⟩, hrest⟩ := h
      have hless : unit '<' ∉ p.text := fun hmem => (hmarks _ hmem).1 rfl
      rw [List.flatMap_cons, List.flatMap_cons]
      cases p with
      | plain text =>
          have htext : ∀ t, substitute spanTags (text ++ t) = text ++ substitute spanTags t :=
            substitute_self hhead hless
          rw [Piece.html, Piece.text, htext, ih hrest]
      | span cls text =>
          have htext : ∀ t, substitute spanTags (text ++ t) = text ++ substitute spanTags t :=
            substitute_self hhead hless
          have hopen : (openTag cls, []) ∈ spanTags :=
            List.mem_map_of_mem (List.mem_cons_of_mem closeTag (List.mem_map_of_mem hknown))
          have hclose : (closeTag, []) ∈ spanTags := List.mem_map_of_mem List.mem_cons_self
          rw [Piece.html, Piece.text, List.append_assoc, List.append_assoc,
            substitute_append hfree hopen, htext, substitute_append hfree hclose, ih hrest,
            List.nil_append, List.nil_append]

theorem faithful_of_renders (h : Renders html (escapeHTML text)) : Faithful html text := by
  obtain ⟨pieces, hknown, rfl, htext⟩ := h
  have hpieces : ∀ p ∈ pieces, p.Known ∧ ∀ c ∈ p.text, c ≠ unit '<' ∧ c ≠ unit '>' := by
    intro p hp
    refine ⟨hknown p hp, fun c hc => escapeHTML_marks text c ?_⟩
    rw [htext]
    exact List.mem_flatMap.mpr ⟨p, hp, hc⟩
  refine ⟨⟨pieces, rfl, hpieces⟩, ?_⟩
  rw [removeSpans_render hpieces, ← htext, unescape_escapeHTML]

/-- Both highlighters, on any text. -/
theorem highlight_faithful :
    (∀ json, Faithful (syntaxHighlight json) json) ∧
      ∀ stackTrace, Faithful (highlightStackTrace stackTrace) stackTrace :=
  ⟨fun json => faithful_of_renders (syntaxHighlight_renders json),
    fun stackTrace => faithful_of_renders (highlightStackTrace_renders stackTrace)⟩

end TSymbiote.Frontend.Highlight
