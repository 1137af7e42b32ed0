import Mathlib.Data.List.Basic
import Mathlib.Data.List.Infix

/-! # Backtracking regular expressions

The ways in which an expression matches at a position, the preferred one first:
a choice prefers its left side, a repetition as many or as few rounds as there
are, and a round that reads nothing is none. What an expression reads is always
the text between the two positions.
-/

namespace TSymbiote

inductive Regex (α : Type) where
  | empty
  | char (p : α → Bool)
  /-- A condition on what is before the position, backwards, and behind it. -/
  | assert (p : List α → List α → Bool)
  | seq (a b : Regex α)
  | alt (a b : Regex α)
  | star (greedy : Bool) (r : Regex α)
  | group (i : Nat) (r : Regex α)
  | ahead (r : Regex α)

namespace Regex

variable {α : Type}

/-- A position in a text, with the groups captured so far, the latest first. -/
structure Pos (α : Type) where
  before : List α
  rest : List α
  captures : List (Nat × List α) := []

/-- The text from one position to a later one. -/
def Pos.to (s t : Pos α) : List α := s.rest.take (s.rest.length - t.rest.length)

def Pos.capture (s : Pos α) (i : Nat) : Option (List α) := s.captures.lookup i

def groups : Regex α → List Nat
  | empty => []
  | char _ => []
  | assert _ => []
  | seq a b => a.groups ++ b.groups
  | alt a b => a.groups ++ b.groups
  | star _ r => r.groups
  | group i r => i :: r.groups
  | ahead r => r.groups

/-- A round of a repetition starts without the groups in it. -/
def Pos.forget (s : Pos α) (is : List Nat) : Pos α :=
  { s with captures := s.captures.filter fun c => c.1 ∉ is }

def iterate (step : Pos α → List (Pos α)) (greedy : Bool) : Nat → Pos α → List (Pos α)
  | 0, s => [s]
  | n + 1, s =>
      let more := ((step s).filter fun t => t.rest.length < s.rest.length).flatMap
        (iterate step greedy n)
      if greedy then more ++ [s] else s :: more

def run : Regex α → Pos α → List (Pos α)
  | empty, s => [s]
  | char p, s =>
      match s.rest with
      | c :: rest => if p c then [{ s with before := c :: s.before, rest }] else []
      | [] => []
  | assert p, s => if p s.before s.rest then [s] else []
  | seq a b, s => (a.run s).flatMap b.run
  | alt a b, s => a.run s ++ b.run s
  | star greedy r, s => iterate (fun s => r.run (s.forget r.groups)) greedy s.rest.length s
  | group i r, s => (r.run s).map fun t => { t with captures := (i, s.to t) :: t.captures }
  | ahead r, s =>
      match r.run s with
      | t :: _ => [{ s with captures := t.captures }]
      | [] => []

/-- `r?` -/
def opt (r : Regex α) : Regex α := alt r empty

/-- `r+` -/
def plus (r : Regex α) : Regex α := seq r (star true r)

/-- The characters of a word, one after the other. -/
def word [DecidableEq α] : List α → Regex α
  | [] => empty
  | c :: w => seq (char fun x => x = c) (word w)

/-! ## What is read -/

/-- From one position to the other the text is read. -/
structure Reads (s t : Pos α) (text : List α) : Prop where
  rest : s.rest = text ++ t.rest
  before : t.before = text.reverse ++ s.before

variable {s t u : Pos α} {r a b : Regex α} {text more : List α}

theorem Reads.refl (s : Pos α) : Reads s s [] := ⟨rfl, rfl⟩

theorem Reads.trans (h : Reads s t text) (h' : Reads t u more) : Reads s u (text ++ more) := by
  constructor
  · rw [h.rest, h'.rest, List.append_assoc]
  · rw [h'.before, h.before, List.reverse_append, List.append_assoc]

theorem Reads.to (h : Reads s t text) : s.to t = text := by
  unfold Pos.to
  rw [h.rest]
  simp

theorem mem_iterate {step : Pos α → List (Pos α)} {greedy : Bool} {n : Nat}
    (h : t ∈ iterate step greedy (n + 1) s) :
    t = s ∨ ∃ u ∈ step s, t ∈ iterate step greedy n u := by
  unfold iterate at h
  dsimp only at h
  split at h
  · rcases List.mem_append.mp h with h | h
    · obtain ⟨u, hu, ht⟩ := List.mem_flatMap.mp h
      exact .inr ⟨u, List.mem_of_mem_filter hu, ht⟩
    · exact .inl (List.mem_singleton.mp h)
  · rcases List.mem_cons.mp h with h | h
    · exact .inl h
    · obtain ⟨u, hu, ht⟩ := List.mem_flatMap.mp h
      exact .inr ⟨u, List.mem_of_mem_filter hu, ht⟩

theorem iterate_reads {step : Pos α → List (Pos α)} {greedy : Bool} {n : Nat}
    (hstep : ∀ s, ∀ t ∈ step s, ∃ text, Reads s t text) (h : t ∈ iterate step greedy n s) :
    ∃ text, Reads s t text := by
  induction n generalizing s with
  | zero =>
      rw [iterate, List.mem_singleton] at h
      exact ⟨[], h ▸ Reads.refl s⟩
  | succ n ih =>
      rcases mem_iterate h with rfl | ⟨u, hu, ht⟩
      · exact ⟨[], Reads.refl t⟩
      · obtain ⟨text, htext⟩ := hstep s u hu
        obtain ⟨more, hmore⟩ := ih ht
        exact ⟨text ++ more, htext.trans hmore⟩

theorem run_reads (h : t ∈ r.run s) : ∃ text, Reads s t text := by
  induction r generalizing s t with
  | empty =>
      rw [run, List.mem_singleton] at h
      exact ⟨[], h ▸ Reads.refl s⟩
  | char p =>
      unfold run at h
      split at h
      · next c rest hrest =>
          split at h
          · rw [List.mem_singleton.mp h]
            exact ⟨[c], hrest, rfl⟩
          · contradiction
      · contradiction
  | assert p =>
      unfold run at h
      split at h
      · exact ⟨[], List.mem_singleton.mp h ▸ Reads.refl s⟩
      · contradiction
  | seq a b iha ihb =>
      obtain ⟨u, hu, ht⟩ := List.mem_flatMap.mp h
      obtain ⟨text, htext⟩ := iha hu
      obtain ⟨more, hmore⟩ := ihb ht
      exact ⟨text ++ more, htext.trans hmore⟩
  | alt a b iha ihb =>
      rcases List.mem_append.mp h with h | h
      · exact iha h
      · exact ihb h
  | star greedy r ih =>
      refine iterate_reads ?_ h
      intro s t ht
      obtain ⟨text, htext⟩ := ih ht
      exact ⟨text, htext.rest, htext.before⟩
  | group i r ih =>
      obtain ⟨u, hu, rfl⟩ := List.mem_map.mp h
      obtain ⟨text, htext⟩ := ih hu
      exact ⟨text, htext.rest, htext.before⟩
  | ahead r ih =>
      unfold run at h
      split at h
      · rw [List.mem_singleton.mp h]
        exact ⟨[], rfl, rfl⟩
      · contradiction

/-! ## Searching and replacing -/

def Pos.start (before rest : List α) : Pos α := { before, rest }

/-- The preferred match at a position. -/
def matchAt (r : Regex α) (before rest : List α) : Option (Pos α) :=
  (r.run (.start before rest)).head?

theorem matchAt_reads {before rest : List α} (h : matchAt r before rest = some t) :
    ∃ text, Reads (.start before rest) t text :=
  run_reads (List.mem_of_head? h)

/-- The first match, from where to where. -/
def search (r : Regex α) : List α → List α → Option (Pos α × Pos α)
  | before, [] => (matchAt r before []).map fun t => (.start before [], t)
  | before, c :: rest =>
      match matchAt r before (c :: rest) with
      | some t => some (.start before (c :: rest), t)
      | none => search r (c :: before) rest

def exec (r : Regex α) (text : List α) : Option (Pos α × Pos α) := search r [] text

def test (r : Regex α) (text : List α) : Bool := (exec r text).isSome

/-- Of the first match only, as without the flag `g`. -/
def replace (r : Regex α) (f : Pos α → Pos α → List α) (text : List α) : List α :=
  match exec r text with
  | some (s, t) => s.before.reverse ++ f s t ++ t.rest
  | none => text

/-- The scan for all matches, with the number of characters to skip that belong to
the last one. -/
def replaceFrom (r : Regex α) (f : Pos α → Pos α → List α) : Nat → List α → List α → List α
  | skip + 1, before, c :: rest => replaceFrom r f skip (c :: before) rest
  | 0, before, c :: rest =>
      match matchAt r before (c :: rest) with
      | some t =>
          let s := Pos.start before (c :: rest)
          match s.to t with
          | [] => f s t ++ c :: replaceFrom r f 0 (c :: before) rest
          | _ :: read => f s t ++ replaceFrom r f read.length (c :: before) rest
      | none => c :: replaceFrom r f 0 (c :: before) rest
  | _, before, [] =>
      match matchAt r before [] with
      | some t => f (.start before []) t
      | none => []

def replaceAll (r : Regex α) (f : Pos α → Pos α → List α) (text : List α) : List α :=
  replaceFrom r f 0 [] text

/-- The scan of a split, with the piece so far, backwards. A match that is empty
does not end an empty piece. -/
def splitFrom (r : Regex α) : Nat → List α → List α → List α → List (List α)
  | skip + 1, before, piece, c :: rest => splitFrom r skip (c :: before) piece rest
  | 0, before, piece, c :: rest =>
      match matchAt r before (c :: rest) with
      | some t =>
          match (Pos.start before (c :: rest)).to t, piece with
          | [], [] => splitFrom r 0 (c :: before) [c] rest
          | [], _ => piece.reverse :: splitFrom r 0 (c :: before) [c] rest
          | _ :: read, _ => piece.reverse :: splitFrom r read.length (c :: before) [] rest
      | none => splitFrom r 0 (c :: before) (c :: piece) rest
  | _, _, piece, [] => [piece.reverse]

/-- The pieces between the matches of an expression without groups. -/
def split (r : Regex α) (text : List α) : List (List α) :=
  match text with
  | [] => if (matchAt r [] []).isSome then [] else [[]]
  | _ => splitFrom r 0 [] [] text

/-! ### What a replacement keeps -/

/-- A relation that holds for every character and every replaced match, and is
closed under concatenation, holds between the result and the text. -/
structure Keeps (r : Regex α) (f : Pos α → Pos α → List α) (q : List α → List α → Prop) : Prop where
  nil : q [] []
  char : ∀ c, q [c] [c]
  append : ∀ a b c d, q a b → q c d → q (a ++ c) (b ++ d)
  replaced : ∀ before rest, ∀ t ∈ r.run (.start before rest),
    q (f (.start before rest) t) ((Pos.start before rest).to t)

variable {f : Pos α → Pos α → List α} {q : List α → List α → Prop}

theorem Keeps.self (hq : Keeps r f q) (text : List α) : q text text := by
  induction text with
  | nil => exact hq.nil
  | cons c text ih => exact hq.append [c] [c] text text (hq.char c) ih

theorem Keeps.matched (hq : Keeps r f q) {before rest : List α} (h : matchAt r before rest = some t) :
    q (f (.start before rest) t) ((Pos.start before rest).to t) :=
  hq.replaced before rest t (List.mem_of_head? h)

theorem Keeps.scan_nil (hq : Keeps r f q) (skip : Nat) (before : List α) :
    q (replaceFrom r f skip before []) [] := by
  have hend : replaceFrom r f skip before [] =
      match matchAt r before [] with
      | some t => f (.start before []) t
      | none => [] := by
    cases skip <;> rfl
  rw [hend]
  cases h : matchAt r before [] with
  | none => exact hq.nil
  | some t =>
      have hmatched := hq.matched h
      have hnil : (Pos.start before []).to t = [] := List.take_nil
      rw [hnil] at hmatched
      exact hmatched

theorem Keeps.scan (hq : Keeps r f q) (skip : Nat) (before rest : List α) :
    q (replaceFrom r f skip before rest) (rest.drop skip) := by
  induction rest generalizing skip before with
  | nil =>
      rw [List.drop_nil]
      exact hq.scan_nil skip before
  | cons c rest ih =>
      cases skip with
      | succ skip => exact ih skip (c :: before)
      | zero =>
          have hnext : q (c :: replaceFrom r f 0 (c :: before) rest) (c :: rest) :=
            hq.append [c] [c] _ _ (hq.char c) (ih 0 (c :: before))
          unfold replaceFrom
          cases h : matchAt r before (c :: rest) with
          | none => exact hnext
          | some t =>
              have hmatched := hq.matched h
              obtain ⟨text, hreads⟩ := matchAt_reads h
              rw [hreads.to] at hmatched
              dsimp only
              rw [hreads.to]
              cases text with
              | nil => exact hq.append _ _ _ _ hmatched hnext
              | cons x read =>
                  have htext : c :: rest = x :: (read ++ t.rest) := hreads.rest
                  have hrest := (List.cons.inj htext).2
                  have hdrop : rest.drop read.length = t.rest := by
                    rw [hrest, List.drop_left]
                  have hread : x :: read ++ rest.drop read.length = c :: rest := by
                    rw [hdrop]
                    exact htext.symm
                  have hboth := hq.append _ _ _ _ hmatched (ih read.length (c :: before))
                  rw [hread] at hboth
                  exact hboth

theorem Keeps.replaceAll (hq : Keeps r f q) (text : List α) : q (r.replaceAll f text) text :=
  hq.scan 0 [] text

theorem search_start {before rest : List α} (h : search r before rest = some (s, t)) :
    ∃ before' rest', s = .start before' rest' ∧ t ∈ r.run s ∧
      before'.reverse ++ rest' = before.reverse ++ rest := by
  induction rest generalizing before with
  | nil =>
      obtain ⟨u, hu, heq⟩ := Option.map_eq_some_iff.mp h
      cases heq
      exact ⟨before, [], rfl, List.mem_of_head? hu, rfl⟩
  | cons c rest ih =>
      unfold search at h
      split at h
      · next u hu =>
          cases h
          exact ⟨before, c :: rest, rfl, List.mem_of_head? hu, rfl⟩
      · obtain ⟨before', rest', hs, ht, htext⟩ := ih h
        rw [List.reverse_cons, List.append_assoc, List.singleton_append] at htext
        exact ⟨before', rest', hs, ht, htext⟩

theorem Keeps.replace (hq : Keeps r f q) (text : List α) : q (r.replace f text) text := by
  unfold Regex.replace
  split
  · next s t h =>
      obtain ⟨before, rest, rfl, hmem, htext⟩ := search_start h
      obtain ⟨read, hread⟩ := run_reads hmem
      have hmatched := hq.replaced before rest t hmem
      rw [hread.to] at hmatched
      have hwhole : before.reverse ++ read ++ t.rest = text := by
        rw [List.append_assoc, ← hread.rest]
        exact htext
      rw [← hwhole]
      exact hq.append _ _ _ _ (hq.append _ _ _ _ (hq.self _) hmatched) (hq.self _)
  · exact hq.self text

/-! ## What is captured -/

theorem mem_run_seq : t ∈ (seq a b).run s ↔ ∃ u ∈ a.run s, t ∈ b.run u := List.mem_flatMap

theorem forget_nil (s : Pos α) : s.forget [] = s := by
  have hall : s.captures.filter (fun c => c.1 ∉ ([] : List Nat)) = s.captures :=
    List.filter_eq_self.mpr fun _ _ => decide_eq_true List.not_mem_nil
  unfold Pos.forget
  rw [hall]

theorem iterate_captures {step : Pos α → List (Pos α)} {greedy : Bool} {n : Nat}
    (hstep : ∀ s, ∀ t ∈ step s, t.captures = s.captures) (h : t ∈ iterate step greedy n s) :
    t.captures = s.captures := by
  induction n generalizing s with
  | zero =>
      rw [iterate, List.mem_singleton] at h
      rw [h]
  | succ n ih =>
      rcases mem_iterate h with rfl | ⟨u, hu, ht⟩
      · rfl
      · rw [ih ht, hstep s u hu]

/-- Without groups nothing is captured. -/
theorem run_captures (hr : r.groups = []) (h : t ∈ r.run s) : t.captures = s.captures := by
  induction r generalizing s t with
  | empty => rw [List.mem_singleton.mp h]
  | char p =>
      unfold run at h
      split at h
      · split at h
        · rw [List.mem_singleton.mp h]
        · contradiction
      · contradiction
  | assert p =>
      unfold run at h
      split at h
      · rw [List.mem_singleton.mp h]
      · contradiction
  | seq a b iha ihb =>
      obtain ⟨ha, hb⟩ := List.append_eq_nil_iff.mp hr
      obtain ⟨u, hu, ht⟩ := mem_run_seq.mp h
      rw [ihb hb ht, iha ha hu]
  | alt a b iha ihb =>
      obtain ⟨ha, hb⟩ := List.append_eq_nil_iff.mp hr
      rcases List.mem_append.mp h with h | h
      · exact iha ha h
      · exact ihb hb h
  | star greedy r ih =>
      have hgroups : r.groups = [] := hr
      refine iterate_captures ?_ h
      intro s t ht
      rw [hgroups, forget_nil] at ht
      exact ih hgroups ht
  | group i r ih => contradiction
  | ahead r ih =>
      unfold run at h
      split at h
      · next u _ hrun =>
          have hu : u ∈ r.run s := hrun ▸ List.mem_cons_self
          have hcaptures : u.captures = s.captures := ih hr hu
          rw [List.mem_singleton.mp h]
          exact hcaptures
      · contradiction

/-- The text read, and the captures it leaves. -/
structure Captures (s t : Pos α) (text : List α) (captured : List (Nat × List α)) : Prop where
  reads : Reads s t text
  captures : t.captures = captured ++ s.captures

theorem Captures.trans {captured later : List (Nat × List α)} (h : Captures s t text captured)
    (h' : Captures t u more later) : Captures s u (text ++ more) (later ++ captured) :=
  ⟨h.reads.trans h'.reads, by rw [h'.captures, h.captures, List.append_assoc]⟩

theorem Captures.capture {before rest : List α} {captured : List (Nat × List α)}
    (h : Captures (.start before rest) t text captured) (i : Nat) :
    t.capture i = captured.lookup i := by
  have hall : t.captures = captured := h.captures.trans (List.append_nil captured)
  unfold Pos.capture
  rw [hall]

theorem captures_group {i : Nat} (hr : r.groups = []) (h : t ∈ (group i r).run s) :
    ∃ text, Captures s t text [(i, text)] := by
  obtain ⟨u, hu, rfl⟩ := List.mem_map.mp h
  obtain ⟨text, hreads⟩ := run_reads hu
  refine ⟨text, ⟨hreads.rest, hreads.before⟩, ?_⟩
  rw [hreads.to, run_captures hr hu, List.singleton_append]

/-- An optional group reads nothing where it captures nothing. -/
theorem captures_opt_group {i : Nat} (hr : r.groups = []) (h : t ∈ (opt (group i r)).run s) :
    ∃ text captured, Captures s t text captured ∧
      (captured = [(i, text)] ∨ captured = [] ∧ text = []) := by
  rcases List.mem_append.mp h with h | h
  · obtain ⟨text, hcaptures⟩ := captures_group hr h
    exact ⟨text, _, hcaptures, .inl rfl⟩
  · rw [List.mem_singleton.mp h]
    exact ⟨[], [], ⟨.refl s, rfl⟩, .inr ⟨rfl, rfl⟩⟩

theorem Captures.optional {before rest more : List α} {captured earlier : List (Nat × List α)}
    {i : Nat} (h : Captures (.start before rest) t text (captured ++ earlier))
    (hcaptured : captured = [(i, more)] ∨ captured = [] ∧ more = [])
    (hi : earlier.lookup i = none) :
    (t.capture i).getD [] = more ∧ ∀ j ≠ i, t.capture j = earlier.lookup j := by
  rcases hcaptured with rfl | ⟨rfl, rfl⟩
  · constructor
    · rw [h.capture i, List.singleton_append, List.lookup_cons_self, Option.getD_some]
    · intro j hj
      rw [h.capture j, List.singleton_append, List.lookup_cons, beq_false_of_ne hj]
  · constructor
    · rw [h.capture i, List.nil_append, hi, Option.getD_none]
    · intro j _
      rw [h.capture j, List.nil_append]

theorem captures_char {p : α → Bool} (h : t ∈ (char p).run s) :
    ∃ c, p c = true ∧ Captures s t [c] [] := by
  unfold run at h
  split at h
  · next c rest hrest =>
      split at h
      · next hc =>
          rw [List.mem_singleton.mp h]
          exact ⟨c, hc, ⟨hrest, rfl⟩, rfl⟩
      · contradiction
  · contradiction

theorem mem_run_assert {p : List α → List α → Bool} :
    t ∈ (assert p).run s ↔ p s.before s.rest = true ∧ t = s := by
  unfold run
  split
  · next h => simp [h]
  · next h => simp [h]

theorem mem_run_assert_seq {p : List α → List α → Bool} :
    t ∈ (seq (assert p) r).run s ↔ p s.before s.rest = true ∧ t ∈ r.run s := by
  rw [mem_run_seq]
  constructor
  · rintro ⟨u, hu, ht⟩
    obtain ⟨hp, rfl⟩ := mem_run_assert.mp hu
    exact ⟨hp, ht⟩
  · rintro ⟨hp, ht⟩
    exact ⟨s, mem_run_assert.mpr ⟨hp, rfl⟩, ht⟩

theorem mem_run_seq_assert {p : List α → List α → Bool} :
    t ∈ (seq r (assert p)).run s ↔ t ∈ r.run s ∧ p t.before t.rest = true := by
  rw [mem_run_seq]
  constructor
  · rintro ⟨u, hu, ht⟩
    obtain ⟨hp, rfl⟩ := mem_run_assert.mp ht
    exact ⟨hu, hp⟩
  · rintro ⟨ht, hp⟩
    exact ⟨t, ht, mem_run_assert.mpr ⟨hp, rfl⟩⟩

end Regex

end TSymbiote
