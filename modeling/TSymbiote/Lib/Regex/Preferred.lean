import TSymbiote.Lib.Regex

/-! # The preferred match

Which of its ways an expression prefers, for texts whose parts are known: a greedy
repetition of a character takes all there are, a lazy one stops where the rest
first matches. At the end, a split at matches that read nothing.
-/

namespace TSymbiote.Regex

variable {α : Type} {r a b : Regex α} {p : α → Bool} {s t u : Pos α}
  {before rest w : List α} {captures : List (Nat × List α)}

def Prefers (r : Regex α) (s t : Pos α) : Prop := (r.run s).head? = some t

theorem prefers_of_run (h : r.run s = [t]) : Prefers r s t := by
  unfold Prefers
  rw [h, List.head?_cons]

/-- Ways which the second part does not continue are passed over. -/
theorem prefers_seq_skip {skipped others : List (Pos α)} (ha : a.run s = skipped ++ t :: others)
    (hskipped : ∀ x ∈ skipped, b.run x = []) (hb : Prefers b t u) : Prefers (seq a b) s u := by
  have hnil : skipped.flatMap b.run = [] := List.flatMap_eq_nil_iff.mpr hskipped
  have hrun : (seq a b).run s = (a.run s).flatMap b.run := rfl
  unfold Prefers at hb ⊢
  rw [hrun, ha, List.flatMap_append, hnil, List.nil_append, List.flatMap_cons, List.head?_append, hb]
  rfl

theorem prefers_seq (ha : Prefers a s t) (hb : Prefers b t u) : Prefers (seq a b) s u := by
  obtain ⟨others, hrun⟩ := List.head?_eq_some_iff.mp ha
  have hskip : a.run s = [] ++ t :: others := hrun
  exact prefers_seq_skip hskip (List.forall_mem_nil _) hb

theorem run_seq_nil (ha : a.run s = []) : (seq a b).run s = [] := by
  have hrun : (seq a b).run s = (a.run s).flatMap b.run := rfl
  rw [hrun, ha, List.flatMap_nil]

theorem prefers_group {i : Nat} (h : Prefers r s t) :
    Prefers (group i r) s { t with captures := (i, s.to t) :: t.captures } := by
  have hrun : (group i r).run s =
      (r.run s).map fun t => { t with captures := (i, s.to t) :: t.captures } := rfl
  unfold Prefers at h ⊢
  rw [hrun, List.head?_map, h]
  rfl

theorem run_char {c : α} (hc : p c = true) :
    (char p).run ⟨before, c :: rest, captures⟩ = [⟨c :: before, rest, captures⟩] := if_pos hc

theorem run_char_none (h : ∀ c ∈ rest.head?, p c = false) :
    (char p).run ⟨before, rest, captures⟩ = [] := by
  cases rest with
  | nil => rfl
  | cons c rest => exact if_neg (by simpa using h c)

theorem run_assert {q : List α → List α → Bool} (h : q before rest = true) :
    (assert q).run ⟨before, rest, captures⟩ = [⟨before, rest, captures⟩] := if_pos h

theorem run_word [DecidableEq α] (w before rest : List α) (captures : List (Nat × List α)) :
    (word w).run ⟨before, w ++ rest, captures⟩ = [⟨w.reverse ++ before, rest, captures⟩] := by
  induction w generalizing before with
  | nil => rfl
  | cons c w ih =>
      have hchar : (char fun x => decide (x = c)).run ⟨before, c :: (w ++ rest), captures⟩ =
          [⟨c :: before, w ++ rest, captures⟩] := run_char (decide_eq_true rfl)
      have hrun : (word (c :: w)).run ⟨before, c :: (w ++ rest), captures⟩ =
          ((char fun x => decide (x = c)).run ⟨before, c :: (w ++ rest), captures⟩).flatMap
            (word w).run := rfl
      rw [List.cons_append, hrun, hchar, List.flatMap_singleton, ih, List.reverse_cons,
        List.append_assoc, List.singleton_append]

theorem mem_run_word [DecidableEq α] (h : t ∈ (word w).run s) : s.rest = w ++ t.rest := by
  induction w generalizing s with
  | nil =>
      rw [List.mem_singleton.mp h]
      rfl
  | cons c w ih =>
      obtain ⟨u, hu, ht⟩ := mem_run_seq.mp h
      obtain ⟨d, hd, hread⟩ := captures_char hu
      rw [hread.reads.rest, ih ht, of_decide_eq_true hd]
      rfl

/-! ## Repetitions of a character -/

theorem iterate_char_succ {c : α} (hc : p c = true) (greedy : Bool) (n : Nat) :
    iterate (fun s => (char p).run (s.forget (char p).groups)) greedy (n + 1)
        ⟨before, c :: rest, captures⟩ =
      let more := iterate (fun s => (char p).run (s.forget (char p).groups)) greedy n
        ⟨c :: before, rest, captures⟩
      if greedy then more ++ [⟨before, c :: rest, captures⟩]
      else ⟨before, c :: rest, captures⟩ :: more := by
  have hstep : (char p).run (Pos.forget ⟨before, c :: rest, captures⟩ (char p).groups) =
      [⟨c :: before, rest, captures⟩] := by
    have hgroups : (char p).groups = [] := rfl
    rw [hgroups, forget_nil, run_char hc]
  rw [iterate, hstep]
  simp

theorem iterate_char_nil (h : ∀ c ∈ rest.head?, p c = false) (n : Nat) :
    iterate (fun s => (char p).run (s.forget (char p).groups)) true n ⟨before, rest, captures⟩ =
      [⟨before, rest, captures⟩] := by
  cases n with
  | zero => rfl
  | succ n =>
      have hstep : (char p).run (Pos.forget ⟨before, rest, captures⟩ (char p).groups) = [] :=
        run_char_none h
      rw [iterate, hstep]
      rfl

theorem iterate_greedy (hw : ∀ c ∈ w, p c = true) (hrest : ∀ c ∈ rest.head?, p c = false) {n : Nat}
    (hn : w.length ≤ n) :
    ∃ others, iterate (fun s => (char p).run (s.forget (char p).groups)) true n
        ⟨before, w ++ rest, captures⟩ = ⟨w.reverse ++ before, rest, captures⟩ :: others := by
  induction w generalizing before n with
  | nil => exact ⟨[], iterate_char_nil hrest n⟩
  | cons c w ih =>
      rw [List.forall_mem_cons] at hw
      cases n with
      | zero => contradiction
      | succ n =>
          obtain ⟨others, hothers⟩ : ∃ others,
              iterate (fun s => (char p).run (s.forget (char p).groups)) true n
                ⟨c :: before, w ++ rest, captures⟩ =
                  ⟨w.reverse ++ c :: before, rest, captures⟩ :: others :=
            ih hw.2 (Nat.le_of_succ_le_succ hn)
          refine ⟨others ++ [⟨before, c :: (w ++ rest), captures⟩], ?_⟩
          rw [List.cons_append, iterate_char_succ hw.1, hothers]
          simp

/-- A lazy repetition goes through the text before it gets to its end. -/
theorem iterate_lazy (hw : ∀ c ∈ w, p c = true) {n : Nat} (hn : w.length ≤ n) :
    ∃ skipped others, iterate (fun s => (char p).run (s.forget (char p).groups)) false n
        ⟨before, w ++ rest, captures⟩ =
          skipped ++ ⟨w.reverse ++ before, rest, captures⟩ :: others ∧
      ∀ x ∈ skipped, ∃ c ∈ w, x.rest.head? = some c := by
  induction w generalizing before n with
  | nil =>
      cases n with
      | zero => exact ⟨[], [], rfl, List.forall_mem_nil _⟩
      | succ n => exact ⟨[], _, rfl, List.forall_mem_nil _⟩
  | cons c w ih =>
      rw [List.forall_mem_cons] at hw
      cases n with
      | zero => contradiction
      | succ n =>
          obtain ⟨skipped, others, hrun, hskipped⟩ : ∃ skipped others,
              iterate (fun s => (char p).run (s.forget (char p).groups)) false n
                ⟨c :: before, w ++ rest, captures⟩ =
                  skipped ++ ⟨w.reverse ++ c :: before, rest, captures⟩ :: others ∧
              ∀ x ∈ skipped, ∃ c ∈ w, x.rest.head? = some c :=
            ih hw.2 (Nat.le_of_succ_le_succ hn)
          refine ⟨⟨before, c :: (w ++ rest), captures⟩ :: skipped, others, ?_, ?_⟩
          · rw [List.cons_append, iterate_char_succ hw.1, hrun]
            simp
          · intro x hx
            rcases List.mem_cons.mp hx with rfl | hx
            · exact ⟨c, List.mem_cons_self, rfl⟩
            · obtain ⟨d, hd, hhead⟩ := hskipped x hx
              exact ⟨d, List.mem_cons_of_mem c hd, hhead⟩

theorem prefers_star_greedy (hw : ∀ c ∈ w, p c = true) (hrest : ∀ c ∈ rest.head?, p c = false) :
    Prefers (star true (char p)) ⟨before, w ++ rest, captures⟩ ⟨w.reverse ++ before, rest, captures⟩ := by
  have hn : w.length ≤ (w ++ rest).length := by simp
  obtain ⟨others, hrun⟩ := iterate_greedy hw hrest hn
  exact List.head?_eq_some_iff.mpr ⟨others, hrun⟩

theorem prefers_plus (hne : w ≠ []) (hw : ∀ c ∈ w, p c = true)
    (hrest : ∀ c ∈ rest.head?, p c = false) :
    Prefers (plus (char p)) ⟨before, w ++ rest, captures⟩ ⟨w.reverse ++ before, rest, captures⟩ := by
  cases w with
  | nil => contradiction
  | cons c w =>
      rw [List.forall_mem_cons] at hw
      have hstar : Prefers (star true (char p)) ⟨c :: before, w ++ rest, captures⟩
          ⟨w.reverse ++ c :: before, rest, captures⟩ := prefers_star_greedy hw.2 hrest
      rw [List.reverse_cons, List.append_assoc, List.singleton_append]
      exact prefers_seq (prefers_of_run (run_char hw.1)) hstar

theorem prefers_group_plus {i : Nat} (hne : w ≠ []) (hw : ∀ c ∈ w, p c = true)
    (hrest : ∀ c ∈ rest.head?, p c = false) :
    Prefers (group i (plus (char p))) ⟨before, w ++ rest, captures⟩
      ⟨w.reverse ++ before, rest, (i, w) :: captures⟩ := by
  have hreads : Reads ⟨before, w ++ rest, captures⟩ ⟨w.reverse ++ before, rest, captures⟩ w :=
    ⟨rfl, rfl⟩
  have hgroup : Prefers (group i (plus (char p))) ⟨before, w ++ rest, captures⟩ _ :=
    prefers_group (prefers_plus hne hw hrest)
  rw [hreads.to] at hgroup
  exact hgroup

theorem run_star_lazy (hw : ∀ c ∈ w, p c = true) :
    ∃ skipped others, (star false (char p)).run ⟨before, w ++ rest, captures⟩ =
          skipped ++ ⟨w.reverse ++ before, rest, captures⟩ :: others ∧
      ∀ x ∈ skipped, ∃ c ∈ w, x.rest.head? = some c :=
  iterate_lazy hw (by simp)

/-- A captured lazy repetition of one or more characters. -/
theorem run_group_lazy {i : Nat} (hne : w ≠ []) (hw : ∀ c ∈ w, p c = true) :
    ∃ skipped others, (group i (seq (char p) (star false (char p)))).run
        ⟨before, w ++ rest, captures⟩ =
          skipped ++ ⟨w.reverse ++ before, rest, (i, w) :: captures⟩ :: others ∧
      ∀ x ∈ skipped, ∃ c ∈ w, x.rest.head? = some c := by
  cases w with
  | nil => contradiction
  | cons c w =>
      rw [List.forall_mem_cons] at hw
      obtain ⟨skipped, others, hrun, hskipped⟩ : ∃ skipped others,
          (star false (char p)).run ⟨c :: before, w ++ rest, captures⟩ =
            skipped ++ ⟨w.reverse ++ c :: before, rest, captures⟩ :: others ∧
          ∀ x ∈ skipped, ∃ d ∈ w, x.rest.head? = some d := run_star_lazy hw.2
      let s : Pos α := ⟨before, c :: (w ++ rest), captures⟩
      let capture : Pos α → Pos α := fun t => { t with captures := (i, s.to t) :: t.captures }
      have hseq : (seq (char p) (star false (char p))).run s =
          skipped ++ ⟨w.reverse ++ c :: before, rest, captures⟩ :: others := by
        have hcons : (seq (char p) (star false (char p))).run s =
            ((char p).run s).flatMap (star false (char p)).run := rfl
        rw [hcons, run_char hw.1, List.flatMap_singleton, hrun]
      have hreads : Reads s ⟨w.reverse ++ c :: before, rest, captures⟩ (c :: w) := by
        constructor
        · rfl
        · simp [s]
      refine ⟨skipped.map capture, others.map capture, ?_, ?_⟩
      · have hgroup : (group i (seq (char p) (star false (char p)))).run s =
            ((seq (char p) (star false (char p))).run s).map capture := rfl
        have hlast : capture ⟨w.reverse ++ c :: before, rest, captures⟩ =
            ⟨(c :: w).reverse ++ before, rest, (i, c :: w) :: captures⟩ := by
          simp only [capture, hreads.to]
          simp
        rw [List.cons_append, hgroup, hseq, List.map_append, List.map_cons, hlast]
      · intro x hx
        obtain ⟨y, hy, rfl⟩ := List.mem_map.mp hx
        obtain ⟨d, hd, hhead⟩ := hskipped y hy
        exact ⟨d, List.mem_cons_of_mem c hd, hhead⟩

theorem iterate_ne_nil (step : Pos α → List (Pos α)) (greedy : Bool) (n : Nat) (s : Pos α) :
    iterate step greedy n s ≠ [] := by
  cases n with
  | zero => exact List.cons_ne_nil s []
  | succ n =>
      unfold iterate
      cases greedy with
      | true => simp
      | false => simp

/-! ## Searches and splits -/

theorem matchAt_of_prefers (h : Prefers r (.start before rest) t) : matchAt r before rest = some t := h

theorem exec_of_prefers {text : List α} (h : Prefers r (.start [] text) t) :
    exec r text = some (.start [] text, t) := by
  have hmatch := matchAt_of_prefers h
  unfold exec
  cases text with
  | nil =>
      rw [search, hmatch]
      rfl
  | cons c text => rw [search, hmatch]

/-- A piece of a text begins anew there. -/
def Boundary (r : Regex α) (before rest : List α) : Prop := (matchAt r before rest).isSome = true

theorem run_seq_ne_nil (ha : a.run s = [t]) (hb : b.run t ≠ []) : (seq a b).run s ≠ [] := by
  have hrun : (seq a b).run s = (a.run s).flatMap b.run := rfl
  rw [hrun, ha, List.flatMap_singleton]
  exact hb

theorem run_plus_ne_nil {c : α} (hc : p c = true) :
    (plus (char p)).run ⟨before, c :: rest, captures⟩ ≠ [] :=
  run_seq_ne_nil (run_char hc) (iterate_ne_nil _ _ _ _)

theorem boundary_ahead : Boundary (ahead r) before rest ↔ r.run (.start before rest) ≠ [] := by
  unfold Boundary matchAt
  rw [run]
  cases r.run (.start before rest) with
  | nil => simp
  | cons t others => simp

theorem ahead_reads (h : t ∈ (ahead r).run s) : t.rest = s.rest := by
  rw [run] at h
  split at h
  · rw [List.mem_singleton.mp h]
  · contradiction

/-- Every match is empty. -/
def ReadsNothing (r : Regex α) : Prop := ∀ s, ∀ t ∈ r.run s, t.rest = s.rest

/-- The pieces, none of them empty, and the boundaries between them are the only
ones behind the start. -/
def Cut (r : Regex α) : List α → List (List α) → Prop
  | _, [] => True
  | before, piece :: pieces =>
      piece ≠ [] ∧
        (∀ front back, piece = front ++ back → front ≠ [] → back ≠ [] →
          ¬ Boundary r (front.reverse ++ before) (back ++ pieces.flatten)) ∧
        (pieces ≠ [] → Boundary r (piece.reverse ++ before) pieces.flatten) ∧
        Cut r (piece.reverse ++ before) pieces

theorem ReadsNothing.to (hr : ReadsNothing r) (h : matchAt r before rest = some t) :
    (Pos.start before rest).to t = [] := by
  have hrest : t.rest = rest := hr _ t (List.mem_of_head? h)
  unfold Pos.to
  rw [hrest]
  simp [Pos.start]

theorem splitFrom_nil (hr : ReadsNothing r) (c : α) (before rest : List α) :
    splitFrom r 0 before [] (c :: rest) = splitFrom r 0 (c :: before) [c] rest := by
  cases h : matchAt r before (c :: rest) with
  | none =>
      rw [splitFrom, h]
  | some t =>
      rw [splitFrom, h]
      dsimp only
      rw [hr.to h]

/-- A boundary ends the piece, anything else belongs to it. -/
theorem splitFrom_cons (hr : ReadsNothing r) {piece : List α} (hpiece : piece ≠ []) (c : α)
    (before rest : List α) :
    splitFrom r 0 before piece (c :: rest) =
      if (matchAt r before (c :: rest)).isSome then
        piece.reverse :: splitFrom r 0 (c :: before) [c] rest
      else splitFrom r 0 (c :: before) (c :: piece) rest := by
  cases h : matchAt r before (c :: rest) with
  | none => rw [splitFrom, h]; rfl
  | some t =>
      rw [splitFrom, h]
      dsimp only
      rw [hr.to h]
      cases piece with
      | nil => contradiction
      | cons x piece => rfl

theorem not_boundary_tail {c : α} {more : List α}
    (h : ∀ front back, c :: more = front ++ back → front ≠ [] → back ≠ [] →
      ¬ Boundary r (front.reverse ++ before) (back ++ rest)) :
    ∀ front back, more = front ++ back → back ≠ [] →
      ¬ Boundary r (front.reverse ++ c :: before) (back ++ rest) := by
  intro front back heq hback
  have hlater := h (c :: front) back (by rw [heq, List.cons_append]) (List.cons_ne_nil c front) hback
  rw [List.reverse_cons, List.append_assoc, List.singleton_append] at hlater
  exact hlater

theorem splitFrom_inside (hr : ReadsNothing r) {piece : List α} (hpiece : piece ≠ []) (more : List α)
    (h : ∀ front back, more = front ++ back → back ≠ [] →
      ¬ Boundary r (front.reverse ++ before) (back ++ rest)) :
    splitFrom r 0 before piece (more ++ rest) =
      splitFrom r 0 (more.reverse ++ before) (more.reverse ++ piece) rest := by
  induction more generalizing before piece with
  | nil => rfl
  | cons c more ih =>
      have hnone : ¬ (matchAt r before (c :: (more ++ rest))).isSome = true :=
        h [] (c :: more) rfl (List.cons_ne_nil c more)
      have hmore := not_boundary_tail fun front back heq _ hback => h front back heq hback
      rw [List.cons_append, splitFrom_cons hr hpiece, if_neg hnone,
        ih (List.cons_ne_nil c piece) hmore, List.reverse_cons, List.append_assoc,
        List.append_assoc, List.singleton_append, List.singleton_append]

theorem splitFrom_pieces (hr : ReadsNothing r) {pieces : List (List α)} (hne : pieces ≠ [])
    (h : Cut r before pieces) : splitFrom r 0 before [] pieces.flatten = pieces := by
  induction pieces generalizing before with
  | nil => contradiction
  | cons piece pieces ih =>
      obtain ⟨hpiece, hinside, hboundary, hcut⟩ := h
      cases piece with
      | nil => contradiction
      | cons c more =>
          rw [List.flatten_cons, List.cons_append, splitFrom_nil hr,
            splitFrom_inside hr (List.cons_ne_nil c []) more (not_boundary_tail hinside)]
          have hreverse : (more.reverse ++ [c]).reverse = c :: more := by simp
          rw [List.reverse_cons, List.append_assoc, List.singleton_append] at hboundary hcut
          cases pieces with
          | nil => rw [List.flatten_nil, splitFrom, hreverse]
          | cons next pieces =>
              have hfirst := hboundary (List.cons_ne_nil next pieces)
              have hlater := ih (List.cons_ne_nil next pieces) hcut
              cases hrest : (next :: pieces).flatten with
              | nil =>
                  rw [List.flatten_cons, List.append_eq_nil_iff] at hrest
                  exact absurd hrest.1 hcut.1
              | cons d rest =>
                  rw [hrest] at hfirst hlater
                  unfold Boundary at hfirst
                  rw [splitFrom_cons hr (by simp), if_pos hfirst, hreverse, ← splitFrom_nil hr,
                    hlater]

theorem split_flatten (hr : ReadsNothing r) {pieces : List (List α)} (hne : pieces ≠ [])
    (h : Cut r [] pieces) : split r pieces.flatten = pieces := by
  have hpieces := splitFrom_pieces hr hne h
  cases pieces with
  | nil => contradiction
  | cons piece pieces =>
      cases hflat : (piece :: pieces).flatten with
      | nil =>
          rw [List.flatten_cons, List.append_eq_nil_iff] at hflat
          exact absurd hflat.1 h.1
      | cons c rest =>
          rw [hflat] at hpieces
          exact hpieces

end TSymbiote.Regex
