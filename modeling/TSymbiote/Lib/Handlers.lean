import Mathlib.Data.List.Basic

/-! # Handlers that call the next one

A middleware is the code of a handler with calls of `next` in it: it may call
the next handler any number of times, with any request, act on the world in
between and branch on every answer, or panic. A chain is folded from its end.
Every run leaves a trace, in which an event that needs another one before it can
be found to come too early.
-/

namespace TSymbiote.Handlers

variable {R E σ : Type} {A : E → Type}

/-- What a handler does. `next` hands on a request and gets it back as the next
handler left it. -/
inductive Code (R E : Type) (A : E → Type) where
  | ret (r : R)
  | panics
  | next (r : R) (rest : R → Code R E A)
  | perform (e : E) (rest : A e → Code R E A)

/-- The same code for a request of which it sees a part. -/
def Code.within {R' : Type} (get : R → R') (set : R' → R) : Code R' E A → Code R E A
  | .ret r => .ret (set r)
  | .panics => .panics
  | .next r rest => .next (set r) fun r => (rest (get r)).within get set
  | .perform e rest => .perform e fun a => (rest a).within get set

/-- The middlewares of a chain are known by their places. -/
inductive Event (E : Type) (A : E → Type) where
  | entered (i : Nat)
  | final
  | performed (e : E) (answer : A e)

/-- `request` is missing after a panic. -/
structure Outcome (R E : Type) (A : E → Type) (σ : Type) where
  request : Option R
  state : σ
  trace : List (Event E A)

abbrev Handler (R E : Type) (A : E → Type) (σ : Type) := R → σ → Outcome R E A σ

/-- The answers of the world, and what becomes of it. -/
abbrev World (E : Type) (A : E → Type) (σ : Type) := σ → (e : E) → A e × σ

def Code.run (world : World E A σ) (next : Handler R E A σ) : Code R E A → σ → Outcome R E A σ
  | .ret r, s => ⟨some r, s, []⟩
  | .panics, s => ⟨none, s, []⟩
  | .next r rest, s =>
      let called := next r s
      match called.request with
      | none => called
      | some r' =>
          let o := (rest r').run world next called.state
          { o with trace := called.trace ++ o.trace }
  | .perform e rest, s =>
      let o := (rest (world s e).1).run world next (world s e).2
      { o with trace := .performed e (world s e).1 :: o.trace }

/-- A middleware at place `i`, applied to the handler after it. -/
def enter (world : World E A σ) (i : Nat) (code : R → Code R E A) (next : Handler R E A σ) :
    Handler R E A σ :=
  fun r s =>
    let o := (code r).run world next s
    { o with trace := .entered i :: o.trace }

/-- The last handler: there is no next one to call. -/
def finish (world : World E A σ) (code : R → Code R E A) : Handler R E A σ :=
  fun r s =>
    let o := (code r).run world (fun r s => ⟨some r, s, []⟩) s
    { o with trace := .final :: o.trace }

/-- The handlers of a list of middlewares, the first of them at place `i`. -/
def link (world : World E A σ) (i : Nat) (codes : List (R → Code R E A))
    (final : Handler R E A σ) : Handler R E A σ :=
  (codes.zipIdx i).foldr (fun code next => enter world code.2 code.1 next) final

section Runs

variable {world : World E A σ} {next : Handler R E A σ}

theorem run_next (r : R) (rest : R → Code R E A) (s : σ) :
    (Code.next r rest).run world next s =
      match (next r s).request with
      | none => next r s
      | some r' =>
          let o := (rest r').run world next (next r s).state
          { o with trace := (next r s).trace ++ o.trace } := by
  rw [Code.run]

theorem run_perform (e : E) (rest : A e → Code R E A) (s : σ) :
    (Code.perform e rest).run world next s =
      let o := (rest (world s e).1).run world next (world s e).2
      { o with trace := .performed e (world s e).1 :: o.trace } := rfl

end Runs

/-! ## Nesting -/

/-- The handlers of a chain: at every place its middleware, applied to the
handler after it, and at last the final one. -/
structure Nested (world : World E A σ) (codes : List (R → Code R E A)) (final : Handler R E A σ)
    (handlers : Nat → Handler R E A σ) : Prop where
  place : ∀ i code, codes[i]? = some code → handlers i = enter world i code (handlers (i + 1))
  last : handlers codes.length = final

section Nested

variable {world : World E A σ} {codes : List (R → Code R E A)} {final : Handler R E A σ}
  {handlers : Nat → Handler R E A σ}

/-- A chain that is not empty starts with its first middleware. -/
theorem Nested.entered (h : Nested world codes final handlers) (hne : codes ≠ []) (r : R) (s : σ) :
    (handlers 0 r s).trace.head? = some (.entered 0) := by
  cases codes with
  | nil => exact absurd rfl hne
  | cons code codes =>
      rw [h.place 0 code rfl]
      rfl

end Nested

/-! ## Places in order -/

/-- The place of an event in a chain of `n` middlewares: the final handler comes
after them. -/
def Event.place (n : Nat) : Event E A → Option Nat
  | .entered i => some i
  | .final => some n
  | .performed _ _ => none

/-- From place `k` on, each place is entered only after the ones before it. -/
def Ordered (k n : Nat) (tr : List (Event E A)) : Prop :=
  ∀ before e after i, tr = before ++ e :: after → e.place n = some i →
    k ≤ i ∧ ∀ j, k ≤ j → j < i → .entered j ∈ before

section Ordered

variable {k n : Nat} {tr tr' : List (Event E A)}

theorem Ordered.nil : Ordered k n ([] : List (Event E A)) := by
  intro before e after i h
  exact absurd h (by simp)

theorem Ordered.append (h : Ordered k n tr) (h' : Ordered k n tr') : Ordered k n (tr ++ tr') := by
  intro before e after i heq hplace
  rcases List.append_eq_append_iff.mp heq with ⟨rest, hbefore, htr'⟩ | ⟨rest, htr, hrest⟩
  · obtain ⟨hk, hall⟩ := h' rest e after i htr' hplace
    refine ⟨hk, ?_⟩
    intro j hkj hji
    rw [hbefore]
    exact List.mem_append_right tr (hall j hkj hji)
  · cases rest with
    | nil =>
        obtain ⟨hk, hall⟩ := h' [] e after i hrest.symm hplace
        refine ⟨hk, ?_⟩
        intro j hkj hji
        exact absurd (hall j hkj hji) (by simp)
    | cons e' rest =>
        cases hrest
        exact h before e rest i htr hplace

theorem Ordered.performed (e : E) (a : A e) : Ordered k n [Event.performed e a] := by
  intro before e' after i heq hplace
  rcases List.cons_eq_append_iff.mp heq with ⟨hbefore, hrest⟩ | ⟨before', hbefore, hrest⟩
  · cases hrest
    cases hplace
  · simp at hrest

/-- The places after `k`, once `k` has been entered. -/
theorem Ordered.entered (h : Ordered (k + 1) n tr) : Ordered k n (.entered k :: tr) := by
  intro before e after i heq hplace
  rcases List.cons_eq_append_iff.mp heq with ⟨_, hrest⟩ | ⟨before', hbefore, hrest⟩
  · cases hrest
    cases hplace
    refine ⟨Nat.le_refl k, ?_⟩
    intro j hkj hjk
    omega
  · obtain ⟨hk, hall⟩ := h before' e after i hrest hplace
    refine ⟨by omega, ?_⟩
    intro j hkj hji
    rw [hbefore]
    by_cases hj : j = k
    · rw [hj]
      exact List.mem_cons_self
    · exact List.mem_cons_of_mem _ (hall j (by omega) hji)

variable {world : World E A σ}

end Ordered

/-! ## Guarded events -/

/-- No guarded event comes before one that opens. -/
def Gated (opens guarded : Event E A → Prop) (tr : List (Event E A)) : Prop :=
  ∀ before e after, tr = before ++ e :: after → guarded e → ∃ o ∈ before, opens o

section Gated

variable {opens guarded : Event E A → Prop} {tr tr' : List (Event E A)} {e : Event E A}

theorem Gated.nil : Gated opens guarded [] := by
  intro before e after h
  exact absurd h (by simp)

theorem Gated.cons (he : ¬ guarded e) (h : Gated opens guarded tr) :
    Gated opens guarded (e :: tr) := by
  intro before e' after heq hguarded
  rcases List.cons_eq_append_iff.mp heq with ⟨_, hrest⟩ | ⟨before', hbefore, hrest⟩
  · cases hrest
    exact absurd hguarded he
  · obtain ⟨o, ho, hopens⟩ := h before' e' after hrest hguarded
    exact ⟨o, hbefore ▸ List.mem_cons_of_mem _ ho, hopens⟩

/-- Anything may follow an event that opens. -/
theorem Gated.opened (he : ¬ guarded e) (hopens : opens e) : Gated opens guarded (e :: tr) := by
  intro before e' after heq hguarded
  rcases List.cons_eq_append_iff.mp heq with ⟨_, hrest⟩ | ⟨before', hbefore, _⟩
  · cases hrest
    exact absurd hguarded he
  · exact ⟨e, hbefore ▸ List.mem_cons_self, hopens⟩

theorem Gated.append (h : Gated opens guarded tr) (h' : Gated opens guarded tr') :
    Gated opens guarded (tr ++ tr') := by
  intro before e after heq hguarded
  rcases List.append_eq_append_iff.mp heq with ⟨rest, hbefore, htr'⟩ | ⟨rest, htr, hrest⟩
  · obtain ⟨o, ho, hopens⟩ := h' rest e after htr' hguarded
    exact ⟨o, hbefore ▸ List.mem_append_right tr ho, hopens⟩
  · cases rest with
    | nil =>
        obtain ⟨o, ho, _⟩ := h' [] e after hrest.symm hguarded
        exact absurd ho (by simp)
    | cons e' rest =>
        cases hrest
        exact h before e rest htr hguarded

end Gated

end TSymbiote.Handlers
