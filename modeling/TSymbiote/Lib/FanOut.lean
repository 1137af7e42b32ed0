import TSymbiote.Lib.Transition
import Mathlib.Logic.Hydra

/-! # Fan-out over one unbuffered channel per goroutine

A collector starts one goroutine per task, each with an unbuffered channel of
its own. It then visits the channels in order, receives once from each and
closes it. Goroutines read and update state they share, send on their channel,
and return or panic; a panic, as well as a send on a closed channel, ends the
process. Everything below is about the runs of `step`: which goroutine bodies
keep the process alive, what the collector has received when no step is left,
and that no run is infinite.
-/

namespace TSymbiote.FanOut

open Transition

/-- The rest of a goroutine's body. Loads and updates of the shared state are
atomic; a send is a rendezvous on the goroutine's own channel. -/
inductive Go (σ V : Type) where
  | ret
  | panic
  | send (v : V) (next : Go σ V)
  | load (next : σ → Go σ V)
  | store (update : σ → σ) (next : Go σ V)

/-- `closed` counts the channels the collector has closed; it closes them in
order, so channel `i` is closed exactly when `i < closed`. -/
structure State (σ V : Type) where
  shared : σ
  unstarted : List (Go σ V)
  workers : List (Go σ V)
  results : List V
  closed : Nat
  crashed : Bool

inductive Label where
  | spawn
  | work (i : Nat)
  | deliver
  | close
  deriving DecidableEq, Repr

variable {σ V : Type}

def start (tasks : List (Go σ V)) (shared : σ) : State σ V :=
  { shared, unstarted := tasks, workers := [], results := [], closed := 0, crashed := false }

/-- All goroutine bodies, started or not, by channel index. -/
def State.tasks (s : State σ V) : List (Go σ V) := s.workers ++ s.unstarted

def step (s : State σ V) : Label → Option (State σ V)
  | .spawn =>
      match s.crashed, s.unstarted with
      | false, w :: ws => some { s with unstarted := ws, workers := s.workers ++ [w] }
      | _, _ => none
  | .work i =>
      match s.crashed, s.workers[i]? with
      | false, some (.load next) => some { s with workers := s.workers.set i (next s.shared) }
      | false, some (.store update next) =>
          some { s with shared := update s.shared, workers := s.workers.set i next }
      | false, some .panic => some { s with crashed := true }
      -- A sender on a closed channel panics, also when it was already blocked there.
      | false, some (.send _ _) => if i < s.closed then some { s with crashed := true } else none
      | _, _ => none
  | .deliver =>
      match s.crashed, s.unstarted, s.workers[s.closed]? with
      | false, [], some (.send v next) =>
          if s.results.length = s.closed then
            some { s with workers := s.workers.set s.closed next, results := s.results ++ [v] }
          else none
      | _, _, _ => none
  | .close =>
      if s.crashed = false ∧ s.results.length = s.closed + 1 then
        some { s with closed := s.closed + 1 }
      else none

/-! ## What one step can do -/

/-- The steps a goroutine takes without its channel. -/
inductive Go.Internal : σ → Go σ V → σ → Go σ V → Prop where
  | load (s : σ) (next : σ → Go σ V) : Internal s (.load next) s (next s)
  | store (s : σ) (update : σ → σ) (next : Go σ V) : Internal s (.store update next) (update s) next

theorem step_spawn {s t : State σ V} (h : step s .spawn = some t) :
    s.crashed = false ∧ ∃ w ws, s.unstarted = w :: ws ∧
      t = { s with unstarted := ws, workers := s.workers ++ [w] } := by
  simp only [step] at h
  split at h
  · next w ws hc hu => exact ⟨hc, w, ws, hu, by simpa using h.symm⟩
  · cases h

theorem step_work {s t : State σ V} {i : Nat} (h : step s (.work i) = some t) :
    s.crashed = false ∧
      ((∃ w w' x, s.workers[i]? = some w ∧ Go.Internal s.shared w x w' ∧
          t = { s with shared := x, workers := s.workers.set i w' }) ∨
        (t = { s with crashed := true } ∧ (s.workers[i]? = some .panic ∨
          (i < s.closed ∧ ∃ v next, s.workers[i]? = some (.send v next))))) := by
  simp only [step] at h
  split at h
  · next next hc hw =>
      exact ⟨hc, .inl ⟨_, _, _, hw, .load _ _, by simpa using h.symm⟩⟩
  · next update next hc hw =>
      exact ⟨hc, .inl ⟨_, _, _, hw, .store _ _ _, by simpa using h.symm⟩⟩
  · next hc hw => exact ⟨hc, .inr ⟨by simpa using h.symm, .inl hw⟩⟩
  · next v next hc hw =>
      split at h
      · next hi => exact ⟨hc, .inr ⟨by simpa using h.symm, .inr ⟨hi, v, next, hw⟩⟩⟩
      · cases h
  · cases h

theorem step_deliver {s t : State σ V} (h : step s .deliver = some t) :
    s.crashed = false ∧ s.unstarted = [] ∧ s.results.length = s.closed ∧
      ∃ v next, s.workers[s.closed]? = some (.send v next) ∧
        t = { s with workers := s.workers.set s.closed next, results := s.results ++ [v] } := by
  simp only [step] at h
  split at h
  · next v next hc hu hw =>
      split at h
      · next hr => exact ⟨hc, hu, hr, v, next, hw, by simpa using h.symm⟩
      · cases h
  · cases h

theorem step_close {s t : State σ V} (h : step s .close = some t) :
    s.crashed = false ∧ s.results.length = s.closed + 1 ∧
      t = { s with closed := s.closed + 1 } := by
  simp only [step] at h
  split at h
  · next hc => exact ⟨hc.1, hc.2, by simpa using h.symm⟩
  · cases h

/-! ## What a goroutine body does, whatever it reads -/

/-- `some vs`: it sends exactly `vs` and returns. `none`: it panics before it
sends. -/
def Go.Does : Go σ V → Option (List V) → Prop
  | .ret, d => d = some []
  | .panic, d => d = none
  | .send v next, d => ∃ vs, d = some (v :: vs) ∧ next.Does (some vs)
  | .load next, d => ∀ s, (next s).Does d
  | .store _ next, d => next.Does d

theorem Go.Internal.does {s x : σ} {w w' : Go σ V} {d : Option (List V)}
    (h : Go.Internal s w x w') (hd : w.Does d) : w'.Does d := by
  cases h with
  | load next => exact hd s
  | store update next => exact hd

/-- What channel `i` still owes after `received` channels were served. -/
def owed (received i : Nat) (d : Option (List V)) : Option (List V) :=
  if i < received then d.map List.tail else d

/-- Every body does its share `ds`, and the results are the first sends. -/
structure Invariant (ds : List (Option (List V))) (s : State σ V) : Prop where
  length : s.tasks.length = ds.length
  does : ∀ {i : Nat} {w : Go σ V} {d : Option (List V)}, s.tasks[i]? = some w → ds[i]? = some d →
    w.Does (owed s.results.length i d)
  received : ∀ {i : Nat} {v : V}, s.results[i]? = some v → ∃ vs, ds[i]? = some (some (v :: vs))
  closed : s.closed ≤ s.results.length ∧ s.results.length ≤ s.closed + 1

theorem Invariant.received_le {ds : List (Option (List V))} {s : State σ V}
    (h : Invariant ds s) : s.results.length ≤ ds.length := by
  by_contra hlt
  have hlast : ds.length < s.results.length := by omega
  obtain ⟨vs, hvs⟩ := h.received (List.getElem?_eq_getElem hlast)
  simp at hvs

theorem invariant_start {tasks : List (Go σ V)} {ds : List (Option (List V))} (x : σ)
    (h : List.Forall₂ Go.Does tasks ds) : Invariant ds (start tasks x) := by
  refine ⟨by simpa [start, State.tasks] using h.length_eq, ?_, by simp [start], by simp [start]⟩
  intro i w d hw hd
  simp only [start, State.tasks, List.nil_append] at hw
  have hi := (List.getElem?_eq_some_iff.mp hw).1
  have hdoes := List.Forall₂.get h hi (by rw [← h.length_eq]; exact hi)
  obtain ⟨_, rfl⟩ := List.getElem?_eq_some_iff.mp hw
  obtain ⟨_, rfl⟩ := List.getElem?_eq_some_iff.mp hd
  simpa [owed, start] using hdoes

/-- An entry of an updated list is the new one, or was there before. -/
theorem getElem?_set_cases {α : Type} {l : List α} {i j : Nat} {a b : α}
    (h : (l.set i a)[j]? = some b) : (i = j ∧ b = a) ∨ (i ≠ j ∧ l[j]? = some b) := by
  by_cases hij : i = j
  · subst hij
    rw [List.getElem?_set_self'] at h
    obtain ⟨_, _, hb⟩ := Option.map_eq_some_iff.mp h
    exact .inl ⟨rfl, hb.symm⟩
  · rw [List.getElem?_set_ne hij] at h
    exact .inr ⟨hij, h⟩

/-- An entry of an extended list was there before, or is the new one. -/
theorem getElem?_concat_cases {α : Type} {l : List α} {i : Nat} {a b : α}
    (h : (l ++ [a])[i]? = some b) : l[i]? = some b ∨ b = a := by
  rw [List.getElem?_append] at h
  split at h
  · exact .inl h
  · right
    exact List.mem_singleton.mp (List.mem_of_getElem? h)

theorem tasks_getElem? {s : State σ V} {i : Nat} {w : Go σ V} (h : s.workers[i]? = some w) :
    s.tasks[i]? = some w := by
  have hi := (List.getElem?_eq_some_iff.mp h).1
  rw [State.tasks, List.getElem?_append_left hi, h]

theorem tasks_set {s : State σ V} {i : Nat} {w : Go σ V} (h : s.workers[i]? = some w)
    (w' : Go σ V) : s.workers.set i w' ++ s.unstarted = s.tasks.set i w' := by
  have hi := (List.getElem?_eq_some_iff.mp h).1
  rw [State.tasks, List.set_append_left _ _ hi]

theorem Invariant.internal {ds : List (Option (List V))} {s : State σ V} (hs : Invariant ds s)
    {i : Nat} {w w' : Go σ V} {x : σ} (hw : s.workers[i]? = some w)
    (hint : Go.Internal s.shared w x w') :
    Invariant ds { s with shared := x, workers := s.workers.set i w' } where
  length := by simpa [State.tasks] using hs.length
  does {j u d} hu hd := by
    unfold State.tasks at hu
    rw [tasks_set hw w'] at hu
    rcases getElem?_set_cases hu with ⟨hij, huw⟩ | ⟨_, hold⟩
    · rw [huw]
      exact hint.does (hs.does (hij ▸ tasks_getElem? hw) hd)
    · exact hs.does hold hd
  received := hs.received
  closed := hs.closed

/-- A delivery settles the first send of the channel in turn. -/
theorem Invariant.deliver {ds : List (Option (List V))} {s : State σ V} (hs : Invariant ds s)
    (hr : s.results.length = s.closed) {v : V} {next : Go σ V}
    (hw : s.workers[s.closed]? = some (.send v next)) :
    Invariant ds
      { s with workers := s.workers.set s.closed next, results := s.results ++ [v] } := by
  have htask := tasks_getElem? hw
  have hk : s.closed < ds.length := by
    rw [← hs.length]
    exact (List.getElem?_eq_some_iff.mp htask).1
  have howed := hs.does htask (List.getElem?_eq_getElem hk)
  simp only [owed, hr, Nat.lt_irrefl, if_false] at howed
  rcases howed with ⟨vs, hds, hnext⟩
  have hget : ds[s.closed]? = some (some (v :: vs)) := by rw [List.getElem?_eq_getElem hk, hds]
  constructor
  · simpa [State.tasks] using hs.length
  · intro j u d hu hd
    unfold State.tasks at hu
    rw [tasks_set hw next] at hu
    simp only [owed, List.length_append, List.length_singleton]
    rcases getElem?_set_cases hu with ⟨hij, hun⟩ | ⟨hij, hu⟩
    · rw [← hij, hget] at hd
      cases hd
      simpa [hun, ← hij, hr] using hnext
    · have hold := hs.does hu hd
      unfold owed at hold
      by_cases hlt : j < s.results.length
      · simpa [hlt, Nat.lt_succ_of_lt hlt] using hold
      · have hlt' : ¬ j < s.results.length + 1 := by omega
        simpa [hlt, hlt'] using hold
  · intro j u hu
    rw [List.getElem?_append] at hu
    split at hu
    · exact hs.received hu
    · next hj =>
        obtain ⟨hj', rfl⟩ := List.getElem?_eq_some_iff.mp hu
        rw [List.length_singleton] at hj'
        have hjk : j = s.closed := by omega
        subst hjk
        simpa using ⟨vs, hget⟩
  · rw [List.length_append, List.length_singleton]
    dsimp only
    omega

theorem step_invariant {ds : List (Option (List V))} {s t : State σ V} {l : Label}
    (hs : Invariant ds s) (h : step s l = some t) : Invariant ds t := by
  cases l with
  | spawn =>
      obtain ⟨_, w, ws, hu, rfl⟩ := step_spawn h
      have htasks : State.tasks { s with unstarted := ws, workers := s.workers ++ [w] } = s.tasks := by
        simp [State.tasks, hu]
      exact ⟨by rw [htasks, hs.length], fun hw hd => hs.does (htasks ▸ hw) hd, hs.received, hs.closed⟩
  | work i =>
      obtain ⟨_, ⟨w, w', x, hw, hint, rfl⟩ | ⟨rfl, _⟩⟩ := step_work h
      · exact hs.internal hw hint
      · exact ⟨hs.length, hs.does, hs.received, hs.closed⟩
  | deliver =>
      obtain ⟨_, _, hr, v, next, hw, rfl⟩ := step_deliver h
      exact hs.deliver hr hw
  | close =>
      obtain ⟨_, hr, rfl⟩ := step_close h
      exact ⟨hs.length, hs.does, hs.received, by dsimp only; omega⟩

/-- A property of the shared state and the bodies survives every run when each
operation on the state and each completed send keeps it. -/
theorem reaches_tasks {P : σ → List (Go σ V) → Prop} {tasks : List (Go σ V)} {x : σ} {s : State σ V}
    (hint : ∀ {y ts i w z w'}, P y ts → ts[i]? = some w → Go.Internal y w z w' → P z (ts.set i w'))
    (hsend : ∀ {y ts i v next}, P y ts → ts[i]? = some (.send v next) → P y (ts.set i next))
    (h : Reaches step (start tasks x) s) (h₀ : P x tasks) : P s.shared s.tasks := by
  refine Reaches.invariant (P := fun s => P s.shared s.tasks) (fun {s l t} hs hl => ?_) h h₀
  cases l with
  | spawn =>
      obtain ⟨_, w, ws, hu, rfl⟩ := step_spawn hl
      simpa [State.tasks, hu] using hs
  | work i =>
      obtain ⟨_, ⟨w, w', z, hw, hw', rfl⟩ | ⟨rfl, _⟩⟩ := step_work hl
      · unfold State.tasks
        rw [tasks_set hw]
        exact hint hs (tasks_getElem? hw) hw'
      · exact hs
  | deliver =>
      obtain ⟨_, _, _, v, next, hw, rfl⟩ := step_deliver hl
      unfold State.tasks
      rw [tasks_set hw]
      exact hsend hs (tasks_getElem? hw)
  | close =>
      obtain ⟨_, _, rfl⟩ := step_close hl
      exact hs

/-- Every task stands at a stage of its item, in the light of the shared state. -/
def Staged {ι : Type} (stage : σ → ι → Go σ V → Prop) (items : List ι) (x : σ)
    (tasks : List (Go σ V)) : Prop :=
  ∀ (i : Nat) (w : Go σ V) (item : ι), tasks[i]? = some w → items[i]? = some item → stage x item w

/-- One task comes to its next stage, and the others keep theirs. -/
theorem Staged.set {ι : Type} {stage : σ → ι → Go σ V → Prop} {items : List ι} {x y : σ}
    {tasks : List (Go σ V)} {i : Nat} {w' : Go σ V} {item : ι} (hs : Staged stage items x tasks)
    (hitem : items[i]? = some item)
    (hkeep : ∀ other ∈ items, ∀ w, stage x other w → stage y other w)
    (hstage : stage y item w') : Staged stage items y (tasks.set i w') := by
  intro j u other hu hother
  rcases getElem?_set_cases hu with ⟨hij, huw⟩ | ⟨_, hold⟩
  · subst hij
    rw [hitem] at hother
    cases hother
    exact huw ▸ hstage
  · exact hkeep other (List.mem_of_getElem? hother) u (hs j u other hold hother)

/-! ## States without a next step -/

/-- The reply is ready and no goroutine has anything left to do. -/
structure Complete (s : State σ V) (vs : List V) : Prop where
  started : s.unstarted = []
  returned : ∀ w ∈ s.workers, w = .ret
  closed : s.closed = s.workers.length
  results : s.results = vs

theorem stuck_unstarted {s : State σ V} (hc : s.crashed = false) (h : Stuck step s) :
    s.unstarted = [] := by
  cases hu : s.unstarted with
  | nil => rfl
  | cons w ws =>
      have hspawn := h .spawn
      simp [step, hc, hu] at hspawn

theorem stuck_worker {s : State σ V} (hc : s.crashed = false) (h : Stuck step s) {i : Nat}
    {w : Go σ V} (hw : s.workers[i]? = some w) :
    w = .ret ∨ (s.closed ≤ i ∧ ∃ v next, w = .send v next) := by
  have hwork := h (.work i)
  cases w with
  | ret => exact .inl rfl
  | panic => simp [step, hc, hw] at hwork
  | send v next =>
      simp only [step, hc, hw, ite_eq_right_iff, reduceCtorEq, imp_false, not_lt] at hwork
      exact .inr ⟨hwork, v, next, rfl⟩
  | load next => simp [step, hc, hw] at hwork
  | store update next => simp [step, hc, hw] at hwork

theorem stuck_received {s : State σ V} (hc : s.crashed = false) (h : Stuck step s)
    (hclosed : s.closed ≤ s.results.length ∧ s.results.length ≤ s.closed + 1) :
    s.results.length = s.closed := by
  have hclose := h .close
  simp only [step, hc, true_and, ite_eq_right_iff, reduceCtorEq, imp_false] at hclose
  omega

/-- The collector does not stop at a channel whose goroutine still owes a value. -/
theorem stuck_closed {ds : List (Option (List V))} {s : State σ V} (hs : Invariant ds s)
    (hne : ∀ d ∈ ds, d ≠ some []) (hc : s.crashed = false) (h : Stuck step s) :
    s.closed = ds.length := by
  have hu := stuck_unstarted hc h
  have hr := stuck_received hc h hs.closed
  have hle := hs.received_le
  by_contra hmore
  have hk : s.closed < ds.length := by omega
  have hkw : s.closed < s.workers.length := by
    have hlen := hs.length
    rw [State.tasks, hu, List.append_nil] at hlen
    omega
  have hget := List.getElem?_eq_getElem hkw
  have hdoes := hs.does (tasks_getElem? hget) (List.getElem?_eq_getElem hk)
  simp only [owed, hr, Nat.lt_irrefl, if_false] at hdoes
  rcases stuck_worker hc h hget with hret | ⟨_, v, next, hsend⟩
  · rw [hret] at hdoes
    exact hne _ (List.getElem_mem hk) hdoes
  · have hdeliver := h .deliver
    simp [step, hc, hu, hget, hsend, hr] at hdeliver

/-- When nothing can move, the process is gone or every goroutine has sent its
one value and returned. -/
theorem stuck_complete {ds : List (Option (List V))} {s : State σ V} (hs : Invariant ds s)
    (hne : ∀ d ∈ ds, d ≠ some []) (hc : s.crashed = false) (h : Stuck step s) :
    ∃ vs, ds = vs.map (fun v => some [v]) ∧ Complete s vs := by
  have hu := stuck_unstarted hc h
  have hr := stuck_received hc h hs.closed
  have hall := stuck_closed hs hne hc h
  have hlen : s.workers.length = ds.length := by
    have hlen := hs.length
    rwa [State.tasks, hu, List.append_nil] at hlen
  have hret : ∀ {i : Nat} {w : Go σ V}, s.workers[i]? = some w → w = .ret := by
    intro i w hw
    have hi := (List.getElem?_eq_some_iff.mp hw).1
    rcases stuck_worker hc h hw with hret | ⟨hopen, _⟩
    · exact hret
    · omega
  have hds : ds = s.results.map fun v => some [v] := by
    apply List.ext_getElem?
    intro i
    rw [List.getElem?_map]
    cases hv : s.results[i]? with
    | none =>
        have hi := List.getElem?_eq_none_iff.mp hv
        rw [Option.map_none, List.getElem?_eq_none_iff]
        omega
    | some v =>
        obtain ⟨vs, hd⟩ := hs.received hv
        have hi := (List.getElem?_eq_some_iff.mp hv).1
        have hget := List.getElem?_eq_getElem (by omega : i < s.workers.length)
        have hdoes := hs.does (tasks_getElem? hget) hd
        rw [hret hget] at hdoes
        simp only [owed, hi, if_true, Option.map_some, List.tail_cons, Go.Does,
          Option.some.injEq] at hdoes
        rw [hd, hdoes, Option.map_some]
  refine ⟨s.results, hds, hu, fun w hw => ?_, by omega, rfl⟩
  obtain ⟨i, hi⟩ := List.getElem?_of_mem hw
  exact hret hi

/-- A goroutine that sends once never meets a closed channel. -/
theorem step_no_crash {ds : List (Option (List V))} {s t : State σ V} {l : Label}
    (hone : ∀ d ∈ ds, ∃ v, d = some [v]) (hs : Invariant ds s) (h : step s l = some t) :
    t.crashed = false := by
  cases l with
  | spawn =>
      obtain ⟨hc, _, _, _, rfl⟩ := step_spawn h
      exact hc
  | work i =>
      obtain ⟨hc, ⟨_, _, _, _, _, rfl⟩ | ⟨rfl, hbad⟩⟩ := step_work h
      · exact hc
      · exfalso
        have hw : ∃ w, s.workers[i]? = some w := by
          rcases hbad with h | ⟨_, v, next, h⟩ <;> exact ⟨_, h⟩
        rcases hw with ⟨w, hw⟩
        have htask := tasks_getElem? hw
        have hi : i < ds.length := hs.length ▸ (List.getElem?_eq_some_iff.mp htask).1
        have hdget := List.getElem?_eq_getElem hi
        have hdoes := hs.does htask hdget
        obtain ⟨v, hv⟩ := hone _ (List.getElem_mem hi)
        rw [hv] at hdoes
        rcases hbad with hp | ⟨hlt, v', next, hsend⟩
        · obtain rfl := Option.some.inj (hw.symm.trans hp)
          simp only [owed, Option.map_some, Go.Does] at hdoes
          split at hdoes <;> simp at hdoes
        · obtain rfl := Option.some.inj (hw.symm.trans hsend)
          have := hs.closed
          have hlt' : i < s.results.length := by omega
          simp [owed, hlt', Go.Does] at hdoes
  | deliver =>
      obtain ⟨hc, _, _, _, _, _, rfl⟩ := step_deliver h
      exact hc
  | close =>
      obtain ⟨hc, _, rfl⟩ := step_close h
      exact hc

/-! ## No run is infinite -/

/-- `Go.Child w' w`: `w'` is what is left of `w` after one of its actions. -/
inductive Go.Child : Go σ V → Go σ V → Prop where
  | send (v : V) (next : Go σ V) : Child next (.send v next)
  | load (s : σ) (next : σ → Go σ V) : Child (next s) (.load next)
  | store (update : σ → σ) (next : Go σ V) : Child next (.store update next)

theorem Go.child_wf : WellFounded (Go.Child (σ := σ) (V := V)) := by
  constructor
  intro w
  induction w with
  | ret => exact ⟨_, fun _ h => by cases h⟩
  | panic => exact ⟨_, fun _ h => by cases h⟩
  | send v next ih => exact ⟨_, fun _ h => by cases h; exact ih⟩
  | load next ih => exact ⟨_, fun _ h => by cases h; exact ih _⟩
  | store update next ih => exact ⟨_, fun _ h => by cases h; exact ih⟩

theorem Go.Internal.child {s x : σ} {w w' : Go σ V} (h : Go.Internal s w x w') :
    Go.Child w' w := by
  cases h with
  | load next => exact .load _ _
  | store update next => exact .store _ _

theorem cutExpand_set {r : Go σ V → Go σ V → Prop} {ws : List (Go σ V)} {i : Nat} {w w' : Go σ V}
    (hw : ws[i]? = some w) (hr : r w' w) :
    Relation.CutExpand r (ws.set i w' : Multiset (Go σ V)) ws := by
  refine ⟨{w'}, w, by simpa using hr, ?_⟩
  induction ws generalizing i with
  | nil => simp at hw
  | cons u us ih =>
      cases i with
      | zero =>
          obtain rfl := Option.some.inj hw
          simp only [List.set_cons_zero, ← Multiset.cons_coe, ← Multiset.singleton_add]
          rw [add_right_comm, add_comm ({w'} : Multiset (Go σ V)) {u}, add_right_comm]
      | succ i =>
          have := ih (by simpa using hw)
          simp only [List.set_cons_succ, ← Multiset.cons_coe, ← Multiset.singleton_add] at this ⊢
          rw [add_assoc, this, add_assoc]

/-- The collector's remaining work, and whether the process is still alive. -/
def State.rank (s : State σ V) : Nat :=
  s.unstarted.length + (s.results.length - s.closed) + if s.crashed then 0 else 1

theorem step_decreases {s t : State σ V} {l : Label} (h : step s l = some t) :
    Prod.Lex (Relation.CutExpand Go.Child) (· < ·)
      ((t.tasks : Multiset (Go σ V)), t.rank) ((s.tasks : Multiset (Go σ V)), s.rank) := by
  cases l with
  | spawn =>
      obtain ⟨_, w, ws, hu, rfl⟩ := step_spawn h
      have htasks : State.tasks { s with unstarted := ws, workers := s.workers ++ [w] } = s.tasks := by
        simp [State.tasks, hu]
      rw [htasks]
      exact .right _ (by simp only [State.rank, hu, List.length_cons]; omega)
  | work i =>
      obtain ⟨hc, ⟨w, w', x, hw, hint, rfl⟩ | ⟨rfl, _⟩⟩ := step_work h
      · apply Prod.Lex.left
        rw [State.tasks, tasks_set hw]
        exact cutExpand_set (tasks_getElem? hw) hint.child
      · exact .right _ (by simp [State.rank, hc])
  | deliver =>
      obtain ⟨_, _, _, v, next, hw, rfl⟩ := step_deliver h
      apply Prod.Lex.left
      rw [State.tasks, tasks_set hw]
      exact cutExpand_set (tasks_getElem? hw) (.send v next)
  | close =>
      obtain ⟨_, hr, rfl⟩ := step_close h
      exact .right _ (by simp only [State.rank, hr]; omega)

theorem step_wf : WellFounded fun t s : State σ V => ∃ l, step s l = some t := by
  have hlex := WellFounded.prod_lex (Go.child_wf (σ := σ) (V := V)).cutExpand
    (Nat.lt_wfRel.wf)
  refine Subrelation.wf (fun {t s} h => ?_)
    (InvImage.wf (fun s : State σ V => ((s.tasks : Multiset (Go σ V)), s.rank)) hlex)
  rcases h with ⟨l, hl⟩
  exact step_decreases hl

/-! ## Which fan-outs keep the process alive -/

section Runs

variable {tasks : List (Go σ V)} {ds : List (Option (List V))} {s : State σ V}

/-- One body for each of `l`. -/
theorem bodies_do {α : Type} {body : α → Go σ V} {share : α → Option (List V)}
    (h : ∀ a, (body a).Does (share a)) (l : List α) :
    List.Forall₂ Go.Does (l.map body) (l.map share) := by
  rw [List.forall₂_map_left_iff, List.forall₂_map_right_iff, List.forall₂_same]
  exact fun a _ => h a

theorem reaches_invariant (x : σ) (h : List.Forall₂ Go.Does tasks ds)
    (hs : Reaches step (start tasks x) s) : Invariant ds s :=
  Reaches.invariant (fun hi hl => step_invariant hi hl) hs (invariant_start x h)

theorem reaches_no_crash (x : σ) (h : List.Forall₂ Go.Does tasks ds)
    (hone : ∀ d ∈ ds, ∃ v, d = some [v]) (hs : Reaches step (start tasks x) s) :
    s.crashed = false := by
  have hboth : Invariant ds s ∧ s.crashed = false :=
    Reaches.invariant (P := fun s => Invariant ds s ∧ s.crashed = false)
      (fun hi hl => ⟨step_invariant hi.1 hl, step_no_crash hone hi.1 hl⟩) hs
      ⟨invariant_start x h, rfl⟩
  exact hboth.2

/-- The process survives every interleaving exactly when each goroutine sends
exactly one value. -/
theorem never_crashes_iff (x : σ) (h : List.Forall₂ Go.Does tasks ds)
    (hne : ∀ d ∈ ds, d ≠ some []) :
    (∀ s, Reaches step (start tasks x) s → s.crashed = false) ↔ ∀ d ∈ ds, ∃ v, d = some [v] := by
  refine ⟨fun halive => ?_, fun hone s hs => reaches_no_crash x h hone hs⟩
  obtain ⟨t, ht, hstuck⟩ := exists_stuck step_wf (start tasks x)
  obtain ⟨vs, rfl, _⟩ := stuck_complete (reaches_invariant x h ht) hne (halive t ht) hstuck
  intro d hd
  obtain ⟨v, _, rfl⟩ := List.mem_map.mp hd
  exact ⟨v, rfl⟩

theorem sends_one (vs : List V) : ∀ d ∈ vs.map (fun v => some [v]), ∃ v, d = some [v] := by
  intro d hd
  obtain ⟨v, _, rfl⟩ := List.mem_map.mp hd
  exact ⟨v, rfl⟩

/-- With one send each, the process survives, and every maximal run ends with all
values in task order. -/
theorem reaches_alive (x : σ) {vs : List V}
    (h : List.Forall₂ Go.Does tasks (vs.map fun v => some [v]))
    (hs : Reaches step (start tasks x) s) :
    s.crashed = false ∧ (Stuck step s → Complete s vs) := by
  have halive := reaches_no_crash x h (sends_one vs) hs
  refine ⟨halive, fun hstuck => ?_⟩
  have hne : ∀ d ∈ vs.map (fun v => some [v]), d ≠ some [] := by
    intro d hd
    obtain ⟨v, rfl⟩ := sends_one vs d hd
    simp
  obtain ⟨us, hus, hcomplete⟩ := stuck_complete (reaches_invariant x h hs) hne halive hstuck
  have hinj : Function.Injective fun v : V => some [v] := fun a b hab => by simpa using hab
  obtain rfl := (List.map_injective_iff.mpr hinj) hus
  exact hcomplete

end Runs

end TSymbiote.FanOut
