import TSymbiote.Lib.Transition

/-! # The server's way down

`ListenAndServe` waits for a signal and takes the server down in turn: the HTTP
server drains, the websockets' goroutines are waited for, the node logs out, and
what is left is closed. The first two waits share one deadline. A connection
that a websocket handler has taken over is not the HTTP server's any more, so
its handler may start goroutines at any time until it returns, and the
connection is not closed by its return.
-/

namespace TSymbiote.Shared.Shutdown

open Transition

/-- A connection, as `http.Server` tracks it. A fresh one counts as idle after
five seconds, and a hijacked one is its handler's. Once that has returned, the
connection is left to the goroutines it has started, if any, to close or not. -/
inductive Conn where
  | fresh
  | idle
  | serving
  | hijacked
  | left
  | closed
  deriving DecidableEq, Repr

inductive MainPc where
  | serving
  | draining
  | drainFailed
  | waiting
  | waitFailed
  | leaving
  | closing
  | done
  deriving DecidableEq, Repr

/-- The goroutine in `WebsocketManager.Shutdown`. -/
inductive Waiter where
  | absent
  | waiting
  | closed
  deriving DecidableEq, Repr

/-- `streams` are the goroutines of `RunWSFunc`, true while they run, and `count`
is the wait group's counter. `drained` and `joined` say that the two waits ended
without an error. `calm` is not in the code: no handler had a connection of its
own when the counter was found to be zero. -/
structure State where
  main : MainPc
  signalled : Bool
  listening : Bool
  cancelling : Bool
  cancelled : Bool
  expired : Bool
  conns : List Conn
  streams : List Bool
  count : Nat
  waiter : Waiter
  drained : Bool
  joined : Bool
  loggedOut : Bool
  calm : Bool
  deriving DecidableEq, Repr

def start : State where
  main := .serving
  signalled := false
  listening := true
  cancelling := false
  cancelled := false
  expired := false
  conns := []
  streams := []
  count := 0
  waiter := .absent
  drained := false
  joined := false
  loggedOut := false
  calm := false

inductive Action where
  | signal
  | accept
  | age (i : Nat)
  | request (i : Nat)
  | respond (i : Nat)
  | upgrade (i : Nat)
  | runWSFunc (i : Nat)
  | leave (i : Nat)
  | finish (j : Nat)
  | hook
  | deadline
  | waited
  | shutdown
  | poll
  | timeout
  | join
  | slept
  | logout (ok : Bool)
  | close
  deriving DecidableEq, Repr

/-! ## Steps -/

def enabled (s : State) : Action → Bool
  | .signal => s.signalled = false
  | .accept => s.listening = true
  | .age i => s.conns[i]? = some .fresh
  | .request i => s.conns[i]? = some .fresh ∨ s.conns[i]? = some .idle
  | .respond i => s.conns[i]? = some .serving
  | .upgrade i => s.conns[i]? = some .serving
  | .runWSFunc i => s.conns[i]? = some .hijacked
  | .leave i => s.conns[i]? = some .hijacked
  | .finish j => s.streams[j]? = some true
  | .hook => s.cancelling = true
  | .deadline => s.main ≠ .serving ∧ s.expired = false
  | .waited => s.waiter = .waiting ∧ s.count = 0
  | .shutdown => s.main = .serving ∧ s.signalled = true
  | .poll => s.main = .draining
  | .timeout => (s.main = .draining ∨ s.main = .waiting) ∧ s.expired = true
  | .join => s.main = .waiting ∧ s.waiter = .closed
  | .slept => s.main = .drainFailed ∨ s.main = .waitFailed
  | .logout _ => s.main = .leaving
  | .close => s.main = .closing

def State.setConn (s : State) (i : Nat) (c : Conn) : State := { s with conns := s.conns.set i c }

def Conn.closeIdle : Conn → Conn
  | .idle => .closed
  | c => c

/-- What keeps `http.Server.Shutdown` polling. -/
def Conn.busy (c : Conn) : Bool := c = .fresh ∨ c = .serving

/-- `http.Server.Close` leaves hijacked connections alone. -/
def Conn.close : Conn → Conn
  | .hijacked => .hijacked
  | .left => .left
  | _ => .closed

def State.closeIdleConns (s : State) : List Conn := s.conns.map Conn.closeIdle

/-- `WebsocketManager.Shutdown` starts to wait. -/
def State.awaitWebsockets (s : State) : State := { s with main := .waiting, waiter := .waiting }

def next (logout : Bool) (s : State) : Action → State
  | .signal => { s with signalled := true }
  | .accept => { s with conns := s.conns ++ [.fresh] }
  | .age i => s.setConn i .idle
  | .request i => s.setConn i .serving
  -- No connection is kept alive once the server shuts down.
  | .respond i => s.setConn i (if s.main = .serving then .idle else .closed)
  | .upgrade i => s.setConn i .hijacked
  | .runWSFunc _ => { s with streams := s.streams ++ [true], count := s.count + 1 }
  | .leave i => s.setConn i .left
  | .finish j => { s with streams := s.streams.set j false, count := s.count - 1 }
  | .hook => { s with cancelling := false, cancelled := true }
  | .deadline => { s with expired := true }
  | .waited => { s with waiter := .closed, calm := !s.conns.contains .hijacked }
  | .shutdown => { s with main := .draining, listening := false, cancelling := true }
  | .poll =>
      let s' := { s with conns := s.closeIdleConns }
      if s'.conns.any Conn.busy then s' else { s' with drained := true }.awaitWebsockets
  | .timeout => { s with main := if s.main = .draining then .drainFailed else .waitFailed }
  | .join => { s with main := .leaving, joined := true }
  | .slept => if s.main = .drainFailed then s.awaitWebsockets else { s with main := .leaving }
  -- The request is not sent under a context that is over.
  | .logout ok => { s with main := .closing, loggedOut := logout && ok && !s.expired }
  | .close => { s with main := .done, conns := s.conns.map Conn.close }

/-- The process ends with `ListenAndServe`. -/
def step (logout : Bool) (s : State) (a : Action) : Option State :=
  if s.main ≠ .done ∧ enabled s a then some (next logout s a) else none

theorem step_next {logout : Bool} {s t : State} {a : Action} (h : step logout s a = some t) :
    s.main ≠ .done ∧ enabled s a = true ∧ t = next logout s a := by
  unfold step at h
  split at h
  · next hs => exact ⟨hs.1, hs.2, (Option.some.inj h).symm⟩
  · contradiction

variable {logout : Bool} {s t : State}

/-! ## What holds on the way -/

/-- The connection is with no handler any more. -/
def Conn.Gone (c : Conn) : Prop := c = .closed ∨ c = .left

/-- The HTTP server has let go of the connection. -/
def Conn.Released (c : Conn) : Prop := c = .hijacked ∨ c.Gone

/-- How far the server's shutdown has got. -/
def MainPc.stage : MainPc → Nat
  | .serving => 0
  | .draining => 1
  | .drainFailed => 2
  | .waiting => 3
  | .waitFailed => 4
  | .leaving => 5
  | .closing => 6
  | .done => 7

structure Graceful (logout : Bool) (s : State) : Prop where
  counted : s.count = s.streams.count true
  signalled : s.main ≠ .serving → s.signalled = true ∧ s.listening = false
  hook : s.cancelling = true ∨ s.cancelled = true → s.main ≠ .serving
  waiter : s.waiter ≠ .absent ↔ 3 ≤ s.main.stage
  drained : s.drained = true → s.main ≠ .serving ∧ ∀ c ∈ s.conns, c.Released
  joined : s.joined = true → s.waiter = .closed
  calm : s.calm = true → s.waiter = .closed
  emptied : s.drained = true → s.calm = true → (∀ c ∈ s.conns, c.Gone) ∧ s.count = 0
  failed : s.main = .waitFailed → s.expired = true
  waits : 5 ≤ s.main.stage → s.joined = true ∨ s.expired = true
  loggedOut : s.loggedOut = true → logout = true ∧ s.joined = true

theorem start_graceful (logout : Bool) : Graceful logout start where
  counted := rfl
  signalled h := absurd rfl h
  hook h := by rcases h with h | h <;> cases h
  waiter := by decide
  drained h := by cases h
  joined h := by cases h
  calm h := by cases h
  emptied h := by cases h
  failed h := by cases h
  waits h := by
    change 5 ≤ 0 at h
    omega
  loggedOut h := by cases h

/-! ## One step -/

theorem closeIdle_released {c : Conn} (h : c.closeIdle.busy = false) : c.closeIdle.Released := by
  cases c with
  | fresh => cases h
  | idle => exact .inr (.inl rfl)
  | serving => cases h
  | hijacked => exact .inl rfl
  | left => exact .inr (.inr rfl)
  | closed => exact .inr (.inl rfl)

/-- A poll ends the drain just when no connection is left to the server. -/
theorem poll_next (logout : Bool) (s : State) :
    next logout s .poll = { s with conns := s.closeIdleConns } ∨
      (∀ c ∈ s.closeIdleConns, c.Released) ∧
        next logout s .poll = { s with
          conns := s.closeIdleConns, drained := true, main := .waiting, waiter := .waiting } := by
  unfold next
  dsimp only
  split
  · exact .inl rfl
  · next hbusy =>
      refine .inr ⟨fun c hc => ?_, rfl⟩
      obtain ⟨old, _, rfl⟩ := List.mem_map.mp hc
      apply closeIdle_released
      rw [List.any_eq_true, not_exists] at hbusy
      exact Bool.eq_false_iff.mpr fun h => hbusy _ ⟨hc, h⟩

theorem slept_next (logout : Bool) (s : State) :
    s.main = .drainFailed ∧ next logout s .slept = s.awaitWebsockets ∨
      s.main ≠ .drainFailed ∧ next logout s .slept = { s with main := .leaving } := by
  unfold next
  dsimp only
  split
  · next h => exact .inl ⟨h, rfl⟩
  · next h => exact .inr ⟨h, rfl⟩

theorem count_set_false {l : List Bool} {j : Nat} (h : l[j]? = some true) :
    (l.set j false).count true + 1 = l.count true := by
  obtain ⟨hj, htrue⟩ := List.getElem?_eq_some_iff.mp h
  have hpos : 0 < l.count true := List.count_pos_iff.mpr (htrue ▸ List.getElem_mem hj)
  rw [List.count_set hj, htrue]
  simp only [beq_self_eq_true, if_true, Bool.false_beq, Bool.not_true, Bool.false_eq_true, if_false]
  omega

/-- The counter counts the goroutines that run. -/
theorem next_counted {a : Action} (ha : enabled s a = true) (hs : s.count = s.streams.count true) :
    (next logout s a).count = (next logout s a).streams.count true := by
  cases a with
  | runWSFunc i =>
      have hone : ([true] : List Bool).count true = 1 := rfl
      unfold next
      dsimp only
      rw [List.count_append, hone, hs]
  | finish j =>
      have hset := count_set_false (of_decide_eq_true ha)
      unfold next
      dsimp only
      omega
  | poll => rcases poll_next logout s with h | ⟨_, h⟩ <;> (rw [h]; exact hs)
  | slept => rcases slept_next logout s with ⟨_, h⟩ | ⟨_, h⟩ <;> (rw [h]; exact hs)
  | _ => exact hs

/-- The connections change one at a time, but for a poll and the last step. -/
theorem mem_setConn {i : Nat} {c d : Conn} (h : d ∈ (s.setConn i c).conns) : d ∈ s.conns ∨ d = c :=
  List.mem_or_eq_of_mem_set h

theorem closeIdle_of_released {c : Conn} (h : c.Released) : c.closeIdle = c := by
  rcases h with h | h | h <;> rw [h] <;> rfl

theorem close_released (c : Conn) : c.close.Released := by
  cases c with
  | hijacked => exact .inl rfl
  | left => exact .inr (.inr rfl)
  | _ => exact .inr (.inl rfl)

theorem close_gone {c : Conn} (h : c.Gone) : c.close = c := by
  rcases h with h | h <;> rw [h] <;> rfl

theorem not_released_of_getElem? {i : Nat} {c : Conn} (hs : ∀ c ∈ s.conns, c.Released)
    (h : s.conns[i]? = some c) (hc : ¬ c.Released) : False :=
  hc (hs c (List.mem_of_getElem? h))

theorem next_released {a : Action} (ha : enabled s a = true) (hlisten : s.listening = false)
    (hs : ∀ c ∈ s.conns, c.Released) : ∀ c ∈ (next logout s a).conns, c.Released := by
  cases a with
  | accept => exact absurd ((of_decide_eq_true ha).symm.trans hlisten) nofun
  | age i =>
      exact (not_released_of_getElem? hs (of_decide_eq_true ha)
        (by simp [Conn.Released, Conn.Gone])).elim
  | request i =>
      rcases of_decide_eq_true ha with h | h
      · exact (not_released_of_getElem? hs h (by simp [Conn.Released, Conn.Gone])).elim
      · exact (not_released_of_getElem? hs h (by simp [Conn.Released, Conn.Gone])).elim
  | respond i =>
      exact (not_released_of_getElem? hs (of_decide_eq_true ha) (by simp [Conn.Released, Conn.Gone])).elim
  | upgrade i =>
      exact (not_released_of_getElem? hs (of_decide_eq_true ha) (by simp [Conn.Released, Conn.Gone])).elim
  | leave i =>
      intro c hc
      rcases mem_setConn hc with hold | rfl
      · exact hs c hold
      · exact .inr (.inr rfl)
  | poll =>
      have hidle : ∀ c ∈ s.closeIdleConns, c.Released := by
        intro c hc
        obtain ⟨old, hold, rfl⟩ := List.mem_map.mp hc
        rw [closeIdle_of_released (hs old hold)]
        exact hs old hold
      rcases poll_next logout s with h | ⟨_, h⟩ <;> (rw [h]; exact hidle)
  | slept => rcases slept_next logout s with ⟨_, h⟩ | ⟨_, h⟩ <;> (rw [h]; exact hs)
  | close =>
      intro c hc
      obtain ⟨old, _, rfl⟩ := List.mem_map.mp hc
      exact close_released old
  | _ => exact hs

/-- With no connection at a handler and no goroutine running, nothing starts again. -/
theorem next_emptied {a : Action} (ha : enabled s a = true) (hlisten : s.listening = false)
    (hcounted : s.count = s.streams.count true) (hs : ∀ c ∈ s.conns, c.Gone)
    (hzero : s.count = 0) :
    (∀ c ∈ (next logout s a).conns, c.Gone) ∧ (next logout s a).count = 0 := by
  have hgone : ∀ {i : Nat} {c : Conn}, s.conns[i]? = some c →
      c.busy = false ∧ c ≠ .idle ∧ c ≠ .hijacked := by
    intro i c hi
    rcases hs c (List.mem_of_getElem? hi) with h | h <;> rw [h] <;> decide
  cases a with
  | accept => exact absurd ((of_decide_eq_true ha).symm.trans hlisten) nofun
  | age i => exact absurd (hgone (of_decide_eq_true ha)) (by decide)
  | request i =>
      rcases of_decide_eq_true ha with h | h
      · exact absurd (hgone h) (by decide)
      · exact absurd (hgone h) (by decide)
  | respond i => exact absurd (hgone (of_decide_eq_true ha)) (by decide)
  | upgrade i => exact absurd (hgone (of_decide_eq_true ha)) (by decide)
  | runWSFunc i => exact absurd (hgone (of_decide_eq_true ha)) (by decide)
  | leave i => exact absurd (hgone (of_decide_eq_true ha)) (by decide)
  | finish j =>
      have hset := count_set_false (of_decide_eq_true ha)
      omega
  | poll =>
      have hidle : ∀ c ∈ s.closeIdleConns, c.Gone := by
        intro c hc
        obtain ⟨old, hold, rfl⟩ := List.mem_map.mp hc
        rw [closeIdle_of_released (.inr (hs old hold))]
        exact hs old hold
      rcases poll_next logout s with h | ⟨_, h⟩ <;> (rw [h]; exact ⟨hidle, hzero⟩)
  | slept => rcases slept_next logout s with ⟨_, h⟩ | ⟨_, h⟩ <;> (rw [h]; exact ⟨hs, hzero⟩)
  | close =>
      refine ⟨fun c hc => ?_, hzero⟩
      obtain ⟨old, hold, rfl⟩ := List.mem_map.mp hc
      rw [close_gone (hs old hold)]
      exact hs old hold
  | _ => exact ⟨hs, hzero⟩

theorem next_signalled {a : Action} (ha : enabled s a = true)
    (hs : s.main ≠ .serving → s.signalled = true ∧ s.listening = false) :
    (next logout s a).main ≠ .serving →
      (next logout s a).signalled = true ∧ (next logout s a).listening = false := by
  cases a with
  | signal => exact fun h => ⟨rfl, (hs h).2⟩
  | shutdown =>
      have hstart : s.main = .serving ∧ s.signalled = true := of_decide_eq_true ha
      exact fun _ => ⟨hstart.2, rfl⟩
  | poll =>
      have hm : s.main = .draining := of_decide_eq_true ha
      rcases poll_next logout s with h | ⟨_, h⟩ <;> (rw [h]; exact fun _ => hs (by simp [hm]))
  | timeout =>
      have hm : (s.main = .draining ∨ s.main = .waiting) ∧ s.expired = true := of_decide_eq_true ha
      exact fun _ => hs (by rcases hm.1 with hm | hm <;> simp [hm])
  | join =>
      have hm : s.main = .waiting ∧ s.waiter = .closed := of_decide_eq_true ha
      exact fun _ => hs (by simp [hm.1])
  | slept =>
      have hm : s.main = .drainFailed ∨ s.main = .waitFailed := of_decide_eq_true ha
      have hne : s.main ≠ .serving := by rcases hm with hm | hm <;> simp [hm]
      rcases slept_next logout s with ⟨_, h⟩ | ⟨_, h⟩ <;> (rw [h]; exact fun _ => hs hne)
  | logout ok =>
      have hm : s.main = .leaving := of_decide_eq_true ha
      exact fun _ => hs (by simp [hm])
  | close =>
      have hm : s.main = .closing := of_decide_eq_true ha
      exact fun _ => hs (by simp [hm])
  | _ => exact hs

/-- `main` only moves on. -/
theorem next_stage (logout : Bool) {a : Action} (ha : enabled s a = true) :
    s.main.stage ≤ (next logout s a).main.stage := by
  cases a with
  | shutdown =>
      have hm : s.main = .serving ∧ s.signalled = true := of_decide_eq_true ha
      rw [hm.1]
      exact Nat.zero_le _
  | poll =>
      have hm : s.main = .draining := of_decide_eq_true ha
      rcases poll_next logout s with h | ⟨_, h⟩
      · rw [h]
      · rw [h, hm]
        exact (by decide : MainPc.draining.stage ≤ MainPc.waiting.stage)
  | timeout =>
      have hm : (s.main = .draining ∨ s.main = .waiting) ∧ s.expired = true := of_decide_eq_true ha
      rcases hm.1 with hm | hm <;> simp [next, hm, MainPc.stage]
  | join =>
      have hm : s.main = .waiting ∧ s.waiter = .closed := of_decide_eq_true ha
      rw [hm.1]
      exact (by decide : MainPc.waiting.stage ≤ MainPc.leaving.stage)
  | slept =>
      have hm : s.main = .drainFailed ∨ s.main = .waitFailed := of_decide_eq_true ha
      rcases hm with hm | hm <;> simp [next, hm, MainPc.stage, State.awaitWebsockets]
  | logout ok =>
      have hm : s.main = .leaving := of_decide_eq_true ha
      rw [hm]
      exact (by decide : MainPc.leaving.stage ≤ MainPc.closing.stage)
  | close =>
      have hm : s.main = .closing := of_decide_eq_true ha
      rw [hm]
      exact (by decide : MainPc.closing.stage ≤ MainPc.done.stage)
  | _ => exact Nat.le_refl _

theorem stage_serving (m : MainPc) : m ≠ .serving ↔ 1 ≤ m.stage := by
  cases m <;> decide

theorem next_hook {a : Action} (ha : enabled s a = true)
    (hs : s.cancelling = true ∨ s.cancelled = true → s.main ≠ .serving) :
    (next logout s a).cancelling = true ∨ (next logout s a).cancelled = true →
      (next logout s a).main ≠ .serving := by
  have hstage := next_stage logout ha
  rw [stage_serving] at hs ⊢
  have hkeep : (s.cancelling = true ∨ s.cancelled = true) → 1 ≤ (next logout s a).main.stage :=
    fun h => Nat.le_trans (hs h) hstage
  cases a with
  | hook => exact fun _ => hkeep (.inl (of_decide_eq_true ha))
  | shutdown => exact fun _ => Nat.le_refl 1
  | poll =>
      rcases poll_next logout s with h | ⟨_, h⟩ <;> (rw [h] at hkeep ⊢; exact hkeep)
  | slept => rcases slept_next logout s with ⟨_, h⟩ | ⟨_, h⟩ <;> (rw [h] at hkeep ⊢; exact hkeep)
  | _ => exact hkeep

theorem next_waiter {a : Action} (ha : enabled s a = true)
    (hs : s.waiter ≠ .absent ↔ 3 ≤ s.main.stage) :
    (next logout s a).waiter ≠ .absent ↔ 3 ≤ (next logout s a).main.stage := by
  cases a with
  | waited =>
      have hw : s.waiter = .waiting ∧ s.count = 0 := of_decide_eq_true ha
      have hstage := hs.mp (by simp [hw.1])
      exact ⟨fun _ => hstage, fun _ => nofun⟩
  | shutdown =>
      have hm : s.main = .serving ∧ s.signalled = true := of_decide_eq_true ha
      rw [hm.1] at hs
      simpa [next, MainPc.stage] using hs
  | poll =>
      have hm : s.main = .draining := of_decide_eq_true ha
      rcases poll_next logout s with h | ⟨_, h⟩
      · rw [h]
        exact hs
      · rw [h]
        exact ⟨fun _ => Nat.le_refl 3, fun _ => nofun⟩
  | timeout =>
      have hm : (s.main = .draining ∨ s.main = .waiting) ∧ s.expired = true := of_decide_eq_true ha
      rcases hm.1 with hm | hm
      · rw [hm] at hs
        simpa [next, hm, MainPc.stage] using hs
      · rw [hm] at hs
        simpa [next, hm, MainPc.stage] using hs
  | join =>
      have hm : s.main = .waiting ∧ s.waiter = .closed := of_decide_eq_true ha
      simp [next, hm.2, MainPc.stage]
  | slept =>
      have hm : s.main = .drainFailed ∨ s.main = .waitFailed := of_decide_eq_true ha
      rcases hm with hm | hm
      · simp [next, hm, MainPc.stage, State.awaitWebsockets]
      · rw [hm] at hs
        simpa [next, hm, MainPc.stage] using hs
  | logout ok =>
      have hm : s.main = .leaving := of_decide_eq_true ha
      rw [hm] at hs
      simpa [next, MainPc.stage] using hs
  | close =>
      have hm : s.main = .closing := of_decide_eq_true ha
      rw [hm] at hs
      simpa [next, MainPc.stage] using hs
  | _ => exact hs

/-- The goroutine that waits is started once. -/
theorem next_waited (logout : Bool) {a : Action} (ha : enabled s a = true)
    (hwaiter : s.waiter ≠ .absent ↔ 3 ≤ s.main.stage) (hclosed : s.waiter = .closed) :
    (next logout s a).waiter = .closed := by
  have hstage := hwaiter.mp (by rw [hclosed]; nofun)
  cases a with
  | waited => rfl
  | poll =>
      have hm : s.main = .draining := of_decide_eq_true ha
      rw [hm] at hstage
      exact absurd hstage (by decide)
  | slept =>
      rcases slept_next logout s with ⟨hfailed, _⟩ | ⟨_, h⟩
      · rw [hfailed] at hstage
        exact absurd hstage (by decide)
      · rw [h]
        exact hclosed
  | _ => exact hclosed

theorem next_joined {a : Action} (ha : enabled s a = true)
    (hwaiter : s.waiter ≠ .absent ↔ 3 ≤ s.main.stage) (hs : s.joined = true → s.waiter = .closed) :
    (next logout s a).joined = true → (next logout s a).waiter = .closed := by
  have hclosed := next_waited logout ha hwaiter
  cases a with
  | join =>
      have hm : s.main = .waiting ∧ s.waiter = .closed := of_decide_eq_true ha
      exact fun _ => hm.2
  | poll =>
      rcases poll_next logout s with h | ⟨_, h⟩ <;>
        (rw [h] at hclosed ⊢; exact fun hj => hclosed (hs hj))
  | slept =>
      rcases slept_next logout s with ⟨_, h⟩ | ⟨_, h⟩ <;>
        (rw [h] at hclosed ⊢; exact fun hj => hclosed (hs hj))
  | _ => exact fun hj => hclosed (hs hj)

theorem next_calm {a : Action} (ha : enabled s a = true)
    (hwaiter : s.waiter ≠ .absent ↔ 3 ≤ s.main.stage) (hs : s.calm = true → s.waiter = .closed) :
    (next logout s a).calm = true → (next logout s a).waiter = .closed := by
  have hclosed := next_waited logout ha hwaiter
  cases a with
  | waited => exact fun _ => rfl
  | poll =>
      rcases poll_next logout s with h | ⟨_, h⟩ <;>
        (rw [h] at hclosed ⊢; exact fun hc => hclosed (hs hc))
  | slept =>
      rcases slept_next logout s with ⟨_, h⟩ | ⟨_, h⟩ <;>
        (rw [h] at hclosed ⊢; exact fun hc => hclosed (hs hc))
  | _ => exact fun hc => hclosed (hs hc)

theorem next_waits {a : Action} (ha : enabled s a = true)
    (hs : 5 ≤ s.main.stage → s.joined = true ∨ s.expired = true)
    (hfailed : s.main = .waitFailed → s.expired = true) :
    5 ≤ (next logout s a).main.stage →
      (next logout s a).joined = true ∨ (next logout s a).expired = true := by
  cases a with
  | deadline => exact fun _ => .inr rfl
  | shutdown => exact fun h => absurd h (by decide : ¬ 5 ≤ MainPc.draining.stage)
  | poll =>
      have hm : s.main = .draining := of_decide_eq_true ha
      rcases poll_next logout s with h | ⟨_, h⟩
      · rw [h, hm]
        exact fun h => absurd h (by decide : ¬ 5 ≤ MainPc.draining.stage)
      · rw [h]
        exact fun h => absurd h (by decide : ¬ 5 ≤ MainPc.waiting.stage)
  | timeout =>
      have hm : (s.main = .draining ∨ s.main = .waiting) ∧ s.expired = true := of_decide_eq_true ha
      exact fun _ => .inr hm.2
  | join => exact fun _ => .inl rfl
  | slept =>
      have hm : s.main = .drainFailed ∨ s.main = .waitFailed := of_decide_eq_true ha
      rcases slept_next logout s with ⟨_, h⟩ | ⟨hne, h⟩
      · rw [h]
        exact fun h => absurd h (by decide : ¬ 5 ≤ MainPc.waiting.stage)
      · rw [h]
        exact fun _ => .inr (hfailed (hm.resolve_left hne))
  | logout ok =>
      have hm : s.main = .leaving := of_decide_eq_true ha
      exact fun _ => hs (by rw [hm]; decide)
  | close =>
      have hm : s.main = .closing := of_decide_eq_true ha
      exact fun _ => hs (by rw [hm]; decide)
  | _ => exact hs

/-- A wait fails only at the deadline. -/
theorem next_failed {a : Action} (ha : enabled s a = true)
    (hs : s.main = .waitFailed → s.expired = true) :
    (next logout s a).main = .waitFailed → (next logout s a).expired = true := by
  cases a with
  | timeout =>
      have hm : (s.main = .draining ∨ s.main = .waiting) ∧ s.expired = true := of_decide_eq_true ha
      exact fun _ => hm.2
  | deadline => exact fun _ => rfl
  | poll =>
      have hm : s.main = .draining := of_decide_eq_true ha
      rcases poll_next logout s with h | ⟨_, h⟩
      · rw [h, hm]
        nofun
      · rw [h]
        nofun
  | slept => rcases slept_next logout s with ⟨_, h⟩ | ⟨_, h⟩ <;> (rw [h]; nofun)
  | shutdown => nofun
  | join => nofun
  | logout ok => nofun
  | close => nofun
  | _ => exact hs

theorem next_loggedOut {a : Action} (ha : enabled s a = true)
    (hwaits : 5 ≤ s.main.stage → s.joined = true ∨ s.expired = true)
    (hs : s.loggedOut = true → logout = true ∧ s.joined = true) :
    (next logout s a).loggedOut = true → logout = true ∧ (next logout s a).joined = true := by
  cases a with
  | join => exact fun h => ⟨(hs h).1, rfl⟩
  | logout ok =>
      have hm : s.main = .leaving := of_decide_eq_true ha
      intro h
      obtain ⟨⟨hflag, _⟩, hexpired⟩ : (logout = true ∧ ok = true) ∧ s.expired = false := by
        simpa [next] using h
      have hover := hwaits (by rw [hm]; decide)
      exact ⟨hflag, hover.resolve_right (by simp [hexpired])⟩
  | poll => rcases poll_next logout s with h | ⟨_, h⟩ <;> (rw [h]; exact hs)
  | slept => rcases slept_next logout s with ⟨_, h⟩ | ⟨_, h⟩ <;> (rw [h]; exact hs)
  | _ => exact hs

/-- A drained server has no connection of its own, now and from then on. -/
theorem next_drained {a : Action} (ha : enabled s a = true)
    (hsignalled : s.main ≠ .serving → s.signalled = true ∧ s.listening = false)
    (hs : s.drained = true → s.main ≠ .serving ∧ ∀ c ∈ s.conns, c.Released) :
    (next logout s a).drained = true →
      (next logout s a).main ≠ .serving ∧ ∀ c ∈ (next logout s a).conns, c.Released := by
  have hkeep : s.drained = true →
      (next logout s a).main ≠ .serving ∧ ∀ c ∈ (next logout s a).conns, c.Released := by
    intro hd
    obtain ⟨hmain, hconns⟩ := hs hd
    have hstage := next_stage logout ha
    exact ⟨(stage_serving _).mpr (Nat.le_trans ((stage_serving _).mp hmain) hstage),
      next_released ha (hsignalled hmain).2 hconns⟩
  cases a with
  | poll =>
      rcases poll_next logout s with h | ⟨hreleased, h⟩
      · rw [h] at hkeep ⊢
        exact hkeep
      · rw [h]
        exact fun _ => ⟨nofun, hreleased⟩
  | slept => rcases slept_next logout s with ⟨_, h⟩ | ⟨_, h⟩ <;> (rw [h] at hkeep ⊢; exact hkeep)
  | _ => exact hkeep

/-- The drain and the wait for the goroutines end for good. -/
theorem next_keeps (logout : Bool) {a : Action} (ha : enabled s a = true)
    (hcalm : s.calm = true → s.waiter = .closed) :
    (s.drained = true → (next logout s a).drained = true) ∧
      (s.calm = true → (next logout s a).calm = true) := by
  cases a with
  | waited =>
      have hw : s.waiter = .waiting ∧ s.count = 0 := of_decide_eq_true ha
      exact ⟨id, fun h => absurd (hw.1.symm.trans (hcalm h)) nofun⟩
  | poll =>
      rcases poll_next logout s with h | ⟨_, h⟩
      · rw [h]
        exact ⟨id, id⟩
      · rw [h]
        exact ⟨fun _ => rfl, id⟩
  | slept => rcases slept_next logout s with ⟨_, h⟩ | ⟨_, h⟩ <;> (rw [h]; exact ⟨id, id⟩)
  | _ => exact ⟨id, id⟩

/-- Once drained and with the wait over, nothing runs any more if no handler had a connection. -/
theorem Graceful.next_emptied {a : Action} (hs : Graceful logout s) (ha : enabled s a = true) :
    (next logout s a).drained = true → (next logout s a).calm = true →
      (∀ c ∈ (next logout s a).conns, c.Gone) ∧ (next logout s a).count = 0 := by
  have hkeep : s.drained = true → s.calm = true →
      (∀ c ∈ (next logout s a).conns, c.Gone) ∧ (next logout s a).count = 0 := by
    intro hd hc
    obtain ⟨hclosed, hzero⟩ := hs.emptied hd hc
    have hlisten := (hs.signalled (hs.drained hd).1).2
    exact Shutdown.next_emptied ha hlisten hs.counted hclosed hzero
  cases a with
  | waited =>
      have hw : s.waiter = .waiting ∧ s.count = 0 := of_decide_eq_true ha
      intro hd hc
      have hfree : .hijacked ∉ s.conns := by simpa [next] using hc
      refine ⟨fun c hmem => ?_, hw.2⟩
      exact ((hs.drained hd).2 c hmem).resolve_left fun h => hfree (h ▸ hmem)
  | poll =>
      -- The wait has not begun.
      have hm : s.main = .draining := of_decide_eq_true ha
      have hearly : s.calm ≠ true := by
        intro hc
        have hstage := hs.waiter.mp (by rw [hs.calm hc]; nofun)
        rw [hm] at hstage
        exact absurd hstage (by decide)
      rcases poll_next logout s with h | ⟨_, h⟩
      · rw [h]
        exact fun _ hc => absurd hc hearly
      · rw [h]
        exact fun _ hc => absurd hc hearly
  | slept => rcases slept_next logout s with ⟨_, h⟩ | ⟨_, h⟩ <;> (rw [h] at hkeep ⊢; exact hkeep)
  | _ => exact hkeep

theorem step_graceful {a : Action} (hs : Graceful logout s) (h : step logout s a = some t) :
    Graceful logout t := by
  obtain ⟨_, ha, rfl⟩ := step_next h
  exact {
    counted := next_counted ha hs.counted
    signalled := next_signalled ha hs.signalled
    hook := next_hook ha hs.hook
    waiter := next_waiter ha hs.waiter
    drained := next_drained ha hs.signalled hs.drained
    joined := next_joined ha hs.waiter hs.joined
    calm := next_calm ha hs.waiter hs.calm
    emptied := hs.next_emptied ha
    failed := next_failed ha hs.failed
    waits := next_waits ha hs.waits hs.failed
    loggedOut := next_loggedOut ha hs.waits hs.loggedOut }

/-! ## Over every run -/

theorem reaches_graceful (h : Reaches (step logout) s t) (hs : Graceful logout s) :
    Graceful logout t :=
  Reaches.invariant step_graceful h hs

/-- A server that has drained, with no handler left when its goroutines were done,
has nothing running any more. -/
theorem reaches_quiet (h : Reaches (step logout) s t) (hs : Graceful logout s)
    (hdrained : s.drained = true) (hcalm : s.calm = true) :
    (∀ c ∈ t.conns, c.Gone) ∧ t.count = 0 := by
  let Quiet := fun s => Graceful logout s ∧ s.drained = true ∧ s.calm = true
  have hstep : ∀ {s a t}, Quiet s → step logout s a = some t → Quiet t := by
    intro s a t hs hl
    refine ⟨step_graceful hs.1 hl, ?_⟩
    obtain ⟨_, ha, rfl⟩ := step_next hl
    have hkeeps := next_keeps logout ha hs.1.calm
    exact ⟨hkeeps.1 hs.2.1, hkeeps.2 hs.2.2⟩
  have hquiet : Quiet t := Reaches.invariant hstep h ⟨hs, hdrained, hcalm⟩
  exact hquiet.1.emptied hquiet.2.1 hquiet.2.2

/-- What the server takes for drained really is: in every run each goroutine is
counted, none is cancelled before a signal, once the server is drained and the
goroutines were done with no handler left nothing runs again, and the node logs
out only if it should and after the goroutines were done. -/
theorem shutdown_graceful {logout : Bool} {s t : State} (h : Reaches (step logout) start s)
    (ht : Reaches (step logout) s t) :
    s.count = s.streams.count true ∧
      (s.cancelled = true → s.signalled = true) ∧
      (s.drained = true → s.calm = true → (∀ c ∈ t.conns, c.Gone) ∧ true ∉ t.streams) ∧
      (s.main = .done → s.joined = true ∨ s.expired = true) ∧
      (s.loggedOut = true → logout = true ∧ s.joined = true) := by
  have hs := reaches_graceful h (start_graceful logout)
  refine ⟨hs.counted, fun hc => (hs.signalled (hs.hook (.inr hc))).1, ?_, ?_, hs.loggedOut⟩
  · intro hdrained hcalm
    obtain ⟨hclosed, hzero⟩ := reaches_quiet ht hs hdrained hcalm
    have hcounted := (reaches_graceful ht hs).counted
    exact ⟨hclosed, List.count_eq_zero.mp (hcounted.symm.trans hzero)⟩
  · exact fun hm => hs.waits (by rw [hm]; decide)

/-- A stream that ends after the signal is waited for. -/
def streamWaited : List Action :=
  [.accept, .request 0, .upgrade 0, .runWSFunc 0, .leave 0, .signal, .shutdown, .hook, .poll,
    .finish 0, .waited, .join, .logout true, .close]

theorem shutdown_graceful_waited : ∃ s : State,
    (s.count = s.streams.count true ∧
      (s.cancelled = true → s.signalled = true) ∧
      (s.drained = true → s.calm = true → (∀ c ∈ s.conns, c.Gone) ∧ true ∉ s.streams) ∧
      (s.main = .done → s.joined = true ∨ s.expired = true) ∧
      (s.loggedOut = true → true = true ∧ s.joined = true)) ∧
      s.streams = [false] ∧ s.loggedOut = true ∧ s.main = .done :=
  have hrun : execute (step true) start streamWaited = some _ := rfl
  ⟨_, shutdown_graceful (execute_reaches hrun) (Reaches.refl _), by decide⟩

/-! ## To the end -/

/-- The steps that need no client and no stream: the signal, the deadline, and those
of the server's own that bring it on. -/
def Action.own : Action → Bool
  | .signal | .deadline | .shutdown | .timeout | .join | .slept | .logout _ | .close => true
  | _ => false

def State.remaining (s : State) : Nat :=
  (!s.signalled).toNat + (!s.expired).toNat + (7 - s.main.stage)

theorem stage_le (m : MainPc) : m.stage ≤ 7 := by
  cases m <;> decide

theorem toNat_not_le {b c : Bool} (h : b = true → c = true) : (!c).toNat ≤ (!b).toNat := by
  cases b with
  | false => cases c <;> decide
  | true => rw [h rfl]

theorem next_flags (logout : Bool) (s : State) (a : Action) :
    (s.signalled = true → (next logout s a).signalled = true) ∧
      (s.expired = true → (next logout s a).expired = true) := by
  cases a with
  | signal => exact ⟨fun _ => rfl, id⟩
  | deadline => exact ⟨id, fun _ => rfl⟩
  | poll => rcases poll_next logout s with h | ⟨_, h⟩ <;> (rw [h]; exact ⟨id, id⟩)
  | slept => rcases slept_next logout s with ⟨_, h⟩ | ⟨_, h⟩ <;> (rw [h]; exact ⟨id, id⟩)
  | _ => exact ⟨id, id⟩

/-- No step undoes what the server has done on its way. -/
theorem step_remaining {a : Action} (h : step logout s a = some t) : t.remaining ≤ s.remaining := by
  obtain ⟨_, ha, rfl⟩ := step_next h
  have hstage := next_stage logout ha
  obtain ⟨hsignal, hexpire⟩ := next_flags logout s a
  have hsignalled := toNat_not_le hsignal
  have hexpired := toNat_not_le hexpire
  unfold State.remaining
  omega

/-- The steps of `main` that count. -/
theorem next_stage_own (logout : Bool) {a : Action} (ha : enabled s a = true) (hown : a.own = true) :
    a = .signal ∨ a = .deadline ∨ s.main.stage < (next logout s a).main.stage := by
  cases a with
  | signal => exact .inl rfl
  | deadline => exact .inr (.inl rfl)
  | shutdown =>
      have hm : s.main = .serving ∧ s.signalled = true := of_decide_eq_true ha
      rw [hm.1]
      exact .inr (.inr (by decide : MainPc.serving.stage < MainPc.draining.stage))
  | timeout =>
      have hm : (s.main = .draining ∨ s.main = .waiting) ∧ s.expired = true := of_decide_eq_true ha
      rcases hm.1 with hm | hm <;> simp [next, hm, MainPc.stage]
  | join =>
      have hm : s.main = .waiting ∧ s.waiter = .closed := of_decide_eq_true ha
      rw [hm.1]
      exact .inr (.inr (by decide : MainPc.waiting.stage < MainPc.leaving.stage))
  | slept =>
      have hm : s.main = .drainFailed ∨ s.main = .waitFailed := of_decide_eq_true ha
      rcases hm with hm | hm <;> simp [next, hm, MainPc.stage, State.awaitWebsockets]
  | logout ok =>
      have hm : s.main = .leaving := of_decide_eq_true ha
      rw [hm]
      exact .inr (.inr (by decide : MainPc.leaving.stage < MainPc.closing.stage))
  | close =>
      have hm : s.main = .closing := of_decide_eq_true ha
      rw [hm]
      exact .inr (.inr (by decide : MainPc.closing.stage < MainPc.done.stage))
  | _ => cases hown

theorem step_remaining_own {a : Action} (hown : a.own = true) (h : step logout s a = some t) :
    t.remaining < s.remaining := by
  have hkeep := step_remaining h
  obtain ⟨_, ha, rfl⟩ := step_next h
  obtain ⟨hsignal, hexpire⟩ := next_flags logout s a
  have hsignalled := toNat_not_le hsignal
  have hexpired := toNat_not_le hexpire
  have hle := stage_le (next logout s a).main
  rcases next_stage_own logout ha hown with rfl | rfl | hlt
  · have hclear : s.signalled = false := of_decide_eq_true ha
    simp only [State.remaining, next, hclear, Bool.not_false, Bool.not_true, Bool.toNat_true,
      Bool.toNat_false]
    omega
  · have hclear : s.main ≠ .serving ∧ s.expired = false := of_decide_eq_true ha
    simp only [State.remaining, next, hclear.2, Bool.not_false, Bool.not_true, Bool.toNat_true,
      Bool.toNat_false]
    omega
  · unfold State.remaining
    omega

/-- The server never waits for a client or a stream alone. -/
theorem exists_own (h : s.main ≠ .done) : ∃ a : Action, a.own = true ∧ enabled s a = true := by
  have htimed : s.main = .draining ∨ s.main = .waiting →
      ∃ a : Action, a.own = true ∧ enabled s a = true := by
    intro hm
    cases hexpired : s.expired with
    | true => exact ⟨.timeout, rfl, decide_eq_true ⟨hm, hexpired⟩⟩
    | false =>
        refine ⟨.deadline, rfl, decide_eq_true ⟨?_, hexpired⟩⟩
        rcases hm with hm | hm <;> (rw [hm]; nofun)
  cases hm : s.main with
  | serving =>
      cases hsignalled : s.signalled with
      | true => exact ⟨.shutdown, rfl, decide_eq_true ⟨hm, hsignalled⟩⟩
      | false => exact ⟨.signal, rfl, decide_eq_true hsignalled⟩
  | draining => exact htimed (.inl hm)
  | drainFailed => exact ⟨.slept, rfl, decide_eq_true (.inl hm)⟩
  | waiting => exact htimed (.inr hm)
  | waitFailed => exact ⟨.slept, rfl, decide_eq_true (.inr hm)⟩
  | leaving => exact ⟨.logout true, rfl, decide_eq_true hm⟩
  | closing => exact ⟨.close, rfl, decide_eq_true hm⟩
  | done => exact absurd hm h

/-- Whatever its clients and streams do, the server is through after at most nine
steps of its own, and until then one of them is possible. -/
theorem shutdown_completes {logout : Bool} {as : List Action} {s : State}
    (h : execute (step logout) start as = some s) :
    as.countP Action.own ≤ 9 ∧
      (s.main ≠ .done → ∃ a, a.own = true ∧ (step logout s a).isSome = true) := by
  have hbound := execute_countP_le Action.own State.remaining step_remaining step_remaining_own h
  constructor
  · have hstart : start.remaining = 9 := rfl
    omega
  · intro hm
    obtain ⟨a, hown, ha⟩ := exists_own hm
    refine ⟨a, hown, ?_⟩
    unfold step
    rw [if_pos ⟨hm, ha⟩]
    rfl

/-- A handler holds its connection over both waits. -/
def handlerHangs : List Action :=
  [.accept, .request 0, .upgrade 0, .signal, .shutdown, .hook, .poll, .waited, .deadline, .timeout,
    .slept, .logout true, .runWSFunc 0]

theorem shutdown_completes_hangs : ∃ s : State,
    (handlerHangs.countP Action.own ≤ 9 ∧
      (s.main ≠ .done → ∃ a, a.own = true ∧ (step true s a).isSome = true)) ∧
      s.streams = [true] ∧ s.main = .closing :=
  ⟨_, shutdown_completes rfl, by decide⟩

end TSymbiote.Shared.Shutdown
