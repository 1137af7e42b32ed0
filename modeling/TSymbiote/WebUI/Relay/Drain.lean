import TSymbiote.WebUI.Relay.Load

/-! # What the writer leaves behind

Nothing guards the sends of the other goroutines, so a goroutine at a send on a
full channel stays there once the writer has returned: its connection is never
closed and the manager's wait group never reaches zero. `Drains` bounds the
loads by the capacity from the writer's return on, and is exactly what keeps
every goroutine from being left behind.
-/

namespace TSymbiote.WebUI.Relay

open Shared Transition

variable {ts : Targets} {s t : State ts}

def WriterDone (s : State ts) : Prop := ∃ e, s.writer = .done e

def PutBlocked (s : State ts) : Prop :=
  s.msg.Full ∧ ((∃ r ∈ s.readers, r.putting) ∨ ∃ p, s.client = .sending p)

def ReportBlocked (s : State ts) : Prop :=
  s.dead.Full ∧ ((∃ r ∈ s.readers, r.reporting) ∨ ∃ p ∈ s.pings, p.reporting)

/-- The writer has returned and some goroutine is at a send on a full channel. -/
def Leaked (s : State ts) : Prop := WriterDone s ∧ (PutBlocked s ∨ ReportBlocked s)

/-- The actions by which the writer returns. -/
def Leaving (s : State ts) : Action → Prop
  | .writer (.shutdown _) => True
  | .writer .clientDead => True
  | .writer (.check _) => s.living.entries.isEmpty = true
  | _ => False

/-- When the writer returns, and at every step after that, all that is queued or
about to be sent fits into the channels. -/
def Drains (s : State ts) (a : Action) : Prop :=
  WriterDone s ∨ Leaving s a →
    s.msgLoad + a.puts ≤ ts.hosts.length ∧ s.deadLoad + a.reports ≤ ts.hosts.length

/-! ## The writer's return -/

/-- A writer that has returned takes no step. -/
theorem writer_done {a : WriterAction} (h : WriterNext s a t) : ¬ WriterDone s := by
  intro hdone
  rcases hdone with ⟨e, he⟩
  cases h <;> simp_all

theorem writerDone_of_eq (h : t.writer = s.writer) : WriterDone t ↔ WriterDone s := by
  unfold WriterDone
  rw [h]

theorem writer_leaves {a : WriterAction} (h : WriterNext s a t) :
    WriterDone t ↔ Leaving s (.writer a) := by
  cases h with
  | shutdown sent hpc hstop => exact ⟨fun _ => trivial, fun _ => ⟨_, rfl⟩⟩
  | clientDead hpc hdead => exact ⟨fun _ => trivial, fun _ => ⟨_, rfl⟩⟩
  | finished sent hpc hnone => exact ⟨fun _ => hnone, fun _ => ⟨_, rfl⟩⟩
  | continued sent hpc hsome => simp [WriterDone, Leaving, hsome]
  | _ => simp [WriterDone, Leaving]

/-- The writer has returned after a step when it had before, or returns by it. -/
theorem next_done {a : Action} (h : Next s a t) : WriterDone t ↔ WriterDone s ∨ Leaving s a := by
  cases h with
  | shutdown => simp [Leaving, WriterDone]
  | reader i r a _ hr h => simp [Leaving, writerDone_of_eq (reader_writer h)]
  | client a _ h => simp [Leaving, writerDone_of_eq (client_writer h)]
  | ping j p a _ hp h => simp [Leaving, writerDone_of_eq (ping_writer h)]
  | writer a _ h =>
      rw [writer_leaves h]
      exact ⟨.inr, fun hw => hw.resolve_left (writer_done h)⟩

/-- From the writer's return on, an action adds to a load what it brings to a send. -/
theorem next_load {a : Action} (h : Next s a t) (hw : WriterDone t) :
    t.msgLoad = s.msgLoad + a.puts ∧ t.deadLoad = s.deadLoad + a.reports := by
  cases h with
  | shutdown => exact ⟨rfl, rfl⟩
  | reader i r a _ hr h => exact reader_load hr h
  | client a _ h => exact client_load h
  | ping j p a _ hp h => exact ping_load hp h
  | writer a _ h =>
      have hleaves := (writer_leaves h).mp hw
      cases h with
      | shutdown sent hpc hstop => exact closeClient_load s sent
      | clientDead hpc hdead => exact ⟨rfl, rfl⟩
      | finished sent hpc hnone => exact closeClient_load s sent
      | continued sent hpc hsome => simp [Leaving, hsome] at hleaves
      | _ => exact absurd hleaves id

/-! ## Loads over the capacity end in a blocked goroutine -/

/-- Nothing queued or about to be sent is in excess of the channels. -/
def Within (s : State ts) : Prop :=
  s.msgLoad ≤ ts.hosts.length ∧ s.deadLoad ≤ ts.hosts.length

theorem putBlocked_iff (s : State ts) :
    PutBlocked s ↔ s.msg.Full ∧ s.msg.length < s.msgLoad := by
  unfold PutBlocked State.msgLoad
  refine and_congr_right fun _ => ?_
  have hreaders : (∃ r ∈ s.readers, r.putting) ↔ 0 < s.readers.countP Reader.putting :=
    List.countP_pos_iff.symm
  have hclient : (∃ p, s.client = .sending p) ↔ 0 < s.client.putting := by
    cases s.client <;> simp [ClientPc.putting]
  rw [hreaders, hclient]
  omega

theorem reportBlocked_iff (s : State ts) :
    ReportBlocked s ↔ s.dead.Full ∧ s.dead.length < s.deadLoad := by
  unfold ReportBlocked State.deadLoad
  refine and_congr_right fun _ => ?_
  have hreaders : (∃ r ∈ s.readers, r.reporting) ↔ 0 < s.readers.countP Reader.reporting :=
    List.countP_pos_iff.symm
  have hpings : (∃ p ∈ s.pings, p.reporting) ↔ 0 < s.pings.countP Ping.reporting :=
    List.countP_pos_iff.symm
  rw [hreaders, hpings]
  omega

theorem within_not_leaked (h : WriterDone s → Within s) : ¬ Leaked s := by
  intro hleaked
  rcases hleaked with ⟨hw, hblocked⟩
  have hle := h hw
  rw [putBlocked_iff, reportBlocked_iff] at hblocked
  unfold Within Chan.Full at *
  omega

/-- With the writer gone, a load over the capacity fills `msg` and blocks. -/
theorem putBlocked_of_load (hw : WriterDone s) (hload : ts.hosts.length < s.msgLoad) :
    ∃ t, Reaches step s t ∧ Leaked t := by
  obtain ⟨t, ht, ⟨hsame, hwriter⟩, hfull⟩ := reaches_msg_full (Nat.le_of_lt hload)
  have hle := t.msg.length_le
  exact ⟨t, ht, (writerDone_of_eq hwriter).mpr hw,
    .inl ((putBlocked_iff t).mpr ⟨hfull, by omega⟩)⟩

theorem reportBlocked_of_load (hw : WriterDone s) (hload : ts.hosts.length < s.deadLoad) :
    ∃ t, Reaches step s t ∧ Leaked t := by
  obtain ⟨t, ht, ⟨hsame, hwriter⟩, hfull⟩ := reaches_dead_full (Nat.le_of_lt hload)
  have hle := t.dead.length_le
  exact ⟨t, ht, (writerDone_of_eq hwriter).mpr hw,
    .inr ((reportBlocked_iff t).mpr ⟨hfull, by omega⟩)⟩

/-- `Drains` is exactly what keeps every other goroutine of the session from
being left at a send when the writer is gone. -/
theorem leaked_guards (ts : Targets) : Guards step Drains Leaked (start ts) := by
  refine Guards.of_invariant (P := fun s => WriterDone s → Within s) ?_ ?_ within_not_leaked ?_
  · intro hdone
    rcases hdone with ⟨e, he⟩
    cases he
  · intro s a t _ hdrains h hw
    have hnext := step_next h
    have hbound := hdrains ((next_done hnext).mp hw)
    have hload := next_load hnext hw
    unfold Within
    omega
  · intro s a t _ h hnot
    unfold Drains at hnot
    rw [Classical.not_imp] at hnot
    rcases hnot with ⟨hw, hover⟩
    have hnext := step_next h
    have htw := (next_done hnext).mpr hw
    have hload := next_load hnext htw
    by_cases hmsg : ts.hosts.length < t.msgLoad
    · exact putBlocked_of_load htw hmsg
    · exact reportBlocked_of_load htw (by omega)

/-! ## Left behind for good -/

theorem done_length {a : Action} (h : Next s a t) (hw : WriterDone s) :
    s.msg.length ≤ t.msg.length ∧ s.dead.length ≤ t.dead.length := by
  cases h with
  | shutdown => exact ⟨Nat.le_refl _, Nat.le_refl _⟩
  | reader i r a _ hr h =>
      cases h with
      | sent p msg hpc hmsg =>
          have hlen := Chan.send_length hmsg
          exact ⟨by dsimp only; omega, Nat.le_refl _⟩
      | reported dead hpc hdead =>
          have hlen := Chan.send_length hdead
          exact ⟨Nat.le_refl _, by dsimp only; omega⟩
      | _ => exact ⟨Nat.le_refl _, Nat.le_refl _⟩
  | client a _ h =>
      cases h with
      | sent p msg hpc hmsg =>
          have hlen := Chan.send_length hmsg
          exact ⟨by dsimp only; omega, Nat.le_refl _⟩
      | _ => exact ⟨Nat.le_refl _, Nat.le_refl _⟩
  | ping j p a _ hp h =>
      cases h with
      | reported dead hpc hdead =>
          have hlen := Chan.send_length hdead
          exact ⟨Nat.le_refl _, by dsimp only; omega⟩
      | _ => exact ⟨Nat.le_refl _, Nat.le_refl _⟩
  | writer a _ h => exact absurd hw (writer_done h)

theorem next_stays_leaked {a : Action} (h : Next s a t) (hs : Leaked s) : Leaked t := by
  rcases hs with ⟨hw, hblocked⟩
  have htw := (next_done h).mpr (.inl hw)
  have hload := next_load h htw
  have hlen := done_length h hw
  have hmsg := t.msg.length_le
  have hdead := t.dead.length_le
  refine ⟨htw, ?_⟩
  rw [putBlocked_iff, reportBlocked_iff] at *
  unfold Chan.Full at *
  omega

theorem leaked_forever (hs : Leaked s) (h : Reaches step s t) : Leaked t :=
  Reaches.invariant (fun hi hl => next_stays_leaked (step_next hl) hi) h hs

/-! ## Every session can leak -/

/-- With any targets: one reader fills `msg` and has the next message in hand
when the client goes away. -/
theorem leaked_reachable (ts : Targets) : ∃ s, Reaches step (start ts) s ∧ Leaked s := by
  obtain ⟨target, hfirst⟩ := first_reader ts
  obtain ⟨msg, hfull, hfilled⟩ := reaches_full hfirst rfl rfl
  obtain ⟨p, hp⟩ := reaches_sending (s := { start ts with msg }) hfirst rfl rfl
  generalize hs : State.setReader { start ts with msg } 0 ⟨target, .sending p⟩ = s at hp
  have hread : step s (.client .check) = some { s with client := .reading } := by
    subst hs
    rfl
  have hfail : step { s with client := .reading } (.client .fail) =
      some { s.closeReader with clientDead := true } := rfl
  have hdone : step { s.closeReader with clientDead := true } (.writer .clientDead) =
      some { s.closeReader with clientDead := true, writer := .done .clientDead } := by
    subst hs
    rfl
  refine ⟨_, (((hfilled.trans hp).tail hread).tail hfail).tail hdone, ⟨_, rfl⟩, .inl ⟨?_, .inl ?_⟩⟩
  · subst hs
    exact hfull
  · subst hs
    have hget := setReader_getElem? (s := { start ts with msg }) hfirst ⟨target, .sending p⟩
    exact ⟨_, List.mem_of_getElem? hget, rfl⟩

/-- The relay does leave a reader behind, with one target. -/
theorem single_target_leaks : ¬ ∀ ts s, Reaches step (start ts) s → ¬ Leaked s := by
  intro h
  obtain ⟨s, hs, hleaked⟩ := leaked_reachable ⟨["node"], by simp⟩
  exact h _ s hs hleaked

end TSymbiote.WebUI.Relay
