import TSymbiote.WebUI.Relay.Load

/-! # The writer's own notices

When an adapter dies the writer puts a notice on `msg`, whose only receiver it
is. With `msg` full by then the writer waits for itself, for good. `Room` bounds
the load of `msg` from the moment a death is taken until the notice is out, and
is exactly what rules this out. A single adapter can break it, whatever the
number of targets.
-/

namespace TSymbiote.WebUI.Relay

open Shared Transition

variable {ts : Targets} {s t : State ts}

def Noticing (s : State ts) : Prop := ∃ p, s.writer = .notice p

/-- The writer stands at its send of a notice and `msg` is full. -/
def WriterBlocked (s : State ts) : Prop := Noticing s ∧ s.msg.Full

/-- When the writer takes a death, and at every step while its notice is pending,
all that is queued on `msg` or about to be sent leaves a slot for the notice. -/
def Room (s : State ts) (a : Action) : Prop :=
  Noticing s ∨ a = .writer .dead → s.msgLoad + a.puts < ts.hosts.length

theorem noticing_of_eq (h : t.writer = s.writer) : Noticing t ↔ Noticing s := by
  unfold Noticing
  rw [h]

/-- The writer comes to a notice by taking a death, and leaves it by sending. -/
theorem writer_notices {a : WriterAction} (h : WriterNext s a t) :
    (Noticing t ↔ a = .dead) ∧ (Noticing s → a = .sendNotice) := by
  cases h with
  | buried adapter dead hpc hdead => simp [Noticing, hpc]
  | _ => simp_all [Noticing]

/-- A notice that is pending after a step was pending before, or the step took the
death it is about. -/
theorem noticing_before {a : Action} (h : Next s a t) (ht : Noticing t) :
    Noticing s ∨ a = .writer .dead := by
  cases h with
  | shutdown => exact .inl ht
  | reader i r a _ hr h => exact .inl ((noticing_of_eq (reader_writer h)).mp ht)
  | client a _ h => exact .inl ((noticing_of_eq (client_writer h)).mp ht)
  | ping j p a _ hp h => exact .inl ((noticing_of_eq (ping_writer h)).mp ht)
  | writer a _ h =>
      right
      rw [(writer_notices h).1.mp ht]

/-- While a notice is pending, an action adds to the load of `msg` what it brings
to a send. -/
theorem noticing_load {a : Action} (h : Next s a t) (ht : Noticing t) :
    t.msgLoad = s.msgLoad + a.puts := by
  cases h with
  | shutdown => rfl
  | reader i r a _ hr h => exact (reader_load hr h).1
  | client a _ h => exact (client_load h).1
  | ping j p a _ hp h => exact (ping_load hp h).1
  | writer a _ h =>
      have hdead := (writer_notices h).1.mp ht
      subst hdead
      cases h
      rfl

/-- With a slot for the notice beside the whole load, the writer is not blocked. -/
theorem room_not_blocked (h : Noticing s → s.msgLoad < ts.hosts.length) : ¬ WriterBlocked s := by
  intro hblocked
  rcases hblocked with ⟨hnotice, hfull⟩
  have hlt := h hnotice
  unfold State.msgLoad at hlt
  unfold Chan.Full at hfull
  omega

/-- A load of the capacity fills `msg` before the notice is out. -/
theorem blocked_of_load (hnotice : Noticing s) (hload : ts.hosts.length ≤ s.msgLoad) :
    ∃ t, Reaches step s t ∧ WriterBlocked t := by
  obtain ⟨t, ht, ⟨_, hwriter⟩, hfull⟩ := reaches_msg_full hload
  exact ⟨t, ht, (noticing_of_eq hwriter).mpr hnotice, hfull⟩

/-- Only its own send ends a notice. -/
theorem noticing_after {a : Action} (h : Next s a t) (hs : Noticing s ∨ a = .writer .dead)
    (hne : a ≠ .writer .sendNotice) : Noticing t := by
  cases h with
  | shutdown => exact hs.resolve_right (by simp)
  | reader i r a _ hr h => exact (noticing_of_eq (reader_writer h)).mpr (hs.resolve_right (by simp))
  | client a _ h => exact (noticing_of_eq (client_writer h)).mpr (hs.resolve_right (by simp))
  | ping j p a _ hp h => exact (noticing_of_eq (ping_writer h)).mpr (hs.resolve_right (by simp))
  | writer a _ h =>
      rcases hs with hs | hdead
      · exact absurd (congrArg Action.writer ((writer_notices h).2 hs)) hne
      · cases hdead
        exact (writer_notices h).1.mpr rfl

/-- `Room` is exactly what keeps the writer from blocking itself. -/
theorem writerBlocked_guards (ts : Targets) : Guards step Room WriterBlocked (start ts) := by
  refine Guards.of_invariant (P := fun s => Noticing s → s.msgLoad < ts.hosts.length) ?_ ?_
    room_not_blocked ?_
  · intro hnotice
    rcases hnotice with ⟨p, hp⟩
    cases hp
  · intro s a t _ hroom h ht
    have hnext := step_next h
    rw [noticing_load hnext ht]
    exact hroom (noticing_before hnext ht)
  · intro s a t hs h hnot
    unfold Room at hnot
    rw [Classical.not_imp] at hnot
    rcases hnot with ⟨hstart, hover⟩
    have hnext := step_next h
    -- the invariant leaves the slot that a send of the notice takes
    have hne : a ≠ .writer .sendNotice := by
      rintro rfl
      exact hover (hs (hstart.resolve_right (by simp)))
    have ht := noticing_after hnext hstart hne
    refine blocked_of_load ht ?_
    rw [noticing_load hnext ht]
    omega

/-! ## The block is for good -/

theorem next_stays_blocked {a : Action} (h : Next s a t) (hs : WriterBlocked s) : WriterBlocked t := by
  rcases hs with ⟨⟨p, hp⟩, hfull⟩
  cases h with
  | shutdown => exact ⟨⟨p, hp⟩, hfull⟩
  | reader i r a _ hr h =>
      cases h with
      | sent q msg hpc hmsg => exact absurd hfull (Chan.send_not_full hmsg)
      | _ => exact ⟨⟨p, hp⟩, hfull⟩
  | client a _ h =>
      cases h with
      | sent q msg hpc hmsg => exact absurd hfull (Chan.send_not_full hmsg)
      | _ => exact ⟨⟨p, hp⟩, hfull⟩
  | ping j q a _ hq h => cases h <;> exact ⟨⟨p, hp⟩, hfull⟩
  | writer a _ h =>
      cases h with
      | noticed q msg hpc hmsg => exact absurd hfull (Chan.send_not_full hmsg)
      | _ => simp_all

theorem writerBlocked_forever (hs : WriterBlocked s) (h : Reaches step s t) : WriterBlocked t :=
  Reaches.invariant (fun hi hl => next_stays_blocked (step_next hl) hi) h hs

/-! ## Every session can block -/

theorem reaches_notice {i : Nat} {r : Reader} (hr : s.readers[i]? = some r) (hpc : r.pc = .loop)
    (hrun : s.shutdown = false) (hwriter : s.writer = .selecting) (hdead : s.dead.queue = []) :
    ∃ t, Reaches step s t ∧ Noticing t ∧ t.msg = s.msg :=
  ⟨_, reaches_buried hr hpc hrun hwriter hdead, ⟨_, rfl⟩, rfl⟩

/-- With any targets: one reader fills `msg`, then its connection fails. -/
theorem writerBlocked_reachable (ts : Targets) :
    ∃ s, Reaches step (start ts) s ∧ WriterBlocked s := by
  obtain ⟨target, hfirst⟩ := first_reader ts
  obtain ⟨msg, hfull, hfilled⟩ := reaches_full hfirst rfl rfl
  obtain ⟨t, ht, hnotice, hmsg⟩ :=
    reaches_notice (s := { start ts with msg }) hfirst rfl rfl rfl rfl
  exact ⟨t, hfilled.trans ht, hnotice, hmsg ▸ hfull⟩

/-- The relay does deadlock, with one target. -/
theorem single_target_blocks : ¬ ∀ ts s, Reaches step (start ts) s → ¬ WriterBlocked s := by
  intro h
  obtain ⟨s, hs, hblocked⟩ := writerBlocked_reachable ⟨["node"], by simp⟩
  exact h _ s hs hblocked

end TSymbiote.WebUI.Relay
