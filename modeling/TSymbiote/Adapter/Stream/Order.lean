import TSymbiote.Adapter.Stream.Producer

/-! # Order through a session

The items of a source are, in this order, what has been written to the socket,
the message the writer holds, the one the producer is sending, and those it has
yet to read. A write that fails loses the message and ends the writer.
-/

namespace TSymbiote.Adapter.Stream

open Shared Transition

/-- What a producer gets to send: the items before the first failure. -/
def items : List Event → List Bytes
  | .item m :: rest => m :: items rest
  | .failure :: _ => []
  | [] => []

def WriterPc.held : WriterPc → List Bytes
  | .writing m => [m]
  | _ => []

def ProducerPc.held : ProducerPc → List Bytes
  | .sending m => [m]
  | _ => []

/-- Items under way to the socket. -/
def State.pending (s : State) : List Bytes := s.writer.held ++ s.producer.held

/-- The items of `events`, against what has become of them. -/
structure InOrder (events : List Event) (s : State) : Prop where
  written : s.written <+: items events
  whole : s.writer ≠ .done →
    ∃ rest, s.source = .finite rest ∧ s.written ++ s.pending ++ items rest = items events

variable {kind : Kind} {s t : State} {events : List Event}

theorem start_inOrder (events : List Event) : InOrder events (start (.finite events)) where
  written := List.nil_prefix
  whole _ := ⟨events, rfl, rfl⟩

/-- A step that moves no item. -/
theorem InOrder.frame (hs : InOrder events s) (hwritten : t.written = s.written)
    (hsource : t.source = s.source)
    (hpending : t.writer ≠ .done → s.writer ≠ .done ∧ t.pending = s.pending) :
    InOrder events t where
  written := by
    rw [hwritten]
    exact hs.written
  whole hw := by
    rw [hwritten, hsource, (hpending hw).2]
    exact hs.whole (hpending hw).1

theorem InOrder.reader {a : ReaderAction} (hs : InOrder events s)
    (h : websocketReader s a = some t) : InOrder events t := by
  cases reader_next h <;> exact hs.frame rfl rfl fun hw => ⟨hw, rfl⟩

theorem InOrder.writer {a : WriterAction} (hs : InOrder events s)
    (h : websocketWriter s a = some t) : InOrder events t := by
  cases writer_next h with
  | shutdown hp hsignal => exact hs.frame rfl rfl fun hw => absurd rfl hw
  | death hp hsignal => exact hs.frame rfl rfl fun hw => absurd rfl hw
  | received m hp hsending =>
      refine hs.frame rfl rfl fun _ => ⟨by simp [hp], ?_⟩
      unfold State.pending
      rw [hp, hsending]
      rfl
  | written m hp hreader =>
      obtain ⟨rest, hsource, hitems⟩ := hs.whole (by simp [hp])
      have hflow : s.written ++ [m] ++ s.producer.held ++ items rest = items events := by
        unfold State.pending at hitems
        rw [hp] at hitems
        simpa only [WriterPc.held, List.append_assoc] using hitems
      constructor
      · rw [← hflow, List.append_assoc]
        exact List.prefix_append _ _
      · exact fun _ => ⟨rest, hsource, hflow⟩
  | failed m hp => exact hs.frame rfl rfl fun hw => absurd rfl hw

theorem InOrder.producer {a : ProducerAction} (hs : InOrder events s)
    (h : producerFunc kind s a = some t) : InOrder events t := by
  have hidle : ∀ {pc : ProducerPc}, s.producer.held = [] → pc.held = [] →
      s.writer.held ++ pc.held = s.pending := by
    intro pc hheld hheld'
    unfold State.pending
    rw [hheld, hheld']
  cases producer_next h with
  | opened hp => exact hs.frame rfl rfl fun hw => ⟨hw, hidle (by rw [hp]; rfl) rfl⟩
  | openFailed hp hkind => exact hs.frame rfl rfl fun hw => ⟨hw, hidle (by rw [hp]; rfl) rfl⟩
  | streamed m hp hsource =>
      refine ⟨hs.written, fun hw => ?_⟩
      obtain ⟨rest, hrest, _⟩ := hs.whole hw
      rw [hsource] at hrest
      cases hrest
  | next m rest hp hsource =>
      refine ⟨hs.written, fun hw => ⟨rest, rfl, ?_⟩⟩
      obtain ⟨rest', hrest, hitems⟩ := hs.whole hw
      rw [hsource, Source.finite.injEq] at hrest
      rw [← hitems, ← hrest]
      unfold State.pending
      rw [hp]
      simp [ProducerPc.held, items]
  | dropped rest hp hsource hkind =>
      exact hs.frame rfl rfl fun hw => ⟨hw, hidle (by rw [hp]; rfl) rfl⟩
  | closed rest hp hsource hkind =>
      exact hs.frame rfl rfl fun hw => ⟨hw, hidle (by rw [hp]; rfl) rfl⟩
  | ended hp hend => exact hs.frame rfl rfl fun hw => ⟨hw, hidle (by rw [hp]; rfl) rfl⟩

theorem step_inOrder {a : Action} (hs : InOrder events s) (h : step kind s a = some t) :
    InOrder events t := by
  cases a with
  | shutdown =>
      simp only [step] at h
      split at h <;> cases h
      exact hs.frame rfl rfl fun hw => ⟨hw, rfl⟩
  | peerClose =>
      simp only [step] at h
      split at h <;> cases h
      exact hs.frame rfl rfl fun hw => ⟨hw, rfl⟩
  | reader a => exact hs.reader h
  | writer a => exact hs.writer h
  | producer a => exact hs.producer h

/-- Messages are only added. -/
theorem step_written {a : Action} (h : step kind s a = some t) : s.written <+: t.written := by
  cases a with
  | shutdown =>
      simp only [step] at h
      split at h <;> cases h
      exact List.prefix_rfl
  | peerClose =>
      simp only [step] at h
      split at h <;> cases h
      exact List.prefix_rfl
  | reader a => cases reader_next h <;> exact List.prefix_rfl
  | writer a =>
      cases writer_next h with
      | written m hp hreader => exact List.prefix_append _ _
      | _ => exact List.prefix_rfl
  | producer a => cases producer_next h <;> exact List.prefix_rfl

end TSymbiote.Adapter.Stream
