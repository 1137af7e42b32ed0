import TSymbiote.Lib.Transition
import TSymbiote.Shared.Websocket

/-! # The adapter's streams

A `Logs` or `BusEvents` session runs three goroutines: a reader that waits for
the peer to close, a writer, and a producer that hands the items of the LocalAPI
stream to the writer over an unbuffered channel. The reader's death signal ends
the stream; the server's shutdown reaches reader and writer only. Nothing
guards the producer's send, so a writer that returns with an item in flight
leaves the producer behind.
-/

namespace TSymbiote.Adapter.Stream

open Shared Transition

inductive Kind where
  | logs
  | busEvents
  deriving DecidableEq, Repr

/-- What the LocalAPI stream yields: an item, or an error that ends the loop
over it (a scan error, an iterator error, an event that does not marshal). -/
inductive Event where
  | item (message : Bytes)
  | failure
  deriving DecidableEq, Repr

inductive Source where
  | finite (events : List Event)
  | endless
  deriving DecidableEq, Repr

inductive ReaderPc where
  | loop
  | reading
  | done
  deriving DecidableEq, Repr

inductive WriterPc where
  | selecting
  | writing (message : Bytes)
  | done
  deriving DecidableEq, Repr

inductive ProducerPc where
  | opening
  | scanning
  | sending (message : Bytes)
  | done
  deriving DecidableEq, Repr

structure State where
  shutdown : Bool
  death : Bool
  peerClosed : Bool
  closeSent : Bool
  reader : ReaderPc
  writer : WriterPc
  producer : ProducerPc
  source : Source
  written : List Bytes
  deriving DecidableEq, Repr

def start (source : Source) : State where
  shutdown := false
  death := false
  peerClosed := false
  closeSent := false
  reader := .loop
  writer := .selecting
  producer := .opening
  source := source
  written := []

inductive ReaderAction where
  | check
  | read
  | fail
  deriving DecidableEq, Repr

inductive WriterAction where
  | shutdown
  | death
  | receive
  | written
  | failed
  deriving DecidableEq, Repr

inductive ProducerAction where
  | opened
  | openFailed
  | next (message : Bytes)
  | failure
  | ended
  deriving DecidableEq, Repr

/-- `peerClose` covers a peer that answers a close frame. -/
inductive Action where
  | shutdown
  | peerClose
  | reader (a : ReaderAction)
  | writer (a : WriterAction)
  | producer (a : ProducerAction)
  deriving DecidableEq, Repr

/-- An error of the close frame is only logged. -/
def closeWebsocket (s : State) : State := { s with closeSent := true }

def websocketReader (s : State) : ReaderAction → Option State
  | .check =>
      if s.reader = .loop then
        some { s with reader := if s.shutdown || s.death then .done else .reading }
      else none
  | .read => if s.reader = .reading ∧ s.peerClosed = false then some { s with reader := .loop } else none
  | .fail =>
      if s.reader = .reading ∧ s.peerClosed = true then some { s with death := true, reader := .done }
      else none

def websocketWriter (s : State) : WriterAction → Option State
  | .shutdown =>
      if s.writer = .selecting ∧ s.shutdown = true then some { closeWebsocket s with writer := .done }
      else none
  | .death =>
      if s.writer = .selecting ∧ s.death = true then some { s with writer := .done } else none
  -- The channel is unbuffered: the producer's send completes with the receive.
  | .receive =>
      match s.writer, s.producer with
      | .selecting, .sending m => some { s with writer := .writing m, producer := .scanning }
      | _, _ => none
  | .written =>
      match s.writer with
      | .writing m =>
          if s.reader = .done then none
          else some { s with writer := .selecting, written := s.written ++ [m] }
      | _ => none
  | .failed =>
      match s.writer with
      | .writing _ => some { closeWebsocket s with writer := .done }
      | _ => none

/-- `logStreamScannerFunc` and `busEventsIterFunc`. Only the first can fail to
open its stream, and only the second closes the socket after an error in it. -/
def producerFunc (kind : Kind) (s : State) : ProducerAction → Option State
  | .opened => if s.producer = .opening then some { s with producer := .scanning } else none
  | .openFailed =>
      if kind = .logs ∧ s.producer = .opening then some { closeWebsocket s with producer := .done }
      else none
  | .next m =>
      if s.producer = .scanning then
        match s.source with
        | .endless => some { s with producer := .sending m }
        | .finite (.item n :: rest) =>
            if m = n then some { s with producer := .sending m, source := .finite rest } else none
        | _ => none
      else none
  | .failure =>
      if s.producer = .scanning then
        match s.source, kind with
        | .finite (.failure :: _), .logs => some { s with producer := .done }
        | .finite (.failure :: _), .busEvents => some { closeWebsocket s with producer := .done }
        | _, _ => none
      else none
  | .ended =>
      if s.producer = .scanning ∧ (s.death = true ∨ s.source = .finite []) then
        some { s with producer := .done }
      else none

def step (kind : Kind) (s : State) : Action → Option State
  | .shutdown => if s.shutdown then none else some { s with shutdown := true }
  | .peerClose => if s.peerClosed then none else some { s with peerClosed := true }
  | .reader a => websocketReader s a
  | .writer a => websocketWriter s a
  | .producer a => producerFunc kind s a

/-! ## What one step can do -/

variable {kind : Kind} {s t : State}

inductive ReaderNext (s : State) : ReaderAction → State → Prop where
  | stopped (hp : s.reader = .loop) (hsignal : s.shutdown = true ∨ s.death = true) :
      ReaderNext s .check { s with reader := .done }
  | reading (hp : s.reader = .loop) : ReaderNext s .check { s with reader := .reading }
  | read (hp : s.reader = .reading) : ReaderNext s .read { s with reader := .loop }
  | died (hp : s.reader = .reading) (hpeer : s.peerClosed = true) :
      ReaderNext s .fail { s with death := true, reader := .done }

inductive WriterNext (s : State) : WriterAction → State → Prop where
  | shutdown (hp : s.writer = .selecting) (hsignal : s.shutdown = true) :
      WriterNext s .shutdown { closeWebsocket s with writer := .done }
  | death (hp : s.writer = .selecting) (hsignal : s.death = true) :
      WriterNext s .death { s with writer := .done }
  | received (m : Bytes) (hp : s.writer = .selecting) (hsending : s.producer = .sending m) :
      WriterNext s .receive { s with writer := .writing m, producer := .scanning }
  | written (m : Bytes) (hp : s.writer = .writing m) (hreader : s.reader ≠ .done) :
      WriterNext s .written { s with writer := .selecting, written := s.written ++ [m] }
  | failed (m : Bytes) (hp : s.writer = .writing m) :
      WriterNext s .failed { closeWebsocket s with writer := .done }

inductive ProducerNext (kind : Kind) (s : State) : ProducerAction → State → Prop where
  | opened (hp : s.producer = .opening) : ProducerNext kind s .opened { s with producer := .scanning }
  | openFailed (hp : s.producer = .opening) (hkind : kind = .logs) :
      ProducerNext kind s .openFailed { closeWebsocket s with producer := .done }
  | streamed (m : Bytes) (hp : s.producer = .scanning) (hs : s.source = .endless) :
      ProducerNext kind s (.next m) { s with producer := .sending m }
  | next (m : Bytes) (rest : List Event) (hp : s.producer = .scanning)
      (hs : s.source = .finite (.item m :: rest)) :
      ProducerNext kind s (.next m) { s with producer := .sending m, source := .finite rest }
  | dropped (rest : List Event) (hp : s.producer = .scanning)
      (hs : s.source = .finite (.failure :: rest)) (hkind : kind = .logs) :
      ProducerNext kind s .failure { s with producer := .done }
  | closed (rest : List Event) (hp : s.producer = .scanning)
      (hs : s.source = .finite (.failure :: rest)) (hkind : kind = .busEvents) :
      ProducerNext kind s .failure { closeWebsocket s with producer := .done }
  | ended (hp : s.producer = .scanning) (hend : s.death = true ∨ s.source = .finite []) :
      ProducerNext kind s .ended { s with producer := .done }

theorem reader_next {a : ReaderAction} (h : websocketReader s a = some t) : ReaderNext s a t := by
  unfold websocketReader at h
  cases a with
  | check =>
      dsimp only at h
      split at h
      · next hp =>
          cases h
          split
          · next hsignal => exact .stopped hp (Bool.or_eq_true _ _ ▸ hsignal)
          · exact .reading hp
      · contradiction
  | read =>
      dsimp only at h
      split at h
      · next hp =>
          cases h
          exact .read hp.1
      · contradiction
  | fail =>
      dsimp only at h
      split at h
      · next hp =>
          cases h
          exact .died hp.1 hp.2
      · contradiction

theorem writer_next {a : WriterAction} (h : websocketWriter s a = some t) : WriterNext s a t := by
  unfold websocketWriter at h
  cases a with
  | shutdown =>
      dsimp only at h
      split at h
      · next hp =>
          cases h
          exact .shutdown hp.1 hp.2
      · contradiction
  | death =>
      dsimp only at h
      split at h
      · next hp =>
          cases h
          exact .death hp.1 hp.2
      · contradiction
  | receive =>
      dsimp only at h
      split at h
      · next m hp hsending =>
          cases h
          exact .received m hp hsending
      · contradiction
  | written =>
      dsimp only at h
      split at h
      · next m hp =>
          split at h
          · contradiction
          · next hreader =>
              cases h
              exact .written m hp hreader
      · contradiction
  | failed =>
      dsimp only at h
      split at h
      · next m hp =>
          cases h
          exact .failed m hp
      · contradiction

theorem producer_next {a : ProducerAction} (h : producerFunc kind s a = some t) :
    ProducerNext kind s a t := by
  unfold producerFunc at h
  cases a with
  | opened =>
      dsimp only at h
      split at h
      · next hp =>
          cases h
          exact .opened hp
      · contradiction
  | openFailed =>
      dsimp only at h
      split at h
      · next hp =>
          cases h
          exact .openFailed hp.2 hp.1
      · contradiction
  | next m =>
      dsimp only at h
      split at h
      · next hp =>
          split at h
          · next hs =>
              cases h
              exact .streamed m hp hs
          · next n rest hs =>
              split at h
              · next hm =>
                  subst hm
                  cases h
                  exact .next m rest hp hs
              · contradiction
          · contradiction
      · contradiction
  | failure =>
      dsimp only at h
      split at h
      · next hp =>
          split at h
          · next rest hs =>
              cases h
              exact .dropped rest hp hs rfl
          · next rest hs =>
              cases h
              exact .closed rest hp hs rfl
          · contradiction
      · contradiction
  | ended =>
      dsimp only at h
      split at h
      · next hp =>
          cases h
          exact .ended hp.1 hp.2
      · contradiction

/-! ## Sessions that drain -/

structure Returned (s : State) : Prop where
  reader : s.reader = .done
  writer : s.writer = .done
  producer : s.producer = .done

/-- No goroutine can move and one of them has not returned. -/
def Hung (kind : Kind) (s : State) : Prop := Stuck (step kind) s ∧ ¬ Returned s

def Sending (s : State) : Prop := ∃ m, s.producer = .sending m

/-- The actions by which the writer returns. -/
def WriterAction.returns : WriterAction → Bool
  | .shutdown => true
  | .death => true
  | .failed => true
  | _ => false

/-- The writer returns with no item in flight, and no item is fetched after it
has returned. -/
def Drains (s : State) : Action → Prop
  | .writer a => a.returns = true → ¬ Sending s
  | .producer (.next _) => s.writer ≠ .done
  | _ => True

/-- An item in flight has a writer to take it. -/
def Attended (s : State) : Prop := s.writer = .done → ¬ Sending s

theorem stuck_signals (h : Stuck (step kind) s) : s.shutdown = true ∧ s.peerClosed = true := by
  have hshutdown := h .shutdown
  have hpeer := h .peerClose
  simp only [step, ite_eq_left_iff, reduceCtorEq, imp_false] at hshutdown hpeer
  simp_all

theorem stuck_reader (h : Stuck (step kind) s) : s.reader = .done := by
  cases hr : s.reader with
  | loop =>
      have hcheck := h (.reader .check)
      simp [step, websocketReader, hr] at hcheck
  | reading =>
      have hfail := h (.reader .fail)
      simp [step, websocketReader, hr, (stuck_signals h).2] at hfail
  | done => rfl

theorem stuck_writer (h : Stuck (step kind) s) : s.writer = .done := by
  cases hw : s.writer with
  | selecting =>
      have hshutdown := h (.writer .shutdown)
      simp [step, websocketWriter, hw, (stuck_signals h).1] at hshutdown
  | writing m =>
      have hfailed := h (.writer .failed)
      simp [step, websocketWriter, hw] at hfailed
  | done => rfl

theorem stuck_producer (h : Stuck (step kind) s) : s.producer = .done ∨ Sending s := by
  cases hp : s.producer with
  | opening =>
      have hopened := h (.producer .opened)
      simp [step, producerFunc, hp] at hopened
  | scanning =>
      cases hs : s.source with
      | endless =>
          have hnext := h (.producer (.next []))
          simp [step, producerFunc, hp, hs] at hnext
      | finite events =>
          cases events with
          | nil =>
              have hended := h (.producer .ended)
              simp [step, producerFunc, hp, hs] at hended
          | cons event rest =>
              cases event with
              | item m =>
                  have hnext := h (.producer (.next m))
                  simp [step, producerFunc, hp, hs] at hnext
              | failure =>
                  have hfailure := h (.producer .failure)
                  cases kind <;> simp [step, producerFunc, hp, hs] at hfailure
  | sending m => exact .inr ⟨m, hp⟩
  | done => exact .inl rfl

/-- A session without an unattended item hangs nowhere. -/
theorem attended_not_hung (hs : Attended s) : ¬ Hung kind s := by
  intro hhung
  rcases hhung with ⟨hstuck, hnot⟩
  have hw := stuck_writer hstuck
  exact hnot ⟨stuck_reader hstuck, hw, (stuck_producer hstuck).resolve_right (hs hw)⟩

theorem reader_frame {a : ReaderAction} (h : websocketReader s a = some t) :
    t.writer = s.writer ∧ t.producer = s.producer := by
  cases reader_next h <;> exact ⟨rfl, rfl⟩

/-- The writer returns and leaves the producer where it is, or it goes on. -/
theorem writer_moves {a : WriterAction} (h : websocketWriter s a = some t) :
    if a.returns = true then t.writer = .done ∧ t.producer = s.producer else t.writer ≠ .done := by
  cases writer_next h with
  | shutdown hp hsignal => exact ⟨rfl, rfl⟩
  | death hp hsignal => exact ⟨rfl, rfl⟩
  | received m hp hsending => exact nofun
  | written m hp hreader => exact nofun
  | failed m hp => exact ⟨rfl, rfl⟩

/-- The producer does not touch the writer, and it comes to a send only by
fetching an item. -/
theorem producer_moves {a : ProducerAction} (h : producerFunc kind s a = some t) :
    t.writer = s.writer ∧ (Sending t ↔ ∃ m, a = .next m) := by
  cases producer_next h with
  | streamed m hp hs => exact ⟨rfl, fun _ => ⟨m, rfl⟩, fun _ => ⟨m, rfl⟩⟩
  | next m rest hp hs => exact ⟨rfl, fun _ => ⟨m, rfl⟩, fun _ => ⟨m, rfl⟩⟩
  | _ => simp [Sending, closeWebsocket]

theorem attended_of_frame (hw : t.writer = s.writer) (hp : t.producer = s.producer) :
    Attended t ↔ Attended s := by
  unfold Attended Sending
  rw [hw, hp]

/-- From a session without an unattended item, exactly the steps that drain
lead to another one. -/
theorem step_attended_iff {a : Action} (hs : Attended s) (h : step kind s a = some t) :
    Attended t ↔ Drains s a := by
  cases a with
  | shutdown =>
      simp only [step] at h
      split at h <;> cases h
      exact ⟨fun _ => trivial, fun _ => hs⟩
  | peerClose =>
      simp only [step] at h
      split at h <;> cases h
      exact ⟨fun _ => trivial, fun _ => hs⟩
  | reader a =>
      have hframe := reader_frame h
      rw [attended_of_frame hframe.1 hframe.2]
      exact ⟨fun _ => trivial, fun _ => hs⟩
  | writer a =>
      have hmoves := writer_moves h
      by_cases hreturns : a.returns = true
      · rw [if_pos hreturns] at hmoves
        simp only [Attended, Drains, hreturns, hmoves.1, Sending, hmoves.2, forall_const]
      · rw [if_neg hreturns] at hmoves
        exact ⟨fun _ hr => absurd hr hreturns, fun _ hw => absurd hw hmoves⟩
  | producer a =>
      have hmoves := producer_moves h
      unfold Attended
      rw [hmoves.1, hmoves.2]
      cases a with
      | next m => simp [Drains]
      | _ => simp [Drains]

/-! ## An item left in flight -/

theorem reaches_shutdown (kind : Kind) (s : State) : Reaches (step kind) s { s with shutdown := true } := by
  cases hs : s.shutdown with
  | false =>
      apply Reaches.single (l := .shutdown)
      simp [step, hs]
  | true =>
      have hsame : ({ s with shutdown := true } : State) = s := by rw [← hs]
      rw [hsame]
      exact Reaches.refl s

theorem reaches_peerClose (kind : Kind) (s : State) :
    Reaches (step kind) s { s with peerClosed := true } := by
  cases hs : s.peerClosed with
  | false =>
      apply Reaches.single (l := .peerClose)
      simp [step, hs]
  | true =>
      have hsame : ({ s with peerClosed := true } : State) = s := by rw [← hs]
      rw [hsame]
      exact Reaches.refl s

/-- With the server down and the peer gone, the reader returns. -/
theorem reaches_readerDone (kind : Kind) (hstop : s.shutdown = true) (hpeer : s.peerClosed = true) :
    ∃ death, Reaches (step kind) s { s with death, reader := .done } := by
  cases hr : s.reader with
  | loop =>
      refine ⟨s.death, Reaches.single (l := .reader .check) ?_⟩
      simp [step, websocketReader, hr, hstop]
  | reading =>
      refine ⟨true, Reaches.single (l := .reader .fail) ?_⟩
      simp [step, websocketReader, hr, hpeer]
  | done =>
      refine ⟨s.death, ?_⟩
      rw [← hr]
      exact Reaches.refl s

theorem hung_of_unattended (hstop : s.shutdown = true) (hpeer : s.peerClosed = true)
    (hreader : s.reader = .done) (hwriter : s.writer = .done) (hsending : Sending s) : Hung kind s := by
  rcases hsending with ⟨m, hm⟩
  constructor
  · intro a
    cases a with
    | shutdown => simp [step, hstop]
    | peerClose => simp [step, hpeer]
    | reader a => cases a <;> simp [step, websocketReader, hreader]
    | writer a => cases a <;> simp [step, websocketWriter, hwriter]
    | producer a => cases a <;> simp [step, producerFunc, hm]
  · intro hreturned
    have hproducer := hreturned.producer
    rw [hm] at hproducer
    cases hproducer

/-- An unattended item keeps the producer from ever returning. -/
theorem reaches_hung (hwriter : s.writer = .done) (hsending : Sending s) :
    ∃ t, Reaches (step kind) s t ∧ Hung kind t := by
  have hdown := (reaches_shutdown kind s).trans (reaches_peerClose kind _)
  obtain ⟨death, hdone⟩ :=
    reaches_readerDone (s := { s with shutdown := true, peerClosed := true }) kind rfl rfl
  exact ⟨_, hdown.trans hdone, hung_of_unattended rfl rfl rfl hwriter hsending⟩

/-- `Drains` is exactly what lets every session, of either kind and over any
source, end with all three goroutines returned. -/
theorem hung_guards (kind : Kind) (source : Source) :
    Guards (step kind) Drains (Hung kind) (start source) := by
  refine Guards.of_invariant (P := Attended) ?_ ?_ attended_not_hung ?_
  · intro hw
    cases hw
  · intro s a t hs hdrains h
    exact (step_attended_iff hs h).mpr hdrains
  · intro s a t hs h hnot
    have hunattended := mt (step_attended_iff hs h).mp hnot
    unfold Attended at hunattended
    rw [Classical.not_imp, not_not] at hunattended
    exact reaches_hung hunattended.1 hunattended.2

/-- The server shuts down with a line in flight. -/
theorem shutdown_strands_line :
    ¬ ∀ kind source s, Reaches (step kind) (start source) s → ¬ Hung kind s := by
  intro h
  have hrun : ∃ s, execute (step .logs) (start .endless)
      [.producer .opened, .producer (.next []), .shutdown, .writer .shutdown] = some s ∧
        s.writer = .done ∧ s.producer = .sending [] := ⟨_, rfl, rfl, rfl⟩
  rcases hrun with ⟨s, hs, hwriter, hproducer⟩
  have hhung : ∃ t, Reaches (step .logs) s t ∧ Hung .logs t := reaches_hung hwriter ⟨_, hproducer⟩
  rcases hhung with ⟨t, ht, hhung⟩
  exact h .logs .endless t ((execute_reaches hs).trans ht) hhung

end TSymbiote.Adapter.Stream
