import TSymbiote.Adapter.Stream

/-! # How producers end

A log stream ends with its file, with a read error, or at a line the scanner has
no room for; the events of the bus end, or one of them is an error or does not
marshal. The producers close the socket when the stream does not open and after
an error of the bus, and otherwise just return.
-/

namespace TSymbiote.Adapter.Stream

open Shared Transition

/-! ## The scanner's lines -/

/-- `bufio.MaxScanTokenSize` -/
def maxScanTokenSize : Nat := 64 * 1024

def dropCR (line : Bytes) : Bytes := if line.getLast? = some 13 then line.dropLast else line

inductive Ending where
  | eof
  | readError
  deriving DecidableEq, Repr

/-- The lines before each newline, and what follows the last one unless it is
empty. -/
structure LogStream where
  lines : List Bytes
  ending : Ending
  deriving DecidableEq, Repr

/-- What successive calls of `Scan` come to. A line and its newline must fit into
the scanner's buffer. -/
def scanLines (ending : Ending) : List Bytes → List Event
  | [] =>
      match ending with
      | .eof => []
      | .readError => [.failure]
  | line :: lines =>
      if line.length < maxScanTokenSize then .item (dropCR line) :: scanLines ending lines
      else [.failure]

/-! ## The events of the bus -/

/-- An event with its marshalled form, if it has one, or an error. -/
inductive BusEvent where
  | event (out : Option Bytes)
  | error
  deriving DecidableEq, Repr

def BusEvent.next : BusEvent → Event
  | .event (some out) => .item out
  | .event none => .failure
  | .error => .failure

/-- What a producer is to read. -/
inductive Feed where
  | logs (stream : LogStream)
  | busEvents (events : List BusEvent)
  deriving DecidableEq, Repr

namespace Feed

def kind : Feed → Kind
  | .logs _ => .logs
  | .busEvents _ => .busEvents

def events : Feed → List Event
  | .logs stream => scanLines stream.ending stream.lines
  | .busEvents events => events.map BusEvent.next

def source (feed : Feed) : Source := .finite feed.events

/-- The bus yields an error or an event that does not marshal. -/
def Closes : Feed → Prop
  | .logs _ => False
  | .busEvents events => ∃ event ∈ events, event.next = .failure

end Feed

/-- The session has ended or is about to. -/
def Signalled (s : State) : Prop := s.death = true ∨ s.shutdown = true ∨ s.closeSent = true

/-- The producer has returned, and nobody is told. -/
def Silent (s : State) : Prop := s.producer = .done ∧ ¬ Signalled s

/-! ## Feeds that close -/

variable {kind : Kind} {s t : State}

theorem reader_keeps {a : ReaderAction} (h : websocketReader s a = some t) :
    t.source = s.source ∧ t.producer = s.producer ∧ (Signalled s → Signalled t) := by
  cases reader_next h with
  | died hp hpeer => exact ⟨rfl, rfl, fun _ => .inl rfl⟩
  | _ => exact ⟨rfl, rfl, id⟩

/-- The writer may take the producer's item, but does not end it. -/
theorem writer_keeps {a : WriterAction} (h : websocketWriter s a = some t) :
    t.source = s.source ∧ (t.producer = .done → s.producer = .done) ∧
      (Signalled s → Signalled t) := by
  cases writer_next h with
  | shutdown hp hsignal => exact ⟨rfl, id, fun _ => .inr (.inr rfl)⟩
  | death hp hsignal => exact ⟨rfl, id, id⟩
  | received m hp hsending => exact ⟨rfl, nofun, id⟩
  | written m hp hreader => exact ⟨rfl, id, id⟩
  | failed m hp => exact ⟨rfl, id, fun _ => .inr (.inr rfl)⟩

/-- A failure is still to come, and the producer has not returned unnoticed. -/
structure Failing (s : State) : Prop where
  source : ∃ events, s.source = .finite events ∧ .failure ∈ events
  signalled : s.producer = .done → Signalled s

theorem Failing.of_keeps (hs : Failing s) (hsource : t.source = s.source)
    (hproducer : t.producer = .done → s.producer = .done) (hsignals : Signalled s → Signalled t) :
    Failing t where
  source := by
    rw [hsource]
    exact hs.source
  signalled hdone := hsignals (hs.signalled (hproducer hdone))

/-- The producer of bus events closes the socket at a failure, and without one it
does not end. -/
theorem Failing.producer {a : ProducerAction} (hs : Failing s)
    (h : producerFunc .busEvents s a = some t) : Failing t := by
  rcases hs.source with ⟨events, hevents, hfailure⟩
  cases producer_next h with
  | opened hp => exact ⟨hs.source, nofun⟩
  | openFailed hp hkind => cases hkind
  | streamed m hp hsource => exact ⟨hs.source, nofun⟩
  | next m rest hp hsource =>
      rw [hevents, Source.finite.injEq] at hsource
      subst hsource
      exact ⟨⟨rest, rfl, (List.mem_cons.mp hfailure).resolve_left nofun⟩, nofun⟩
  | dropped rest hp hsource hkind => cases hkind
  | closed rest hp hsource hkind => exact ⟨hs.source, fun _ => .inr (.inr rfl)⟩
  | ended hp hend =>
      refine ⟨hs.source, fun _ => ?_⟩
      rcases hend with hdeath | hempty
      · exact .inl hdeath
      · rw [hevents, Source.finite.injEq] at hempty
        rw [hempty] at hfailure
        cases hfailure

theorem Failing.step {a : Action} (hs : Failing s) (h : step .busEvents s a = some t) :
    Failing t := by
  cases a with
  | shutdown =>
      simp only [Stream.step] at h
      split at h <;> cases h
      exact hs.of_keeps rfl id fun _ => .inr (.inl rfl)
  | peerClose =>
      simp only [Stream.step] at h
      split at h <;> cases h
      exact hs.of_keeps rfl id id
  | reader a =>
      obtain ⟨hsource, hproducer, hsignals⟩ := reader_keeps h
      exact hs.of_keeps hsource (fun hdone => hproducer ▸ hdone) hsignals
  | writer a =>
      obtain ⟨hsource, hproducer, hsignals⟩ := writer_keeps h
      exact hs.of_keeps hsource hproducer hsignals
  | producer a => exact hs.producer h

/-! ## Feeds that do not -/

/-- Reader and writer wait, and nothing has ended the session. -/
structure Idle (s : State) : Prop where
  producer : s.producer = .scanning
  writer : s.writer = .selecting
  reader : s.reader ≠ .done
  quiet : ¬ Signalled s

/-- The writer passes an item on. -/
theorem Idle.deliver (hs : Idle s) {m : Bytes} {rest : List Event}
    (hsource : s.source = .finite (.item m :: rest)) :
    ∃ t, Reaches (step kind) s t ∧ Idle t ∧ t.source = .finite rest := by
  have hrun : execute (step kind) s [.producer (.next m), .writer .receive, .writer .written] =
      some { s with source := .finite rest, producer := .scanning, writer := .selecting,
                    written := s.written ++ [m] } := by
    simp [execute, step, producerFunc, websocketWriter, hs.producer, hs.writer, hsource, hs.reader]
  exact ⟨_, execute_reaches hrun, ⟨rfl, rfl, hs.reader, hs.quiet⟩, rfl⟩

/-- Where a failure is not answered by a close frame, the source runs out in
silence. -/
theorem Idle.runs_out {events : List Event} (hkind : kind = .logs ∨ .failure ∉ events)
    (hs : Idle s) (hsource : s.source = .finite events) :
    ∃ t, Reaches (step kind) s t ∧ Silent t := by
  induction events generalizing s with
  | nil =>
      have hended : step kind s (.producer .ended) = some { s with producer := .done } := by
        simp [step, producerFunc, hs.producer, hsource]
      exact ⟨_, Reaches.single hended, rfl, hs.quiet⟩
  | cons event rest ih =>
      cases event with
      | failure =>
          have hlogs := hkind.resolve_right fun hnot => hnot List.mem_cons_self
          subst hlogs
          have hfailure : step .logs s (.producer .failure) = some { s with producer := .done } := by
            simp [step, producerFunc, hs.producer, hsource]
          exact ⟨_, Reaches.single hfailure, rfl, hs.quiet⟩
      | item m =>
          rcases hs.deliver hsource with ⟨t, ht, hidle, hrest⟩
          have hkind' : kind = .logs ∨ .failure ∉ rest :=
            hkind.imp_right fun hnot hmem => hnot (List.mem_cons_of_mem _ hmem)
          rcases ih hkind' hidle hrest with ⟨u, hu, hsilent⟩
          exact ⟨u, ht.trans hu, hsilent⟩

theorem start_quiet (source : Source) : ¬ Signalled (start source) := by
  simp [Signalled, start]

theorem reaches_silent {events : List Event} (hkind : kind = .logs ∨ .failure ∉ events) :
    ∃ t, Reaches (step kind) (start (.finite events)) t ∧ Silent t := by
  have hopened : step kind (start (.finite events)) (.producer .opened) =
      some { start (.finite events) with producer := .scanning } := rfl
  have hidle : Idle { start (.finite events) with producer := .scanning } :=
    ⟨rfl, rfl, nofun, start_quiet (.finite events)⟩
  rcases hidle.runs_out hkind rfl with ⟨t, ht, hsilent⟩
  exact ⟨t, Reaches.head hopened ht, hsilent⟩

/-- A producer is sure not to return unnoticed exactly when it reads events of
the bus with a failure among them; over no log stream is it. -/
theorem silent_iff (feed : Feed) :
    (∀ s, Reaches (step feed.kind) (start feed.source) s → ¬ Silent s) ↔ feed.Closes := by
  constructor
  · intro h
    by_contra hcloses
    have hkind : feed.kind = .logs ∨ .failure ∉ feed.events := by
      cases feed with
      | logs stream => exact .inl rfl
      | busEvents events =>
          right
          intro hfailure
          rcases List.mem_map.mp hfailure with ⟨event, hevent, heq⟩
          exact hcloses ⟨event, hevent, heq⟩
    rcases reaches_silent hkind with ⟨t, ht, hsilent⟩
    exact h t ht hsilent
  · intro hcloses s hs hsilent
    cases feed with
    | logs stream => exact hcloses
    | busEvents events =>
        rcases hcloses with ⟨event, hevent, heq⟩
        have hstart : Failing (start (Feed.busEvents events).source) :=
          ⟨⟨_, rfl, List.mem_map.mpr ⟨event, hevent, heq⟩⟩, nofun⟩
        have hfailing := hs.invariant (fun hp hl => hp.step hl) hstart
        exact hsilent.2 (hfailing.signalled hsilent.1)

/-- One line that is as long as the scanner's buffer ends the log stream. -/
theorem long_line_silent :
    ∃ s, Reaches (step .logs)
        (start (Feed.logs ⟨[List.replicate maxScanTokenSize 120], .eof⟩).source) s ∧
      Silent s ∧ s.written = [] := by
  have hevents : (Feed.logs ⟨[List.replicate maxScanTokenSize 120], .eof⟩).events = [.failure] := by
    change scanLines .eof [List.replicate maxScanTokenSize 120] = [.failure]
    rw [scanLines, List.length_replicate, if_neg (Nat.lt_irrefl _)]
  have hrun : execute (step .logs) (start (.finite [.failure]))
      [.producer .opened, .producer .failure] =
        some { start (.finite [.failure]) with producer := .done } := rfl
  unfold Feed.source
  rw [hevents]
  exact ⟨_, execute_reaches hrun, ⟨rfl, start_quiet (.finite [.failure])⟩, rfl⟩

end TSymbiote.Adapter.Stream
