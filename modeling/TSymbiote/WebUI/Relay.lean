import TSymbiote.Lib.Channel
import TSymbiote.Lib.Maps
import TSymbiote.Lib.Transition
import TSymbiote.Shared.Websocket

/-! # The stream relay

A relay session forwards the messages of several adapter connections to one
client connection. One reader goroutine per target, a reader of the client, one
goroutine per ping, and a central writer share the channels `msg` and `dead`,
both with one slot per target. The writer is the only receiver of either, and
it puts the notice of a dead adapter on `msg` itself. A step is one action of
one goroutine; which case a select takes, and when a read or a write returns,
is left to the run.
-/

namespace TSymbiote.WebUI.Relay

open Shared Transition

/-- The targets of a session. Splitting the query parameter gives at least one. -/
structure Targets where
  hosts : List String
  nonempty : hosts ≠ []

inductive Sender where
  | adapter (i : Nat)
  | client
  | writer
  deriving DecidableEq, Repr

/-- A message on `msg`, and who put it there; the code sends the message only. -/
structure Post where
  sender : Sender
  message : WebsocketMessage
  deriving DecidableEq, Repr

inductive Frame where
  | message (p : Post)
  | close
  deriving DecidableEq, Repr

/-! ## Goroutines -/

inductive ReaderPc where
  | loop
  | reading
  | sending (p : Post)
  | dying
  | done
  deriving DecidableEq, Repr

/-- An `adapterWebsocketReader`. -/
structure Reader where
  target : String
  pc : ReaderPc

inductive ClientPc where
  | loop
  | reading
  | sending (p : Post)
  | done
  deriving DecidableEq, Repr

inductive PingPc where
  | writing
  | dying
  | done
  deriving DecidableEq, Repr

/-- A ping of the connection of reader `conn`, which was living as `adapter`. -/
structure Ping where
  adapter : String
  conn : Nat
  pc : PingPc

inductive Exit where
  | shutdown
  | clientDead
  | noAdapters
  deriving DecidableEq, Repr

inductive WriterPc where
  | selecting
  | notice (p : Post)
  | writing (p : Post)
  | checking
  | done (exit : Exit)
  deriving DecidableEq, Repr

/-- `broken` says that writes to the client fail from now on. -/
structure State (ts : Targets) where
  shutdown : Bool
  clientDead : Bool
  broken : Bool
  readers : List Reader
  client : ClientPc
  pings : List Ping
  writer : WriterPc
  living : GoMap Nat
  msg : Chan Post ts.hosts.length
  dead : Chan String ts.hosts.length
  written : List Frame

/-- Later connections to one target replace earlier ones. -/
def adapterConns (ts : Targets) : GoMap Nat :=
  ts.hosts.zipIdx.foldl (fun conns t => conns.insert t.1 t.2) ∅

def start (ts : Targets) : State ts where
  shutdown := false
  clientDead := false
  broken := false
  readers := ts.hosts.map fun target => ⟨target, .loop⟩
  client := .loop
  pings := []
  writer := .selecting
  living := adapterConns ts
  msg := .make _ _
  dead := .make _ _
  written := []

/-! ## Steps -/

inductive ReaderAction where
  | check
  | read (type : MessageType) (message : Bytes)
  | fail
  | send
  | report
  deriving DecidableEq, Repr

inductive ClientAction where
  | check
  | read (type : MessageType) (message : Bytes)
  | fail
  | send
  deriving DecidableEq, Repr

inductive PingAction where
  | ok
  | fail
  | report
  deriving DecidableEq, Repr

/-- `sent` says whether the close frame to the client was written; an error is
only logged. -/
inductive WriterAction where
  | shutdown (sent : Bool)
  | clientDead
  | tick
  | dead
  | message
  | sendNotice
  | written
  | writeFailed
  | check (sent : Bool)
  deriving DecidableEq, Repr

inductive Action where
  | shutdown
  | reader (i : Nat) (a : ReaderAction)
  | client (a : ClientAction)
  | ping (j : Nat) (a : PingAction)
  | writer (a : WriterAction)
  deriving DecidableEq, Repr

variable {ts : Targets}

def State.setReader (s : State ts) (i : Nat) (r : Reader) : State ts :=
  { s with readers := s.readers.set i r }

def State.setPing (s : State ts) (j : Nat) (p : Ping) : State ts :=
  { s with pings := s.pings.set j p }

def adapterWebsocketReader (s : State ts) (i : Nat) (r : Reader) : ReaderAction → Option (State ts)
  | .check =>
      if r.pc = .loop then
        some (s.setReader i { r with pc := if s.shutdown then .done else .reading })
      else none
  | .read type message =>
      if r.pc = .reading then
        some (s.setReader i { r with
          pc := .sending ⟨.adapter i, type, .document ⟨r.target, message⟩⟩ })
      else none
  | .fail => if r.pc = .reading then some (s.setReader i { r with pc := .dying }) else none
  | .send =>
      match r.pc with
      | .sending p => (s.msg.send? p).map fun msg => { s.setReader i { r with pc := .loop } with msg }
      | _ => none
  | .report =>
      if r.pc = .dying then
        (s.dead.send? r.target).map fun dead => { s.setReader i { r with pc := .done } with dead }
      else none

def pong : Post := ⟨.client, .text, .raw (bytes "pong")⟩

/-- Returning closes the client's connection. -/
def State.closeReader (s : State ts) : State ts := { s with client := .done, broken := true }

def clientWebsocketReader (s : State ts) : ClientAction → Option (State ts)
  | .check =>
      if s.client = .loop then
        some (if s.shutdown || s.clientDead then s.closeReader else { s with client := .reading })
      else none
  | .read type message =>
      if s.client = .reading then
        some { s with
          client := if type = .text ∧ message = bytes "ping" then .sending pong else .loop }
      else none
  | .fail =>
      if s.client = .reading then some { s.closeReader with clientDead := true } else none
  | .send =>
      match s.client with
      | .sending p => (s.msg.send? p).map fun msg => { s with msg, client := .loop }
      | _ => none

/-- The connection a ping is written to is closed once its reader has returned. -/
def State.open (s : State ts) (conn : Nat) : Bool :=
  match s.readers[conn]? with
  | some r => r.pc ≠ .done
  | none => false

def pingAdapter (s : State ts) (j : Nat) (p : Ping) : PingAction → Option (State ts)
  | .ok =>
      if p.pc = .writing ∧ s.open p.conn then some (s.setPing j { p with pc := .done }) else none
  | .fail => if p.pc = .writing then some (s.setPing j { p with pc := .dying }) else none
  | .report =>
      if p.pc = .dying then
        (s.dead.send? p.adapter).map fun dead => { s.setPing j { p with pc := .done } with dead }
      else none

/-- The notice the writer puts on `msg` for a dead adapter. -/
def closedNotice (adapter : String) : Post :=
  ⟨.writer, .text, .document ⟨adapter, bytes "websocket closed"⟩⟩

/-- What the writer makes of a message before it writes it. -/
def answerPing (p : Post) : Post :=
  if p.message.type = .text ∧ p.message.message = .raw (bytes "ping") then
    { p with message := { p.message with message := .raw (bytes "pong") } }
  else p

def State.closeClient (s : State ts) (sent : Bool) : State ts :=
  if sent && !s.broken then { s with written := s.written ++ [.close] } else s

def clientWebsocketWriter (s : State ts) : WriterAction → Option (State ts)
  | .shutdown sent =>
      if s.writer = .selecting ∧ s.shutdown then
        some { s.closeClient sent with writer := .done .shutdown }
      else none
  | .clientDead =>
      if s.writer = .selecting ∧ s.clientDead then some { s with writer := .done .clientDead } else none
  | .tick =>
      if s.writer = .selecting then
        some { s with
          pings := s.pings ++ s.living.entries.map fun e => ⟨e.1, e.2, .writing⟩
          writer := .checking }
      else none
  | .dead =>
      if s.writer = .selecting then
        s.dead.receive?.map fun (adapter, dead) =>
          { s with dead, living := s.living.erase adapter, writer := .notice (closedNotice adapter) }
      else none
  | .message =>
      if s.writer = .selecting then
        s.msg.receive?.map fun (p, msg) => { s with msg, writer := .writing (answerPing p) }
      else none
  | .sendNotice =>
      match s.writer with
      | .notice p => (s.msg.send? p).map fun msg => { s with msg, writer := .checking }
      | _ => none
  | .written =>
      match s.writer with
      | .writing p =>
          if s.broken then none
          else some { s with written := s.written ++ [.message p], writer := .checking }
      | _ => none
  | .writeFailed =>
      match s.writer with
      | .writing _ => some { s with broken := true, clientDead := true, writer := .selecting }
      | _ => none
  | .check sent =>
      if s.writer = .checking then
        some (if s.living.entries.isEmpty then { s.closeClient sent with writer := .done .noAdapters }
          else { s with writer := .selecting })
      else none

def step (s : State ts) : Action → Option (State ts)
  | .shutdown => some { s with shutdown := true }
  | .reader i a => s.readers[i]?.bind fun r => adapterWebsocketReader s i r a
  | .client a => clientWebsocketReader s a
  | .ping j a => s.pings[j]?.bind fun p => pingAdapter s j p a
  | .writer a => clientWebsocketWriter s a

/-! ## What one step can do -/

inductive ReaderNext (s : State ts) (i : Nat) (r : Reader) : ReaderAction → State ts → Prop where
  | checked (hpc : r.pc = .loop) :
      ReaderNext s i r .check (s.setReader i { r with pc := if s.shutdown then .done else .reading })
  | read (type : MessageType) (message : Bytes) (hpc : r.pc = .reading) :
      ReaderNext s i r (.read type message) (s.setReader i { r with
        pc := .sending ⟨.adapter i, type, .document ⟨r.target, message⟩⟩ })
  | failed (hpc : r.pc = .reading) : ReaderNext s i r .fail (s.setReader i { r with pc := .dying })
  | sent (p : Post) (msg : Chan Post ts.hosts.length) (hpc : r.pc = .sending p)
      (hmsg : s.msg.send? p = some msg) :
      ReaderNext s i r .send { s.setReader i { r with pc := .loop } with msg }
  | reported (dead : Chan String ts.hosts.length) (hpc : r.pc = .dying)
      (hdead : s.dead.send? r.target = some dead) :
      ReaderNext s i r .report { s.setReader i { r with pc := .done } with dead }

inductive ClientNext (s : State ts) : ClientAction → State ts → Prop where
  | returned (hpc : s.client = .loop) (h : (s.shutdown || s.clientDead) = true) :
      ClientNext s .check s.closeReader
  | checked (hpc : s.client = .loop) (h : (s.shutdown || s.clientDead) = false) :
      ClientNext s .check { s with client := .reading }
  | pinged (hpc : s.client = .reading) :
      ClientNext s (.read .text (bytes "ping")) { s with client := .sending pong }
  | ignored (type : MessageType) (message : Bytes) (hpc : s.client = .reading)
      (h : ¬ (type = .text ∧ message = bytes "ping")) :
      ClientNext s (.read type message) { s with client := .loop }
  | failed (hpc : s.client = .reading) : ClientNext s .fail { s.closeReader with clientDead := true }
  | sent (p : Post) (msg : Chan Post ts.hosts.length) (hpc : s.client = .sending p)
      (hmsg : s.msg.send? p = some msg) : ClientNext s .send { s with msg, client := .loop }

inductive PingNext (s : State ts) (j : Nat) (p : Ping) : PingAction → State ts → Prop where
  | ok (hpc : p.pc = .writing) (hopen : s.open p.conn = true) :
      PingNext s j p .ok (s.setPing j { p with pc := .done })
  | failed (hpc : p.pc = .writing) : PingNext s j p .fail (s.setPing j { p with pc := .dying })
  | reported (dead : Chan String ts.hosts.length) (hpc : p.pc = .dying)
      (hdead : s.dead.send? p.adapter = some dead) :
      PingNext s j p .report { s.setPing j { p with pc := .done } with dead }

inductive WriterNext (s : State ts) : WriterAction → State ts → Prop where
  | shutdown (sent : Bool) (hpc : s.writer = .selecting) (h : s.shutdown = true) :
      WriterNext s (.shutdown sent) { s.closeClient sent with writer := .done .shutdown }
  | clientDead (hpc : s.writer = .selecting) (h : s.clientDead = true) :
      WriterNext s .clientDead { s with writer := .done .clientDead }
  | ticked (hpc : s.writer = .selecting) :
      WriterNext s .tick { s with
        pings := s.pings ++ s.living.entries.map fun e => ⟨e.1, e.2, .writing⟩
        writer := .checking }
  | buried (adapter : String) (dead : Chan String ts.hosts.length) (hpc : s.writer = .selecting)
      (hdead : s.dead.receive? = some (adapter, dead)) :
      WriterNext s .dead
        { s with dead, living := s.living.erase adapter, writer := .notice (closedNotice adapter) }
  | received (p : Post) (msg : Chan Post ts.hosts.length) (hpc : s.writer = .selecting)
      (hmsg : s.msg.receive? = some (p, msg)) :
      WriterNext s .message { s with msg, writer := .writing (answerPing p) }
  | noticed (p : Post) (msg : Chan Post ts.hosts.length) (hpc : s.writer = .notice p)
      (hmsg : s.msg.send? p = some msg) : WriterNext s .sendNotice { s with msg, writer := .checking }
  | wrote (p : Post) (hpc : s.writer = .writing p) (h : s.broken = false) :
      WriterNext s .written { s with written := s.written ++ [.message p], writer := .checking }
  | writeFailed (p : Post) (hpc : s.writer = .writing p) :
      WriterNext s .writeFailed { s with broken := true, clientDead := true, writer := .selecting }
  | finished (sent : Bool) (hpc : s.writer = .checking) (h : s.living.entries.isEmpty = true) :
      WriterNext s (.check sent) { s.closeClient sent with writer := .done .noAdapters }
  | continued (sent : Bool) (hpc : s.writer = .checking) (h : s.living.entries.isEmpty = false) :
      WriterNext s (.check sent) { s with writer := .selecting }

inductive Next (s : State ts) : Action → State ts → Prop where
  | shutdown : Next s .shutdown { s with shutdown := true }
  | reader (i : Nat) (r : Reader) (a : ReaderAction) (t : State ts) (hr : s.readers[i]? = some r)
      (h : ReaderNext s i r a t) : Next s (.reader i a) t
  | client (a : ClientAction) (t : State ts) (h : ClientNext s a t) : Next s (.client a) t
  | ping (j : Nat) (p : Ping) (a : PingAction) (t : State ts) (hp : s.pings[j]? = some p)
      (h : PingNext s j p a t) : Next s (.ping j a) t
  | writer (a : WriterAction) (t : State ts) (h : WriterNext s a t) : Next s (.writer a) t

theorem reader_next {s t : State ts} {i : Nat} {r : Reader} {a : ReaderAction}
    (h : adapterWebsocketReader s i r a = some t) : ReaderNext s i r a t := by
  unfold adapterWebsocketReader at h
  cases a with
  | check =>
      dsimp only at h
      split at h
      · cases h
        exact .checked ‹_›
      · contradiction
  | read type message =>
      dsimp only at h
      split at h
      · cases h
        exact .read type message ‹_›
      · contradiction
  | fail =>
      dsimp only at h
      split at h
      · cases h
        exact .failed ‹_›
      · contradiction
  | send =>
      dsimp only at h
      split at h
      · obtain ⟨msg, hmsg, rfl⟩ := Option.map_eq_some_iff.mp h
        exact .sent _ msg ‹_› hmsg
      · contradiction
  | report =>
      dsimp only at h
      split at h
      · obtain ⟨dead, hdead, rfl⟩ := Option.map_eq_some_iff.mp h
        exact .reported dead ‹_› hdead
      · contradiction

theorem client_next {s t : State ts} {a : ClientAction} (h : clientWebsocketReader s a = some t) :
    ClientNext s a t := by
  unfold clientWebsocketReader at h
  cases a with
  | check =>
      dsimp only at h
      split at h
      · split at h <;> cases h
        · exact .returned ‹_› ‹_›
        · next hrun => exact .checked ‹_› (by simpa using hrun)
      · contradiction
  | read type message =>
      dsimp only at h
      split at h
      · split at h
        · next hping =>
            cases hping.1
            cases hping.2
            cases h
            exact .pinged ‹_›
        · cases h
          exact .ignored type message ‹_› ‹_›
      · contradiction
  | fail =>
      dsimp only at h
      split at h
      · cases h
        exact .failed ‹_›
      · contradiction
  | send =>
      dsimp only at h
      split at h
      · obtain ⟨msg, hmsg, rfl⟩ := Option.map_eq_some_iff.mp h
        exact .sent _ msg ‹_› hmsg
      · contradiction

theorem ping_next {s t : State ts} {j : Nat} {p : Ping} {a : PingAction}
    (h : pingAdapter s j p a = some t) : PingNext s j p a t := by
  unfold pingAdapter at h
  cases a with
  | ok =>
      dsimp only at h
      split at h
      · next hok =>
          cases h
          exact .ok hok.1 hok.2
      · contradiction
  | fail =>
      dsimp only at h
      split at h
      · cases h
        exact .failed ‹_›
      · contradiction
  | report =>
      dsimp only at h
      split at h
      · obtain ⟨dead, hdead, rfl⟩ := Option.map_eq_some_iff.mp h
        exact .reported dead ‹_› hdead
      · contradiction

theorem writer_next {s t : State ts} {a : WriterAction} (h : clientWebsocketWriter s a = some t) :
    WriterNext s a t := by
  unfold clientWebsocketWriter at h
  cases a with
  | shutdown sent =>
      dsimp only at h
      split at h
      · next hs =>
          cases h
          exact .shutdown sent hs.1 hs.2
      · contradiction
  | clientDead =>
      dsimp only at h
      split at h
      · next hs =>
          cases h
          exact .clientDead hs.1 hs.2
      · contradiction
  | tick =>
      dsimp only at h
      split at h
      · cases h
        exact .ticked ‹_›
      · contradiction
  | dead =>
      dsimp only at h
      split at h
      · obtain ⟨⟨adapter, dead⟩, hdead, rfl⟩ := Option.map_eq_some_iff.mp h
        exact .buried adapter dead ‹_› hdead
      · contradiction
  | message =>
      dsimp only at h
      split at h
      · obtain ⟨⟨p, msg⟩, hmsg, rfl⟩ := Option.map_eq_some_iff.mp h
        exact .received p msg ‹_› hmsg
      · contradiction
  | sendNotice =>
      dsimp only at h
      split at h
      · obtain ⟨msg, hmsg, rfl⟩ := Option.map_eq_some_iff.mp h
        exact .noticed _ msg ‹_› hmsg
      · contradiction
  | written =>
      dsimp only at h
      split at h
      · split at h
        · contradiction
        · next hb =>
            cases h
            exact .wrote _ ‹_› (by simpa using hb)
      · contradiction
  | writeFailed =>
      dsimp only at h
      split at h
      · cases h
        exact .writeFailed _ ‹_›
      · contradiction
  | check sent =>
      dsimp only at h
      split at h
      · split at h <;> cases h
        · exact .finished sent ‹_› ‹_›
        · next hne => exact .continued sent ‹_› (by simpa using hne)
      · contradiction

theorem step_next {s t : State ts} {a : Action} (h : step s a = some t) : Next s a t := by
  cases a with
  | shutdown =>
      cases h
      exact .shutdown
  | reader i a =>
      obtain ⟨r, hr, h⟩ := Option.bind_eq_some_iff.mp h
      exact .reader i r a t hr (reader_next h)
  | client a => exact .client a t (client_next h)
  | ping j a =>
      obtain ⟨p, hp, h⟩ := Option.bind_eq_some_iff.mp h
      exact .ping j p a t hp (ping_next h)
  | writer a => exact .writer a t (writer_next h)

/-! ## The connections at the start -/

theorem adapterConns_lookup {adapter : String} {i : Nat}
    (h : (adapterConns ts).lookup adapter = some i) : ts.hosts[i]? = some adapter := by
  rcases lookup_insertAll (l := ts.hosts.zipIdx) h with hmem | hempty
  · exact List.mem_zipIdx_iff_getElem?.mp hmem
  · cases hempty

theorem mem_adapterConns (adapter : String) : adapter ∈ adapterConns ts ↔ adapter ∈ ts.hosts := by
  have hmem := mem_insertAll (∅ : GoMap Nat) ts.hosts.zipIdx adapter
  rw [List.zipIdx_map_fst] at hmem
  exact hmem.trans (or_iff_right (AList.notMem_empty adapter))

/-! ## One reader alone -/

theorem setReader_getElem? {s : State ts} {i : Nat} {r : Reader} (hr : s.readers[i]? = some r)
    (r' : Reader) : (s.setReader i r').readers[i]? = some r' := by
  have hi := (List.getElem?_eq_some_iff.mp hr).1
  simp [State.setReader, hi]

theorem setReader_self {s : State ts} {i : Nat} {r : Reader} (hr : s.readers[i]? = some r) :
    s.setReader i r = s := by
  obtain ⟨hi, rfl⟩ := List.getElem?_eq_some_iff.mp hr
  simp only [State.setReader, List.set_getElem_self]

@[simp] theorem setReader_setReader (s : State ts) (i : Nat) (r r' : Reader) :
    (s.setReader i r).setReader i r' = s.setReader i r' := by
  simp only [State.setReader, List.set_set]

/-- A reader at the top of its loop goes on to read while the server runs. -/
theorem reaches_reading {s : State ts} {i : Nat} {r : Reader} (hr : s.readers[i]? = some r)
    (hpc : r.pc = .loop) (hrun : s.shutdown = false) :
    Reaches step s (s.setReader i { r with pc := .reading }) := by
  apply Reaches.single (l := .reader i .check)
  simp [step, hr, adapterWebsocketReader, hpc, hrun]

theorem reaches_sending {s : State ts} {i : Nat} {r : Reader} (hr : s.readers[i]? = some r)
    (hpc : r.pc = .loop) (hrun : s.shutdown = false) :
    ∃ p, Reaches step s (s.setReader i { r with pc := .sending p }) := by
  refine ⟨⟨.adapter i, .text, .document ⟨r.target, []⟩⟩, (reaches_reading hr hpc hrun).tail
    (l := .reader i (.read .text [])) ?_⟩
  simp [step, setReader_getElem? hr, adapterWebsocketReader]

/-- A reader forwards one message into a free slot and is back at its loop. -/
theorem reaches_forwarded {s : State ts} {i : Nat} {r : Reader} (hr : s.readers[i]? = some r)
    (hpc : r.pc = .loop) (hrun : s.shutdown = false) (hfree : ¬ s.msg.Full) :
    ∃ msg, msg.length = s.msg.length + 1 ∧ Reaches step s { s with msg } := by
  obtain ⟨p, hp⟩ := reaches_sending hr hpc hrun
  obtain ⟨msg, hmsg⟩ := Chan.send_isSome hfree p
  refine ⟨msg, Chan.send_length hmsg, hp.tail (l := .reader i .send) ?_⟩
  have hmsg' : (s.setReader i { r with pc := .sending p }).msg.send? p = some msg := hmsg
  have hself : s.setReader i { r with pc := .loop } = s := by
    rw [← hpc]
    exact setReader_self hr
  simp only [step, setReader_getElem? hr, Option.bind_some, adapterWebsocketReader, hmsg',
    Option.map_some, setReader_setReader, hself]

/-- One reader alone can fill `msg`. -/
theorem reaches_full {s : State ts} {i : Nat} {r : Reader} (hr : s.readers[i]? = some r)
    (hpc : r.pc = .loop) (hrun : s.shutdown = false) :
    ∃ msg, msg.Full ∧ Reaches step s { s with msg } := by
  have hfill : ∃ t, Reaches step s t ∧ (∃ msg, t = { s with msg }) ∧ t.msg.Full := by
    apply reaches_of_decreasing (fun t => ts.hosts.length - t.msg.length)
    · intro _ hsame hfree
      rcases hsame with ⟨msg, rfl⟩
      obtain ⟨msg', hlen, hmsg'⟩ := reaches_forwarded (s := { s with msg }) hr hpc hrun hfree
      have hroom := msg'.length_le
      refine ⟨_, hmsg', ⟨msg', rfl⟩, ?_⟩
      dsimp only at hlen ⊢
      omega
    · exact ⟨s.msg, rfl⟩
  rcases hfill with ⟨_, hreach, ⟨msg, rfl⟩, hfull⟩
  exact ⟨msg, hfull, hreach⟩

/-- A reader's death reaches `dead` and is taken by the writer. -/
theorem reaches_buried {s : State ts} {i : Nat} {r : Reader} (hr : s.readers[i]? = some r)
    (hpc : r.pc = .loop) (hrun : s.shutdown = false) (hwriter : s.writer = .selecting)
    (hdead : s.dead.queue = []) :
    Reaches step s { s.setReader i { r with pc := .done } with
      living := s.living.erase r.target, writer := .notice (closedNotice r.target) } := by
  have hfail : step (s.setReader i { r with pc := .reading }) (.reader i .fail) =
      some (s.setReader i { r with pc := .dying }) := by
    simp [step, setReader_getElem? hr, adapterWebsocketReader]
  have hfree : ¬ s.dead.Full := by
    have hcap := List.length_pos_iff.mpr ts.nonempty
    unfold Chan.Full Chan.length
    rw [hdead, List.length_nil]
    omega
  obtain ⟨dead, hsend⟩ := Chan.send_isSome hfree r.target
  have hreport : step (s.setReader i { r with pc := .dying }) (.reader i .report) =
      some { s.setReader i { r with pc := .done } with dead } := by
    have hsend' : (s.setReader i { r with pc := .dying }).dead.send? r.target = some dead := hsend
    simp [step, setReader_getElem? hr, adapterWebsocketReader, hsend']
  have hreceive : dead.receive? = some (r.target, s.dead) := by
    cases hs : s.dead with
    | mk queue bounded =>
        rw [hs] at hsend hdead
        cases hdead
        unfold Chan.send? at hsend
        split at hsend
        · cases hsend
          rfl
        · contradiction
  have htake : step { s.setReader i { r with pc := .done } with dead } (.writer .dead) =
      some { s.setReader i { r with pc := .done } with
        living := s.living.erase r.target, writer := .notice (closedNotice r.target) } := by
    simp only [step, clientWebsocketWriter, State.setReader, hwriter, if_pos, hreceive,
      Option.map_some]
  have hdying := (reaches_reading hr hpc hrun).tail hfail
  exact (hdying.tail hreport).tail htake

/-- The first reader of a session. -/
theorem first_reader (ts : Targets) :
    ∃ target, (start ts).readers[0]? = some ⟨target, .loop⟩ := by
  cases ts with
  | mk hosts nonempty =>
      cases hosts with
      | nil => exact absurd rfl nonempty
      | cons target rest => exact ⟨target, rfl⟩

end TSymbiote.WebUI.Relay
