import TSymbiote.WebUI.Relay

/-! # The load of a channel

Each channel has a load, its messages together with the goroutines at a send on
it. Apart from the writer, a goroutine that completes a send turns its own load
into that of the message, so that a load of the capacity or more fills the
channel when the writer takes nothing.
-/

namespace TSymbiote.WebUI.Relay

open Shared Transition

variable {ts : Targets} {s t : State ts}

def Reader.putting (r : Reader) : Bool :=
  match r.pc with
  | .sending _ => true
  | _ => false

def Reader.reporting (r : Reader) : Bool := r.pc = .dying

def ClientPc.putting : ClientPc → Nat
  | .sending _ => 1
  | _ => 0

def Ping.reporting (p : Ping) : Bool := p.pc = .dying

/-- The messages on `msg` and the goroutines, the writer apart, at a send on it. -/
def State.msgLoad (s : State ts) : Nat :=
  s.msg.length + s.readers.countP Reader.putting + s.client.putting

/-- The keys on `dead` and the goroutines at a send on it. -/
def State.deadLoad (s : State ts) : Nat :=
  s.dead.length + s.readers.countP Reader.reporting + s.pings.countP Ping.reporting

/-- Goroutines that an action brings to a send on `msg`. -/
def Action.puts : Action → Nat
  | .reader _ (.read _ _) => 1
  | .client (.read type message) => if type = .text ∧ message = bytes "ping" then 1 else 0
  | _ => 0

/-- Goroutines that an action brings to a send on `dead`. -/
def Action.reports : Action → Nat
  | .reader _ .fail => 1
  | .ping _ .fail => 1
  | _ => 0

/-! ## Loads -/

theorem countP_set {α : Type} (p : α → Bool) {l : List α} {i : Nat} {a : α} (h : l[i]? = some a)
    (b : α) : (l.set i b).countP p + (p a).toNat = l.countP p + (p b).toNat := by
  obtain ⟨hi, rfl⟩ := List.getElem?_eq_some_iff.mp h
  rw [List.countP_set hi]
  cases hp : p l[i] with
  | false => cases p b <;> simp
  | true =>
      have hpos : 0 < l.countP p := List.countP_pos_iff.mpr ⟨_, List.getElem_mem hi, hp⟩
      cases p b <;> simp only [if_true, Bool.toNat_true, Bool.toNat_false, Bool.false_eq_true,
        if_false] <;> omega

theorem setReader_load {i : Nat} {r : Reader} (hr : s.readers[i]? = some r) (r' : Reader) :
    (s.setReader i r').msgLoad + r.putting.toNat = s.msgLoad + r'.putting.toNat ∧
      (s.setReader i r').deadLoad + r.reporting.toNat = s.deadLoad + r'.reporting.toNat := by
  have hput := countP_set Reader.putting hr r'
  have hreport := countP_set Reader.reporting hr r'
  unfold State.msgLoad State.deadLoad State.setReader
  dsimp only
  omega

theorem setPing_load {j : Nat} {p : Ping} (hp : s.pings[j]? = some p) (p' : Ping) :
    (s.setPing j p').msgLoad = s.msgLoad ∧
      (s.setPing j p').deadLoad + p.reporting.toNat = s.deadLoad + p'.reporting.toNat := by
  have hreport := countP_set Ping.reporting hp p'
  unfold State.msgLoad State.deadLoad State.setPing
  dsimp only
  omega

theorem put_load {p : Post} {msg : Chan Post ts.hosts.length} (h : s.msg.send? p = some msg) :
    { s with msg }.msgLoad = s.msgLoad + 1 ∧ { s with msg }.deadLoad = s.deadLoad := by
  have hlen := Chan.send_length h
  unfold State.msgLoad State.deadLoad
  dsimp only
  omega

theorem report_load {key : String} {dead : Chan String ts.hosts.length}
    (h : s.dead.send? key = some dead) :
    { s with dead }.msgLoad = s.msgLoad ∧ { s with dead }.deadLoad = s.deadLoad + 1 := by
  have hlen := Chan.send_length h
  unfold State.msgLoad State.deadLoad
  dsimp only
  omega

/-- A completed send turns the load of the goroutine into that of the message. -/
theorem reader_load {i : Nat} {r : Reader} {a : ReaderAction} (hr : s.readers[i]? = some r)
    (h : ReaderNext s i r a t) :
    t.msgLoad = s.msgLoad + (Action.reader i a).puts ∧
      t.deadLoad = s.deadLoad + (Action.reader i a).reports := by
  unfold Action.puts Action.reports
  cases h with
  | checked hpc =>
      have hload := setReader_load hr { r with pc := if s.shutdown then .done else .reading }
      cases hs : s.shutdown <;> simpa [Reader.putting, Reader.reporting, hpc, hs] using hload
  | read type message hpc =>
      have hload := setReader_load hr { r with
        pc := .sending ⟨.adapter i, type, .document ⟨r.target, message⟩⟩ }
      simpa [Reader.putting, Reader.reporting, hpc] using hload
  | failed hpc =>
      have hload := setReader_load hr { r with pc := .dying }
      simpa [Reader.putting, Reader.reporting, hpc] using hload
  | sent p msg hpc hmsg =>
      have hload := setReader_load hr { r with pc := .loop }
      have hput := put_load (s := s.setReader i { r with pc := .loop }) hmsg
      rw [hput.1, hput.2]
      simpa [Reader.putting, Reader.reporting, hpc] using hload
  | reported dead hpc hdead =>
      have hload := setReader_load hr { r with pc := .done }
      have hreport := report_load (s := s.setReader i { r with pc := .done }) hdead
      rw [hreport.1, hreport.2]
      simpa [Reader.putting, Reader.reporting, hpc] using hload

theorem client_load {a : ClientAction} (h : ClientNext s a t) :
    t.msgLoad = s.msgLoad + (Action.client a).puts ∧ t.deadLoad = s.deadLoad := by
  unfold State.msgLoad State.deadLoad
  cases h with
  | returned hpc hstop => simp [State.closeReader, ClientPc.putting, hpc, Action.puts]
  | checked hpc hrun => simp [ClientPc.putting, hpc, Action.puts]
  | pinged hpc => simp [ClientPc.putting, hpc, Action.puts]
  | ignored type message hpc hno => simp [ClientPc.putting, hpc, Action.puts, hno]
  | failed hpc => simp [State.closeReader, ClientPc.putting, hpc, Action.puts]
  | sent p msg hpc hmsg =>
      have hlen := Chan.send_length hmsg
      simp only [ClientPc.putting, hpc, Action.puts, and_true]
      omega

theorem ping_load {j : Nat} {p : Ping} {a : PingAction} (hp : s.pings[j]? = some p)
    (h : PingNext s j p a t) :
    t.msgLoad = s.msgLoad ∧ t.deadLoad = s.deadLoad + (Action.ping j a).reports := by
  unfold Action.reports
  cases h with
  | ok hpc hopen =>
      have hload := setPing_load hp { p with pc := .done }
      simpa [Ping.reporting, hpc] using hload
  | failed hpc =>
      have hload := setPing_load hp { p with pc := .dying }
      simpa [Ping.reporting, hpc] using hload
  | reported dead hpc hdead =>
      have hload := setPing_load hp { p with pc := .done }
      have hreport := report_load (s := s.setPing j { p with pc := .done }) hdead
      rw [hreport.1, hreport.2]
      simpa [Ping.reporting, hpc] using hload

theorem closeClient_load (s : State ts) (sent : Bool) :
    (s.closeClient sent).msgLoad = s.msgLoad ∧ (s.closeClient sent).deadLoad = s.deadLoad := by
  unfold State.closeClient
  split <;> exact ⟨rfl, rfl⟩

theorem reader_writer {i : Nat} {r : Reader} {a : ReaderAction} (h : ReaderNext s i r a t) :
    t.writer = s.writer := by
  cases h <;> rfl

theorem client_writer {a : ClientAction} (h : ClientNext s a t) : t.writer = s.writer := by
  cases h <;> rfl

theorem ping_writer {j : Nat} {p : Ping} {a : PingAction} (h : PingNext s j p a t) :
    t.writer = s.writer := by
  cases h <;> rfl

/-! ## A load of the capacity fills the channel -/

/-- A goroutine at a send on `msg` sends while there is a free slot. -/
theorem exists_put (hfree : ¬ s.msg.Full) (hload : s.msg.length < s.msgLoad) :
    ∃ a t, step s a = some t ∧ t.msg.length = s.msg.length + 1 ∧ t.msgLoad = s.msgLoad ∧
      t.writer = s.writer := by
  by_cases hclient : 0 < s.client.putting
  · cases hpc : s.client with
    | sending p =>
        obtain ⟨msg, hmsg⟩ := Chan.send_isSome hfree p
        refine ⟨.client .send, { s with msg, client := .loop }, ?_, Chan.send_length hmsg,
          (client_load (.sent p msg hpc hmsg)).1, rfl⟩
        simp [step, clientWebsocketReader, hpc, hmsg]
    | _ => simp [hpc, ClientPc.putting] at hclient
  · have hreader : 0 < s.readers.countP Reader.putting := by
      unfold State.msgLoad at hload
      omega
    obtain ⟨r, hr, hput⟩ := List.countP_pos_iff.mp hreader
    obtain ⟨i, hi⟩ := List.getElem?_of_mem hr
    cases hpc : r.pc with
    | sending p =>
        obtain ⟨msg, hmsg⟩ := Chan.send_isSome hfree p
        refine ⟨.reader i .send, { s.setReader i { r with pc := .loop } with msg }, ?_,
          Chan.send_length hmsg, (reader_load hi (.sent p msg hpc hmsg)).1, rfl⟩
        simp [step, hi, adapterWebsocketReader, hpc, hmsg]
    | _ => simp [Reader.putting, hpc] at hput

theorem exists_report (hfree : ¬ s.dead.Full) (hload : s.dead.length < s.deadLoad) :
    ∃ a t, step s a = some t ∧ t.dead.length = s.dead.length + 1 ∧ t.deadLoad = s.deadLoad ∧
      t.writer = s.writer := by
  by_cases hping : 0 < s.pings.countP Ping.reporting
  · obtain ⟨p, hp, hreport⟩ := List.countP_pos_iff.mp hping
    obtain ⟨j, hj⟩ := List.getElem?_of_mem hp
    have hpc : p.pc = .dying := of_decide_eq_true hreport
    obtain ⟨dead, hdead⟩ := Chan.send_isSome hfree p.adapter
    refine ⟨.ping j .report, { s.setPing j { p with pc := .done } with dead }, ?_,
      Chan.send_length hdead, (ping_load hj (.reported dead hpc hdead)).2, rfl⟩
    simp [step, hj, pingAdapter, hpc, hdead]
  · have hreader : 0 < s.readers.countP Reader.reporting := by
      unfold State.deadLoad at hload
      omega
    obtain ⟨r, hr, hreport⟩ := List.countP_pos_iff.mp hreader
    obtain ⟨i, hi⟩ := List.getElem?_of_mem hr
    have hpc : r.pc = .dying := of_decide_eq_true hreport
    obtain ⟨dead, hdead⟩ := Chan.send_isSome hfree r.target
    refine ⟨.reader i .report, { s.setReader i { r with pc := .done } with dead }, ?_,
      Chan.send_length hdead, (reader_load hi (.reported dead hpc hdead)).2, rfl⟩
    simp [step, hi, adapterWebsocketReader, hpc, hdead]

/-- The goroutines at a send on `msg` fill it, when the load is that high. -/
theorem reaches_msg_full (hload : ts.hosts.length ≤ s.msgLoad) :
    ∃ t, Reaches step s t ∧ (t.msgLoad = s.msgLoad ∧ t.writer = s.writer) ∧ t.msg.Full := by
  apply reaches_of_decreasing (fun t => ts.hosts.length - t.msg.length)
  · intro t hsame hfree
    rcases hsame with ⟨heq, hwriter⟩
    have hlt := (Chan.not_full_iff t.msg).mp hfree
    obtain ⟨a, u, hstep, hlen, hload', hwriter'⟩ := exists_put hfree (by omega)
    exact ⟨u, Reaches.single hstep, ⟨hload'.trans heq, hwriter'.trans hwriter⟩, by omega⟩
  · exact ⟨rfl, rfl⟩

theorem reaches_dead_full (hload : ts.hosts.length ≤ s.deadLoad) :
    ∃ t, Reaches step s t ∧ (t.deadLoad = s.deadLoad ∧ t.writer = s.writer) ∧ t.dead.Full := by
  apply reaches_of_decreasing (fun t => ts.hosts.length - t.dead.length)
  · intro t hsame hfree
    rcases hsame with ⟨heq, hwriter⟩
    have hlt := (Chan.not_full_iff t.dead).mp hfree
    obtain ⟨a, u, hstep, hlen, hload', hwriter'⟩ := exists_report hfree (by omega)
    exact ⟨u, Reaches.single hstep, ⟨hload'.trans heq, hwriter'.trans hwriter⟩, by omega⟩
  · exact ⟨rfl, rfl⟩

end TSymbiote.WebUI.Relay
