import TSymbiote.WebUI.Relay.CloseDown

/-! # What becomes of failures and pings

A failed connection of an adapter is announced to the client by one notice, and
a ping of the client is answered by one pong. The goroutines hand both on over
the channels, one at a time, and only a failed write loses one: the ledger of
what has failed, what is under way and what is written stays balanced.
-/

namespace TSymbiote.WebUI.Relay

open Shared Transition

variable {ts : Targets} {s t : State ts}

/-! ## Tokens -/

def WriterPc.holds (p : Post) : WriterPc → Bool
  | .notice q => q = p
  | .writing q => q = p
  | _ => false

/-- Copies of a message with the writer, on `msg` and written. -/
def State.posted (p : Post) (s : State ts) : Nat :=
  (s.writer.holds p).toNat + s.msg.queue.count p + s.written.count (.message p)

def Reader.dyingAs (host : String) (r : Reader) : Bool := r.pc = .dying ∧ r.target = host

def Ping.dyingAs (host : String) (p : Ping) : Bool := p.pc = .dying ∧ p.adapter = host

/-- Failures of `host` that are yet to be taken from `dead`. -/
def State.unburied (host : String) (s : State ts) : Nat :=
  s.readers.countP (Reader.dyingAs host) + s.pings.countP (Ping.dyingAs host) +
    s.dead.queue.count host

/-- The notices about `host` that the client has been written. -/
def State.notices (host : String) (s : State ts) : Nat :=
  s.written.count (.message (closedNotice host))

/-- Failures of `host` that the client has not been written about. -/
def State.unannounced (host : String) (s : State ts) : Nat :=
  s.unburied host + (s.writer.holds (closedNotice host)).toNat +
    s.msg.queue.count (closedNotice host)

def ClientPc.holds (p : Post) : ClientPc → Bool
  | .sending q => q = p
  | _ => false

/-- The pongs that the client has been written. -/
def State.pongs (s : State ts) : Nat := s.written.count (.message pong)

def State.unanswered (s : State ts) : Nat :=
  (s.client.holds pong).toNat + (s.writer.holds pong).toNat + s.msg.queue.count pong

/-- The target whose connection a step finds broken. -/
def failing (s : State ts) : Action → List String
  | .reader i .fail => ((s.readers[i]?).map Reader.target).toList
  | .ping j .fail => ((s.pings[j]?).map Ping.adapter).toList
  | _ => []

/-- The targets whose connections failed in a run, in order. -/
def failures (ts : Targets) (as : List Action) : List String := emitted step failing (start ts) as

def Action.asks : Action → Bool
  | .client (.read type message) => type = .text ∧ message = bytes "ping"
  | _ => false

/-- The pings that the client's reader has read in a run. -/
def asked (as : List Action) : Nat := as.countP Action.asks

/-! ## Who wrote what -/

/-- The messages that the goroutines make. -/
inductive Authored (ts : Targets) : Post → Prop where
  | pong : Authored ts pong
  | notice (adapter : String) : Authored ts (closedNotice adapter)
  | document {i : Nat} {host : String} (hi : ts.hosts[i]? = some host) (type : MessageType)
      (message : Bytes) : Authored ts ⟨.adapter i, type, .document ⟨host, message⟩⟩

theorem Authored.answerPing_eq {p : Post} (h : Authored ts p) : answerPing p = p := by
  cases h with
  | pong => decide
  | notice adapter => exact if_neg fun hping => by cases hping.2
  | document hi type message => exact if_neg fun hping => by cases hping.2

/-- Only messages of the goroutines are anywhere in the session. -/
structure Orderly (s : State ts) : Prop where
  genuine : Genuine s
  noticing : ∀ {p}, s.writer = .notice p → ∃ adapter, p = closedNotice adapter
  queued : ∀ p ∈ s.msg.queue, Authored ts p
  writing : ∀ {p}, s.writer = .writing p → Authored ts p
  written : ∀ p, .message p ∈ s.written → Authored ts p

theorem Orderly.sending (hs : Orderly s) {j : Nat} {r : Reader} {p : Post}
    (hr : s.readers[j]? = some r) (hpc : r.pc = .sending p) : Authored ts p := by
  obtain ⟨type, message, rfl⟩ := hs.genuine.sending hr hpc
  exact .document (hs.genuine.target hr) type message

theorem Orderly.send (hs : Orderly s) {p : Post} (hp : Authored ts p)
    {msg : Chan Post ts.hosts.length} (hmsg : s.msg.send? p = some msg) :
    ∀ q ∈ msg.queue, Authored ts q := by
  rw [Chan.send_queue hmsg]
  intro q hq
  rcases List.mem_append.mp hq with hold | hnew
  · exact hs.queued q hold
  · exact List.mem_singleton.mp hnew ▸ hp

theorem writer_orderly {a : WriterAction} (hs : Orderly s) (hgenuine : Genuine t)
    (h : WriterNext s a t) : Orderly t := by
  cases h with
  | shutdown sent hpc hstop =>
      refine ⟨hgenuine, by simp, ?_, by simp, ?_⟩
      · rw [(closeClient_channels s sent).1]
        exact hs.queued
      · exact fun p hp => hs.written p ((closeClient_message s sent p).mp hp)
  | clientDead hpc hdead => exact ⟨hgenuine, by simp, hs.queued, by simp, hs.written⟩
  | ticked hpc => exact ⟨hgenuine, by simp, hs.queued, by simp, hs.written⟩
  | buried adapter dead hpc hdead =>
      exact ⟨hgenuine, fun hp => ⟨adapter, (WriterPc.notice.inj hp).symm⟩, hs.queued, by simp,
        hs.written⟩
  | received p msg hpc hmsg =>
      have hqueue := Chan.receive_queue hmsg
      have hp : Authored ts p := hs.queued p (hqueue ▸ List.mem_cons_self)
      refine ⟨hgenuine, by simp, ?_, ?_, hs.written⟩
      · exact fun q hq => hs.queued q (hqueue ▸ List.mem_cons_of_mem p hq)
      · intro q hq
        cases hq
        rwa [hp.answerPing_eq]
  | noticed p msg hpc hmsg =>
      obtain ⟨adapter, rfl⟩ := hs.noticing hpc
      exact ⟨hgenuine, by simp, hs.send (.notice adapter) hmsg, by simp, hs.written⟩
  | wrote p hpc hb =>
      refine ⟨hgenuine, by simp, hs.queued, by simp, ?_⟩
      intro q hq
      rcases List.mem_append.mp hq with hold | hnew
      · exact hs.written q hold
      · cases List.mem_singleton.mp hnew
        exact hs.writing hpc
  | writeFailed p hpc => exact ⟨hgenuine, by simp, hs.queued, by simp, hs.written⟩
  | finished sent hpc hnone =>
      refine ⟨hgenuine, by simp, ?_, by simp, ?_⟩
      · rw [(closeClient_channels s sent).1]
        exact hs.queued
      · exact fun p hp => hs.written p ((closeClient_message s sent p).mp hp)
  | continued sent hpc hsome => exact ⟨hgenuine, by simp, hs.queued, by simp, hs.written⟩

theorem next_orderly {a : Action} (hs : Orderly s) (h : Next s a t) : Orderly t := by
  have hgenuine := next_genuine h hs.genuine
  cases h with
  | shutdown => exact ⟨hgenuine, hs.noticing, hs.queued, hs.writing, hs.written⟩
  | reader i r a _ hr h =>
      cases h with
      | sent p msg hpc hmsg =>
          exact ⟨hgenuine, hs.noticing, hs.send (hs.sending hr hpc) hmsg, hs.writing, hs.written⟩
      | _ => exact ⟨hgenuine, hs.noticing, hs.queued, hs.writing, hs.written⟩
  | client a _ h =>
      cases h with
      | sent p msg hpc hmsg =>
          have hp : Authored ts p := hs.genuine.client hpc ▸ .pong
          exact ⟨hgenuine, hs.noticing, hs.send hp hmsg, hs.writing, hs.written⟩
      | _ => exact ⟨hgenuine, hs.noticing, hs.queued, hs.writing, hs.written⟩
  | ping j p a _ hp h =>
      cases h <;> exact ⟨hgenuine, hs.noticing, hs.queued, hs.writing, hs.written⟩
  | writer a _ h => exact writer_orderly hs hgenuine h

theorem start_orderly (ts : Targets) : Orderly (start ts) where
  genuine := start_genuine ts
  noticing h := by cases h
  queued := List.forall_mem_nil _
  writing h := by cases h
  written _ hp := absurd hp List.not_mem_nil

/-! ## One step -/

/-- What a step of the writer takes from `dead`, made a message. -/
def announced (s : State ts) : WriterAction → List Post
  | .dead => (s.dead.queue.take 1).map closedNotice
  | _ => []

theorem posted_queue {p q : Post} {msg : Chan Post ts.hosts.length} (hmsg : s.msg.send? q = some msg) :
    msg.queue.count p = s.msg.queue.count p + (decide (q = p)).toNat := by
  rw [Chan.send_queue hmsg, List.count_append, List.count_singleton]
  by_cases hqp : q = p
  · simp [hqp]
  · simp [hqp]

theorem closeClient_count (s : State ts) (sent : Bool) (p : Post) :
    (s.closeClient sent).written.count (.message p) = s.written.count (.message p) := by
  unfold State.closeClient
  split
  · rw [List.count_append, List.count_singleton]
    rfl
  · rfl

/-- The writer keeps every message it gets until a write fails. -/
theorem writer_posted {a : WriterAction} (hs : Orderly s) (h : WriterNext s a t) (p : Post) :
    t.posted p ≤ s.posted p + (announced s a).count p ∧
      (t.broken = false → t.posted p = s.posted p + (announced s a).count p) := by
  have hkept : ∀ {u : State ts} {n : Nat}, u.posted p = s.posted p + n →
      u.posted p ≤ s.posted p + n ∧ (u.broken = false → u.posted p = s.posted p + n) :=
    fun hsame => ⟨Nat.le_of_eq hsame, fun _ => hsame⟩
  have hidle : ∀ {u : State ts}, u.writer.holds p = s.writer.holds p →
      u.msg.queue = s.msg.queue → u.written.count (.message p) = s.written.count (.message p) →
      u.posted p = s.posted p := by
    intro u hholds hqueue hwritten
    unfold State.posted
    rw [hholds, hqueue, hwritten]
  cases h with
  | shutdown sent hpc hstop =>
      apply hkept
      refine hidle ?_ (congrArg _ (closeClient_channels s sent).1) (closeClient_count s sent p)
      rw [hpc]
      rfl
  | clientDead hpc hdead => exact hkept (hidle (by rw [hpc]; rfl) rfl rfl)
  | ticked hpc => exact hkept (hidle (by rw [hpc]; rfl) rfl rfl)
  | buried adapter dead hpc hdead =>
      have hnotice : announced s .dead = [closedNotice adapter] := by
        unfold announced
        rw [Chan.receive_queue hdead]
        rfl
      apply hkept
      unfold State.posted
      rw [hpc, hnotice, List.count_singleton]
      by_cases hp : closedNotice adapter = p
      · simp only [WriterPc.holds, hp, decide_true, Bool.toNat_true, Bool.toNat_false, beq_self_eq_true,
          if_true]
        omega
      · simp [WriterPc.holds, hp]
  | received q msg hpc hmsg =>
      have hqueue := Chan.receive_queue hmsg
      have hq : Authored ts q := hs.queued q (hqueue ▸ List.mem_cons_self)
      apply hkept
      unfold State.posted
      rw [hpc, hq.answerPing_eq, hqueue, List.count_cons]
      by_cases hqp : q = p
      · simp only [WriterPc.holds, hqp, decide_true, Bool.toNat_true, Bool.toNat_false,
          beq_self_eq_true, if_true, announced, List.count_nil]
        omega
      · simp [WriterPc.holds, hqp, announced]
  | noticed q msg hpc hmsg =>
      apply hkept
      unfold State.posted
      rw [hpc, posted_queue hmsg]
      simp only [WriterPc.holds, Bool.toNat_false, announced, List.count_nil]
      omega
  | wrote q hpc hb =>
      apply hkept
      unfold State.posted
      rw [hpc, List.count_append, List.count_singleton]
      by_cases hqp : q = p
      · simp only [WriterPc.holds, hqp, decide_true, Bool.toNat_true, Bool.toNat_false,
          beq_self_eq_true, if_true, announced, List.count_nil]
        omega
      · simp [WriterPc.holds, hqp, announced]
  | writeFailed q hpc =>
      refine ⟨?_, fun hb => by cases hb⟩
      unfold State.posted
      simp only [WriterPc.holds, Bool.toNat_false]
      omega
  | finished sent hpc hnone =>
      apply hkept
      refine hidle ?_ (congrArg _ (closeClient_channels s sent).1) (closeClient_count s sent p)
      rw [hpc]
      rfl
  | continued sent hpc hsome => exact hkept (hidle (by rw [hpc]; rfl) rfl rfl)

/-- A reader puts messages of its adapter on `msg`, and no others. -/
theorem reader_posted {i : Nat} {r : Reader} {a : ReaderAction} {p : Post} (hs : Orderly s)
    (hr : s.readers[i]? = some r) (h : ReaderNext s i r a t) (hp : ∀ j, p.sender ≠ .adapter j) :
    t.posted p = s.posted p := by
  cases h with
  | sent q msg hpc hmsg =>
      obtain ⟨type, message, hq⟩ := hs.genuine.sending hr hpc
      have hother : q ≠ p := by
        intro hqp
        exact hp i (by rw [← hqp, hq])
      have hqueue := posted_queue (p := p) hmsg
      rw [decide_eq_false hother, Bool.toNat_false, Nat.add_zero] at hqueue
      unfold State.posted
      rw [hqueue]
      rfl
  | _ => rfl

theorem client_posted {a : ClientAction} {p : Post} (hs : Orderly s) (h : ClientNext s a t)
    (hp : p ≠ pong) : t.posted p = s.posted p := by
  cases h with
  | sent q msg hpc hmsg =>
      have hother : q ≠ p := by
        rw [hs.genuine.client hpc]
        exact hp.symm
      have hqueue := posted_queue (p := p) hmsg
      rw [decide_eq_false hother, Bool.toNat_false, Nat.add_zero] at hqueue
      unfold State.posted
      rw [hqueue]
  | _ => rfl

theorem ping_posted {j : Nat} {q : Ping} {a : PingAction} {p : Post} (h : PingNext s j q a t) :
    t.posted p = s.posted p := by
  cases h <;> rfl

/-- A ping becomes a pong in front of `msg`, and the pong goes there next. -/
theorem client_pongs {a : ClientAction} (hs : Orderly s) (h : ClientNext s a t) :
    (t.client.holds pong).toNat + t.posted pong =
      (s.client.holds pong).toNat + s.posted pong + (Action.client a).asks.toNat := by
  cases h with
  | returned hpc hstop =>
      rw [hpc]
      rfl
  | checked hpc hrun =>
      rw [hpc]
      rfl
  | pinged hpc =>
      rw [hpc]
      have hasks : (Action.client (.read .text (bytes "ping"))).asks = true := by decide
      have hholds : (ClientPc.sending pong).holds pong = true := by decide
      rw [hasks, hholds]
      unfold State.posted
      simp only [ClientPc.holds, Bool.toNat_false, Bool.toNat_true]
      omega
  | ignored type message hpc hother =>
      have hasks : (Action.client (.read type message)).asks = false := decide_eq_false hother
      rw [hpc, hasks]
      rfl
  | failed hpc =>
      rw [hpc]
      rfl
  | sent q msg hpc hmsg =>
      have hq := hs.genuine.client hpc
      subst hq
      have hholds : (ClientPc.sending pong).holds pong = true := by decide
      have hqueue := posted_queue (p := pong) hmsg
      rw [decide_eq_true rfl, Bool.toNat_true] at hqueue
      rw [hpc, hholds]
      unfold State.posted
      rw [hqueue]
      simp only [ClientPc.holds, Bool.toNat_false, Bool.toNat_true, Action.asks]
      omega

/-! ## Failures -/

theorem setReader_unburied {i : Nat} {r : Reader} (hr : s.readers[i]? = some r) (r' : Reader)
    (host : String) : (s.setReader i r').unburied host + (r.dyingAs host).toNat =
      s.unburied host + (r'.dyingAs host).toNat := by
  have hcount := countP_set (Reader.dyingAs host) hr r'
  unfold State.unburied State.setReader
  dsimp only
  omega

theorem setPing_unburied {j : Nat} {p : Ping} (hp : s.pings[j]? = some p) (p' : Ping)
    (host : String) : (s.setPing j p').unburied host + (p.dyingAs host).toNat =
      s.unburied host + (p'.dyingAs host).toNat := by
  have hcount := countP_set (Ping.dyingAs host) hp p'
  unfold State.unburied State.setPing
  dsimp only
  omega

theorem count_singleton_toNat (key host : String) :
    [key].count host = (decide (key = host)).toNat := by
  rw [List.count_singleton]
  by_cases hkey : key = host
  · simp [hkey]
  · simp [hkey]

theorem report_unburied {key : String} {dead : Chan String ts.hosts.length}
    (h : s.dead.send? key = some dead) (host : String) :
    ({ s with dead } : State ts).unburied host = s.unburied host + (decide (key = host)).toNat := by
  unfold State.unburied
  dsimp only
  rw [Chan.send_queue h, List.count_append, count_singleton_toNat, ← Nat.add_assoc]

theorem dyingAs_eq (host : String) {r : Reader} (hpc : r.pc = .dying) :
    r.dyingAs host = decide (r.target = host) := by
  simp [Reader.dyingAs, hpc]

theorem not_dyingAs (host : String) {r : Reader} (hpc : r.pc ≠ .dying) : r.dyingAs host = false := by
  simp [Reader.dyingAs, hpc]

theorem ping_dyingAs_eq (host : String) {p : Ping} (hpc : p.pc = .dying) :
    p.dyingAs host = decide (p.adapter = host) := by
  simp [Ping.dyingAs, hpc]

theorem ping_not_dyingAs (host : String) {p : Ping} (hpc : p.pc ≠ .dying) :
    p.dyingAs host = false := by
  simp [Ping.dyingAs, hpc]

/-- A step of a reader that neither fails nor reports. -/
theorem setReader_quiet {i : Nat} {r r' : Reader} (hr : s.readers[i]? = some r)
    (hpc : r.pc ≠ .dying) (hpc' : r'.pc ≠ .dying) (host : String) :
    (s.setReader i r').unburied host = s.unburied host := by
  have hcount := setReader_unburied hr r' host
  rwa [not_dyingAs host hpc, not_dyingAs host hpc'] at hcount

/-- A reader reports the failure of its connection once. -/
theorem reader_unburied {i : Nat} {r : Reader} {a : ReaderAction} (hr : s.readers[i]? = some r)
    (h : ReaderNext s i r a t) (host : String) :
    t.unburied host = s.unburied host + (failing s (.reader i a)).count host := by
  cases h with
  | checked hpc =>
      refine setReader_quiet hr (by simp [hpc]) ?_ host
      dsimp only
      split <;> simp
  | read type message hpc => exact setReader_quiet hr (by simp [hpc]) (by simp) host
  | failed hpc =>
      have hcount := setReader_unburied hr { r with pc := .dying } host
      rw [not_dyingAs host (by simp [hpc]), dyingAs_eq host rfl] at hcount
      have hfailing : failing s (.reader i .fail) = [r.target] := by
        simp only [failing, hr, Option.map_some, Option.toList_some]
      rw [hfailing, count_singleton_toNat]
      exact hcount
  | sent p msg hpc hmsg => exact setReader_quiet hr (by simp [hpc]) (by simp) host
  | reported dead hpc hdead =>
      have hcount := setReader_unburied hr { r with pc := .done } host
      rw [dyingAs_eq host hpc, not_dyingAs host (by simp)] at hcount
      exact (report_unburied (s := s.setReader i { r with pc := .done }) hdead host).trans hcount

theorem ping_unburied {j : Nat} {p : Ping} {a : PingAction} (hp : s.pings[j]? = some p)
    (h : PingNext s j p a t) (host : String) :
    t.unburied host = s.unburied host + (failing s (.ping j a)).count host := by
  cases h with
  | ok hpc hopen =>
      have hcount := setPing_unburied hp { p with pc := .done } host
      rw [ping_not_dyingAs host (by simp [hpc]), ping_not_dyingAs host (by simp)] at hcount
      exact hcount
  | failed hpc =>
      have hcount := setPing_unburied hp { p with pc := .dying } host
      rw [ping_not_dyingAs host (by simp [hpc]), ping_dyingAs_eq host rfl] at hcount
      have hfailing : failing s (.ping j .fail) = [p.adapter] := by
        simp only [failing, hp, Option.map_some, Option.toList_some]
      rw [hfailing, count_singleton_toNat]
      exact hcount
  | reported dead hpc hdead =>
      have hcount := setPing_unburied hp { p with pc := .done } host
      rw [ping_dyingAs_eq host hpc, ping_not_dyingAs host (by simp)] at hcount
      exact (report_unburied (s := s.setPing j { p with pc := .done }) hdead host).trans hcount

/-- The pings of a tick have not failed yet. -/
theorem tick_dying (living : GoMap Nat) (host : String) :
    (living.entries.map fun e => (⟨e.1, e.2, .writing⟩ : Ping)).countP (Ping.dyingAs host) = 0 := by
  rw [List.countP_eq_zero]
  intro p hp
  obtain ⟨e, _, rfl⟩ := List.mem_map.mp hp
  simp [Ping.dyingAs]

/-- What the writer takes from `dead` becomes a notice. -/
theorem writer_unburied {a : WriterAction} (h : WriterNext s a t) (host : String) :
    t.unburied host + (announced s a).count (closedNotice host) = s.unburied host := by
  cases h with
  | buried adapter dead hpc hdead =>
      have hqueue := Chan.receive_queue hdead
      unfold State.unburied announced
      dsimp only
      rw [hqueue, List.take_succ_cons, List.take_zero, List.map_singleton, List.count_singleton,
        List.count_cons]
      by_cases hhost : adapter = host
      · simp [hhost]
        omega
      · have hother : closedNotice adapter ≠ closedNotice host := fun h => hhost (closedNotice_inj h)
        simp [hhost, hother]
  | ticked hpc =>
      unfold State.unburied announced
      dsimp only
      rw [List.countP_append, tick_dying]
      rfl
  | shutdown sent hpc hstop =>
      unfold State.closeClient
      split <;> rfl
  | finished sent hpc hnone =>
      unfold State.closeClient
      split <;> rfl
  | _ => rfl

/-- Every failure of `host` is under way to the client or written, once. -/
theorem next_failures {a : Action} (hs : Orderly s) (h : Next s a t) (host : String) :
    t.unburied host + t.posted (closedNotice host) ≤
        s.unburied host + s.posted (closedNotice host) + (failing s a).count host ∧
      (t.broken = false → t.unburied host + t.posted (closedNotice host) =
        s.unburied host + s.posted (closedNotice host) + (failing s a).count host) := by
  cases h with
  | shutdown => exact ⟨Nat.le_refl _, fun _ => rfl⟩
  | reader i r a _ hr h =>
      have hposted : t.posted (closedNotice host) = s.posted (closedNotice host) :=
        reader_posted hs hr h nofun
      rw [hposted, reader_unburied hr h host, Nat.add_right_comm]
      exact ⟨Nat.le_refl _, fun _ => rfl⟩
  | client a _ h =>
      have hposted : t.posted (closedNotice host) = s.posted (closedNotice host) :=
        client_posted hs h (by simp [closedNotice, pong])
      have hunburied : t.unburied host = s.unburied host := by cases h <;> rfl
      rw [hposted, hunburied]
      exact ⟨Nat.le_refl _, fun _ => rfl⟩
  | ping j p a _ hp h =>
      have hposted : t.posted (closedNotice host) = s.posted (closedNotice host) := ping_posted h
      rw [hposted, ping_unburied hp h host, Nat.add_right_comm]
      exact ⟨Nat.le_refl _, fun _ => rfl⟩
  | writer a _ h =>
      obtain ⟨hle, heq⟩ := writer_posted hs h (closedNotice host)
      have hunburied := writer_unburied h host
      simp only [failing, List.count_nil, Nat.add_zero]
      constructor
      · omega
      · intro hok
        have hposted := heq hok
        omega

/-! ## Runs -/

/-- The failures so far, against what has become of them. -/
structure Announced (failed : List String) (s : State ts) : Prop where
  orderly : Orderly s
  bounded : ∀ host, s.unburied host + s.posted (closedNotice host) ≤ failed.count host
  exact : s.broken = false →
    ∀ host, s.unburied host + s.posted (closedNotice host) = failed.count host
  dropped : ∀ host ∈ ts.hosts, host ∉ s.living → host ∈ failed
  ended : s.writer = .done .noAdapters → s.living.entries.isEmpty = true

theorem mem_of_unburied {failed : List String} {host : String} (hs : Announced failed s)
    (h : 0 < s.unburied host) : host ∈ failed := by
  have hbounded := hs.bounded host
  exact List.count_pos_iff.mp (by omega)

/-- An adapter is dropped because a failure of it was reported. -/
theorem step_dropped {failed : List String} {a : Action} (hs : Announced failed s)
    (h : Next s a t) : ∀ host ∈ ts.hosts, host ∉ t.living → host ∈ failed := by
  cases h with
  | shutdown => exact hs.dropped
  | reader i r a _ hr h => cases h <;> exact hs.dropped
  | client a _ h => cases h <;> exact hs.dropped
  | ping j p a _ hp h => cases h <;> exact hs.dropped
  | writer a _ h =>
      cases h with
      | buried adapter dead hpc hdead =>
          intro host hhost hgone
          by_cases hadapter : host = adapter
          · apply mem_of_unburied hs
            have hmem : host ∈ s.dead.queue := by
              rw [Chan.receive_queue hdead, hadapter]
              exact List.mem_cons_self
            have hcount := List.count_pos_iff.mpr hmem
            unfold State.unburied
            omega
          · refine hs.dropped host hhost fun hliving => hgone ?_
            exact AList.mem_erase.mpr ⟨hadapter, hliving⟩
      | shutdown sent hpc hstop =>
          rw [(closeClient_channels s sent).2]
          exact hs.dropped
      | finished sent hpc hnone =>
          rw [(closeClient_channels s sent).2]
          exact hs.dropped
      | _ => exact hs.dropped

theorem next_ended {a : Action} (h : Next s a t)
    (hs : s.writer = .done .noAdapters → s.living.entries.isEmpty = true) :
    t.writer = .done .noAdapters → t.living.entries.isEmpty = true := by
  cases h with
  | shutdown => exact hs
  | reader i r a _ hr h => cases h <;> exact hs
  | client a _ h => cases h <;> exact hs
  | ping j p a _ hp h => cases h <;> exact hs
  | writer a _ h =>
      cases h with
      | finished sent hpc hnone =>
          intro _
          rw [(closeClient_channels s sent).2]
          exact hnone
      | _ => exact nofun

theorem step_announced {failed : List String} {a : Action} (hs : Announced failed s)
    (h : step s a = some t) : Announced (failed ++ failing s a) t := by
  have hnext := step_next h
  refine ⟨next_orderly hs.orderly hnext, ?_, ?_, ?_, next_ended hnext hs.ended⟩
  · intro host
    have hflow := (next_failures hs.orderly hnext host).1
    have hbounded := hs.bounded host
    rw [List.count_append]
    omega
  · intro hok host
    have hflow := (next_failures hs.orderly hnext host).2 hok
    have hexact := hs.exact (next_broken hnext hok) host
    rw [List.count_append]
    omega
  · intro host hhost hgone
    exact List.mem_append_left _ (step_dropped hs hnext host hhost hgone)

theorem start_announced (ts : Targets) : Announced [] (start ts) := by
  have hempty : ∀ host, (start ts).unburied host + (start ts).posted (closedNotice host) = 0 := by
    intro host
    have hreaders : (start ts).readers.countP (Reader.dyingAs host) = 0 := by
      rw [List.countP_eq_zero]
      intro r hr
      unfold start at hr
      obtain ⟨target, _, rfl⟩ := List.mem_map.mp hr
      simp [Reader.dyingAs]
    unfold State.unburied
    rw [hreaders]
    rfl
  constructor
  · exact start_orderly ts
  · exact fun host => Nat.le_of_eq (hempty host)
  · exact fun _ host => hempty host
  · intro host hhost hgone
    exact absurd ((mem_adapterConns host).mpr hhost) hgone
  · exact fun h => by cases h

theorem run_announced {ts : Targets} {as : List Action} {s : State ts}
    (h : execute step (start ts) as = some s) : Announced (failures ts as) s := by
  have hs : Announced ([] ++ emitted step failing (start ts) as) s :=
    emitted_invariant step_announced (start_announced ts) h
  exact hs

/-- In every run the client is told of a closed connection at most once for each
failure of it; until a write fails, each failure is written or under way; and
the session ends for lack of adapters only when each target has failed. -/
theorem failures_announced (ts : Targets) {as : List Action} {s : State ts}
    (h : execute step (start ts) as = some s) :
    (∀ host, s.notices host ≤ (failures ts as).count host) ∧
      (s.broken = false →
        ∀ host, s.notices host + s.unannounced host = (failures ts as).count host) ∧
      (s.writer = .done .noAdapters → ∀ host ∈ ts.hosts, host ∈ failures ts as) := by
  have hs := run_announced h
  refine ⟨?_, ?_, ?_⟩
  · intro host
    have hbounded := hs.bounded host
    unfold State.posted at hbounded
    unfold State.notices
    omega
  · intro hok host
    have hexact := hs.exact hok host
    unfold State.posted at hexact
    unfold State.notices State.unannounced
    omega
  · intro hdone host hhost
    apply hs.dropped host hhost
    exact AList.lookup_eq_none.mp ((isEmpty_iff _).mp (hs.ended hdone) host)

/-- Two adapters fail one after the other: the first is announced. -/
def twoDeaths : List Action :=
  [.reader 0 .check, .reader 0 .fail, .reader 0 .report, .writer .dead, .writer .sendNotice,
    .writer (.check true), .writer .message, .writer .written, .writer (.check true),
    .reader 1 .check, .reader 1 .fail]

theorem failures_announced_two : ∃ s : State ⟨["a", "b"], by simp⟩,
    ((∀ host, s.notices host ≤ (failures ⟨["a", "b"], by simp⟩ twoDeaths).count host) ∧
      (s.broken = false → ∀ host, s.notices host + s.unannounced host =
        (failures ⟨["a", "b"], by simp⟩ twoDeaths).count host) ∧
      (s.writer = .done .noAdapters →
        ∀ host ∈ ["a", "b"], host ∈ failures ⟨["a", "b"], by simp⟩ twoDeaths)) ∧
      s.notices "a" = 1 ∧ s.unannounced "b" = 1 :=
  ⟨_, failures_announced ⟨["a", "b"], by simp⟩ rfl, by decide, by decide⟩

/-- What the client has asked, against what it has been answered. -/
structure Answered (past : List Action) (s : State ts) : Prop where
  orderly : Orderly s
  bounded : (s.client.holds pong).toNat + s.posted pong ≤ asked past
  exact : s.broken = false → (s.client.holds pong).toNat + s.posted pong = asked past

theorem next_pongs {a : Action} (hs : Orderly s) (h : Next s a t) :
    (t.client.holds pong).toNat + t.posted pong ≤
        (s.client.holds pong).toNat + s.posted pong + a.asks.toNat ∧
      (t.broken = false → (t.client.holds pong).toNat + t.posted pong =
        (s.client.holds pong).toNat + s.posted pong + a.asks.toNat) := by
  cases h with
  | shutdown => exact ⟨Nat.le_refl _, fun _ => rfl⟩
  | reader i r a _ hr h =>
      have hposted : t.posted pong = s.posted pong := reader_posted hs hr h nofun
      have hclient : t.client = s.client := by cases h <;> rfl
      rw [hposted, hclient]
      exact ⟨Nat.le_refl _, fun _ => rfl⟩
  | client a _ h =>
      have hpongs := client_pongs hs h
      exact ⟨Nat.le_of_eq hpongs, fun _ => hpongs⟩
  | ping j p a _ hp h =>
      have hposted : t.posted pong = s.posted pong := ping_posted h
      have hclient : t.client = s.client := by cases h <;> rfl
      rw [hposted, hclient]
      exact ⟨Nat.le_refl _, fun _ => rfl⟩
  | writer a _ h =>
      obtain ⟨hle, heq⟩ := writer_posted hs h pong
      have hclient : t.client = s.client := by
        cases h with
        | shutdown sent hpc hstop =>
            unfold State.closeClient
            split <;> rfl
        | finished sent hpc hnone =>
            unfold State.closeClient
            split <;> rfl
        | _ => rfl
      have hnone : (announced s a).count pong = 0 := by
        rw [List.count_eq_zero]
        unfold announced
        split
        · intro hmem
          obtain ⟨adapter, _, hadapter⟩ := List.mem_map.mp hmem
          exact absurd hadapter (by simp [closedNotice, pong])
        · exact List.not_mem_nil
      rw [hclient]
      simp only [Action.asks, Bool.toNat_false, Nat.add_zero]
      constructor
      · omega
      · intro hok
        have hposted := heq hok
        omega

theorem step_answered {past : List Action} {a : Action} (hs : Answered past s)
    (h : step s a = some t) : Answered (past ++ [a]) t := by
  have hnext := step_next h
  have hasked : asked (past ++ [a]) = asked past + a.asks.toNat := by
    unfold asked
    rw [List.countP_append, List.countP_singleton]
    cases a.asks <;> rfl
  obtain ⟨hle, heq⟩ := next_pongs hs.orderly hnext
  refine ⟨next_orderly hs.orderly hnext, ?_, ?_⟩
  · have hbounded := hs.bounded
    omega
  · intro hok
    have hflow := heq hok
    have hexact := hs.exact (next_broken hnext hok)
    omega

/-- In every run the client is written nothing but pongs, notices and documents
that name the target they were read from, and at most one pong for each ping it
has sent; until a write fails, each ping is answered or the answer under way. -/
theorem pings_answered (ts : Targets) {as : List Action} {s : State ts}
    (h : execute step (start ts) as = some s) :
    (∀ p, .message p ∈ s.written → Authored ts p) ∧ s.pongs ≤ asked as ∧
      (s.broken = false → s.pongs + s.unanswered = asked as) := by
  have hstart : Answered [] (start ts) := ⟨start_orderly ts, Nat.le_refl _, fun _ => rfl⟩
  have hs : Answered ([] ++ as) s := execute_invariant step_answered hstart h
  rw [List.nil_append] at hs
  refine ⟨hs.orderly.written, ?_, ?_⟩
  · have hbounded := hs.bounded
    unfold State.posted at hbounded
    unfold State.pongs
    omega
  · intro hok
    have hexact := hs.exact hok
    unfold State.posted at hexact
    unfold State.pongs State.unanswered
    omega

theorem pings_answered_one : ∃ s : State ⟨["a"], by simp⟩,
    ((∀ p, .message p ∈ s.written → Authored ⟨["a"], by simp⟩ p) ∧
      s.pongs ≤ asked [.client .check, .client (.read .text (bytes "ping")), .client .send,
        .writer .message, .writer .written] ∧
      (s.broken = false → s.pongs + s.unanswered = asked [.client .check,
        .client (.read .text (bytes "ping")), .client .send, .writer .message, .writer .written])) ∧
      s.pongs = 1 :=
  ⟨_, pings_answered ⟨["a"], by simp⟩ rfl, by decide⟩

end TSymbiote.WebUI.Relay
