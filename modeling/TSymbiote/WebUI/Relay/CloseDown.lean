import TSymbiote.WebUI.Relay.Drain
import TSymbiote.WebUI.Relay.Order

/-! # The last adapter

The writer closes the client's connection when no living adapter is left. It
looks for that right after it has queued the notice of an adapter, so the notice
of the last one is still on `msg` when the session ends.
-/

namespace TSymbiote.WebUI.Relay

open Shared Transition

variable {ts : Targets} {s t : State ts}

def Frame.about (host : String) : Frame → Option Post
  | .message p =>
      match p.message.message with
      | .document m => if m.host = host then some p else none
      | .raw _ => none
  | .close => none

/-- All messages about `host` that the client has been written, in order. -/
def State.told (host : String) (s : State ts) : List Post := s.written.filterMap (Frame.about host)

/-- The message that a step of reader `i` puts on `msg`. -/
def put (s : State ts) (i : Nat) : Action → Option Post
  | .reader j .send => if j = i then (s.readers[i]?).bind fun r => r.pc.held else none
  | _ => none

def puts (i : Nat) : State ts → List Action → List Post
  | _, [] => []
  | s, a :: as =>
      (put s i a).toList ++
        match step s a with
        | some t => puts i t as
        | none => []

/-- The next step of the writer closes the client, for lack of adapters. -/
def Closing (s : State ts) : Prop := s.writer = .checking ∧ s.living.entries.isEmpty = true

/-- For every target the client has been written all its reader put on `msg`,
and then one notice. -/
def Complete (as : List Action) (s : State ts) : Prop :=
  ∀ i host, ts.hosts[i]? = some host →
    s.told host = puts i (start ts) as ++ [closedNotice host]

/-! ## Notices that have not been written -/

theorem answerPing_notice {p : Post} {adapter : String} (h : answerPing p = closedNotice adapter) :
    p = closedNotice adapter := by
  unfold answerPing at h
  split at h
  · have hpayload := congrArg (fun p => p.message.message) h
    cases hpayload
  · exact h

theorem closeClient_channels (s : State ts) (sent : Bool) :
    (s.closeClient sent).msg = s.msg ∧ (s.closeClient sent).living = s.living := by
  unfold State.closeClient
  split <;> exact ⟨rfl, rfl⟩

theorem closeClient_message (s : State ts) (sent : Bool) (p : Post) :
    .message p ∈ (s.closeClient sent).written ↔ .message p ∈ s.written := by
  unfold State.closeClient
  split
  · simp
  · exact Iff.rfl

theorem closedNotice_inj {a b : String} (h : closedNotice a = closedNotice b) : a = b := by
  unfold closedNotice at h
  injection h with _ h
  injection h with _ h
  injection h with h
  injection h

/-- No notice of `adapter` is anywhere. -/
structure Silent (s : State ts) (adapter : String) : Prop where
  queued : closedNotice adapter ∉ s.msg.queue
  noticing : s.writer ≠ .notice (closedNotice adapter)
  writing : s.writer ≠ .writing (closedNotice adapter)
  written : .message (closedNotice adapter) ∉ s.written

/-- No living adapter has been reported, and once there is none left, the notice
of one of them stays unwritten. -/
structure Unfinished (s : State ts) : Prop where
  genuine : Genuine s
  known : ∀ {adapter i}, s.living.lookup adapter = some i → adapter ∈ ts.hosts
  silent : ∀ {adapter i}, s.living.lookup adapter = some i → Silent s adapter
  last : s.living.entries.isEmpty = true → (s.writer ≠ .selecting ∧ ∀ p, s.writer ≠ .writing p) ∧
    ∃ adapter ∈ ts.hosts, Frame.message (closedNotice adapter) ∉ s.written

theorem Silent.send {adapter : String} (h : Silent s adapter) {p : Post}
    {msg : Chan Post ts.hosts.length} (hmsg : s.msg.send? p = some msg)
    (hp : p ≠ closedNotice adapter) : closedNotice adapter ∉ msg.queue := by
  rw [Chan.send_queue hmsg]
  intro hmem
  rcases List.mem_append.mp hmem with hold | hnew
  · exact h.queued hold
  · exact hp (List.mem_singleton.mp hnew).symm

theorem reader_silent {i : Nat} {r : Reader} {a : ReaderAction} {adapter : String}
    (hs : Genuine s) (hr : s.readers[i]? = some r) (h : ReaderNext s i r a t)
    (hsilent : Silent s adapter) : Silent t adapter := by
  cases h with
  | sent p msg hpc hmsg =>
      obtain ⟨type, message, hp⟩ := hs.sending hr hpc
      have hother : p ≠ closedNotice adapter := by
        rw [hp]
        intro h
        cases h
      exact ⟨hsilent.send hmsg hother, hsilent.noticing, hsilent.writing, hsilent.written⟩
  | _ => exact ⟨hsilent.queued, hsilent.noticing, hsilent.writing, hsilent.written⟩

theorem client_silent {a : ClientAction} {adapter : String} (hs : Genuine s)
    (h : ClientNext s a t) (hsilent : Silent s adapter) : Silent t adapter := by
  cases h with
  | sent p msg hpc hmsg =>
      have hother : p ≠ closedNotice adapter := by
        rw [hs.client hpc]
        intro h
        cases h
      exact ⟨hsilent.send hmsg hother, hsilent.noticing, hsilent.writing, hsilent.written⟩
  | _ => exact ⟨hsilent.queued, hsilent.noticing, hsilent.writing, hsilent.written⟩

/-- A notice comes only from the death of its adapter, which is living no more. -/
theorem writer_silent {a : WriterAction} {adapter : String} {i : Nat} (h : WriterNext s a t)
    (hsilent : Silent s adapter) (hliving : t.living.lookup adapter = some i) :
    Silent t adapter := by
  cases h with
  | shutdown sent hpc hstop =>
      obtain ⟨hmsg, _⟩ := closeClient_channels s sent
      refine ⟨?_, by simp, by simp, ?_⟩
      · exact hmsg ▸ hsilent.queued
      · exact fun hmem => hsilent.written ((closeClient_message s sent _).mp hmem)
  | clientDead hpc hdead => exact ⟨hsilent.queued, by simp, by simp, hsilent.written⟩
  | ticked hpc => exact ⟨hsilent.queued, by simp, by simp, hsilent.written⟩
  | buried dying dead hpc hdead =>
      refine ⟨hsilent.queued, ?_, by simp, hsilent.written⟩
      intro hnotice
      have hsame := closedNotice_inj (WriterPc.notice.inj hnotice)
      dsimp only at hliving
      rw [lookup_erase_ite, if_pos hsame.symm] at hliving
      cases hliving
  | received p msg hpc hmsg =>
      have hqueue := Chan.receive_queue hmsg
      have hsplit := hqueue ▸ hsilent.queued
      refine ⟨fun hmem => hsplit (List.mem_cons_of_mem p hmem), by simp, ?_, hsilent.written⟩
      intro hwriting
      have hp := answerPing_notice (WriterPc.writing.inj hwriting)
      exact hsplit (hp ▸ List.mem_cons_self)
  | noticed p msg hpc hmsg =>
      have hother : p ≠ closedNotice adapter := fun hp => hsilent.noticing (hp ▸ hpc)
      exact ⟨hsilent.send hmsg hother, by simp, by simp, hsilent.written⟩
  | wrote p hpc hb =>
      refine ⟨hsilent.queued, by simp, by simp, ?_⟩
      intro hmem
      rcases List.mem_append.mp hmem with hold | hnew
      · exact hsilent.written hold
      · cases List.mem_singleton.mp hnew
        exact hsilent.writing hpc
  | writeFailed p hpc => exact ⟨hsilent.queued, by simp, by simp, hsilent.written⟩
  | finished sent hpc hnone =>
      obtain ⟨hmsg, _⟩ := closeClient_channels s sent
      refine ⟨?_, by simp, by simp, ?_⟩
      · exact hmsg ▸ hsilent.queued
      · exact fun hmem => hsilent.written ((closeClient_message s sent _).mp hmem)
  | continued sent hpc hsome => exact ⟨hsilent.queued, by simp, by simp, hsilent.written⟩

/-! ## Every close-down -/

/-- A step that leaves the writer, its adapters and the written messages alone. -/
theorem Unfinished.frame (hs : Unfinished s) (hgenuine : Genuine t)
    (hsilent : ∀ {adapter}, Silent s adapter → Silent t adapter) (hwriter : t.writer = s.writer)
    (hliving : t.living = s.living) (hwritten : t.written = s.written) : Unfinished t where
  genuine := hgenuine
  known h := hs.known (hliving ▸ h)
  silent h := hsilent (hs.silent (hliving ▸ h))
  last hnone := by
    rw [hwriter, hwritten]
    exact hs.last (hliving ▸ hnone)

theorem exists_living (hsome : ¬ s.living.entries.isEmpty = true) :
    ∃ adapter i, s.living.lookup adapter = some i := by
  rw [isEmpty_iff] at hsome
  obtain ⟨adapter, h⟩ := not_forall.mp hsome
  exact ⟨adapter, Option.ne_none_iff_exists'.mp h⟩

theorem start_living (ts : Targets) : ¬ (start ts).living.entries.isEmpty = true := by
  intro hnone
  obtain ⟨host, hhost⟩ := List.exists_mem_of_ne_nil _ ts.nonempty
  have hliving : host ∈ (start ts).living := (mem_adapterConns host).mpr hhost
  exact AList.lookup_eq_none.mp ((isEmpty_iff _).mp hnone host) hliving

/-- The adapter whose removal leaves none was living. -/
theorem lookup_of_living {adapter : String} (hsome : ¬ s.living.entries.isEmpty = true)
    (hnone : (s.living.erase adapter).entries.isEmpty = true) :
    ∃ i, s.living.lookup adapter = some i := by
  obtain ⟨other, i, hi⟩ := exists_living hsome
  have herased := (isEmpty_iff _).mp hnone other
  rw [lookup_erase_ite] at herased
  split at herased
  · next hsame => exact ⟨i, hsame ▸ hi⟩
  · exact absurd (herased.symm.trans hi) (by simp)

/-- A writer that selects or writes has an adapter left. -/
theorem Unfinished.active (hs : Unfinished s)
    (hactive : s.writer = .selecting ∨ ∃ p, s.writer = .writing p) :
    ¬ s.living.entries.isEmpty = true := by
  intro hnone
  obtain ⟨⟨hselecting, hwriting⟩, _⟩ := hs.last hnone
  rcases hactive with hw | ⟨p, hw⟩
  · exact hselecting hw
  · exact hwriting p hw

/-- While an adapter is left, only what is said of the living ones counts. -/
theorem Unfinished.keep (hs : Unfinished s) (hgenuine : Genuine t) (hliving : t.living = s.living)
    (hsilent : ∀ {adapter i}, s.living.lookup adapter = some i → Silent t adapter)
    (hsome : ¬ s.living.entries.isEmpty = true) : Unfinished t where
  genuine := hgenuine
  known h := hs.known (hliving ▸ h)
  silent h := hsilent (hliving ▸ h)
  last hnone := absurd (hliving ▸ hnone) hsome

theorem writer_unfinished {a : WriterAction} (hs : Unfinished s) (hgenuine : Genuine t)
    (h : WriterNext s a t) : Unfinished t := by
  have hsilent : ∀ {adapter i}, s.living.lookup adapter = some i →
      t.living.lookup adapter = some i → Silent t adapter :=
    fun hold hnew => writer_silent h (hs.silent hold) hnew
  cases h with
  | buried adapter dead hpc hdead =>
      refine ⟨hgenuine, fun h => hs.known (lookup_of_erase h),
        fun h => hsilent (lookup_of_erase h) h, ?_⟩
      intro hnone
      refine ⟨⟨by simp, by simp⟩, adapter, ?_⟩
      obtain ⟨i, hi⟩ := lookup_of_living (hs.active (.inl hpc)) hnone
      exact ⟨hs.known hi, (hs.silent hi).written⟩
  | shutdown sent hpc hstop =>
      obtain ⟨_, hliving⟩ := closeClient_channels s sent
      exact hs.keep hgenuine hliving (fun h => hsilent h (hliving ▸ h)) (hs.active (.inl hpc))
  | finished sent hpc hnone =>
      obtain ⟨_, hliving⟩ := closeClient_channels s sent
      refine ⟨hgenuine, fun h => hs.known (hliving ▸ h), fun h => hsilent (hliving ▸ h) h, ?_⟩
      intro _
      obtain ⟨_, adapter, hmem, hunwritten⟩ := hs.last hnone
      refine ⟨⟨by simp, by simp⟩, adapter, hmem, ?_⟩
      exact fun hwritten => hunwritten ((closeClient_message s sent _).mp hwritten)
  | clientDead hpc hdead =>
      exact hs.keep hgenuine rfl (fun h => hsilent h h) (hs.active (.inl hpc))
  | ticked hpc => exact hs.keep hgenuine rfl (fun h => hsilent h h) (hs.active (.inl hpc))
  | received p msg hpc hmsg =>
      exact hs.keep hgenuine rfl (fun h => hsilent h h) (hs.active (.inl hpc))
  | noticed p msg hpc hmsg =>
      exact ⟨hgenuine, hs.known, fun h => hsilent h h,
        fun hnone => ⟨⟨by simp, by simp⟩, (hs.last hnone).2⟩⟩
  | wrote p hpc hb =>
      exact hs.keep hgenuine rfl (fun h => hsilent h h) (hs.active (.inr ⟨p, hpc⟩))
  | writeFailed p hpc =>
      exact hs.keep hgenuine rfl (fun h => hsilent h h) (hs.active (.inr ⟨p, hpc⟩))
  | continued sent hpc hsome =>
      have hleft : ¬ s.living.entries.isEmpty = true := by simp [hsome]
      exact hs.keep hgenuine rfl (fun h => hsilent h h) hleft

theorem next_unfinished {a : Action} (hs : Unfinished s) (h : Next s a t) : Unfinished t := by
  have hgenuine := next_genuine h hs.genuine
  cases h with
  | shutdown =>
      exact hs.frame hgenuine (fun h => ⟨h.queued, h.noticing, h.writing, h.written⟩) rfl rfl rfl
  | reader i r a _ hr h =>
      have hsilent : ∀ {adapter}, Silent s adapter → Silent t adapter :=
        fun hold => reader_silent hs.genuine hr h hold
      cases h <;> exact hs.frame hgenuine hsilent rfl rfl rfl
  | client a _ h =>
      have hsilent : ∀ {adapter}, Silent s adapter → Silent t adapter :=
        fun hold => client_silent hs.genuine h hold
      cases h <;> exact hs.frame hgenuine hsilent rfl rfl rfl
  | ping j p a _ hp h =>
      cases h <;> exact hs.frame hgenuine
        (fun h => ⟨h.queued, h.noticing, h.writing, h.written⟩) rfl rfl rfl
  | writer a _ h => exact writer_unfinished hs hgenuine h

theorem start_unfinished (ts : Targets) : Unfinished (start ts) where
  genuine := start_genuine ts
  known h := List.mem_iff_getElem?.mpr ⟨_, adapterConns_lookup h⟩
  silent _ := ⟨List.not_mem_nil, by simp [start], by simp [start], List.not_mem_nil⟩
  last hnone := absurd hnone (start_living ts)

theorem Unfinished.not_complete {as : List Action} (hs : Unfinished s) (hclosing : Closing s) :
    ¬ Complete as s := by
  intro hcomplete
  obtain ⟨_, adapter, hmem, hunwritten⟩ := hs.last hclosing.2
  obtain ⟨i, hi⟩ := List.mem_iff_getElem?.mp hmem
  have htold : closedNotice adapter ∈ s.told adapter := by
    rw [hcomplete i adapter hi]
    exact List.mem_append_right _ List.mem_cons_self
  obtain ⟨frame, hframe, habout⟩ := List.mem_filterMap.mp htold
  cases frame with
  | close => cases habout
  | message p =>
      unfold Frame.about at habout
      dsimp only at habout
      split at habout
      · split at habout
        · cases habout
          exact hunwritten hframe
        · cases habout
      · cases habout

/-! ## Sessions that close -/

def Reader.looping (r : Reader) : Bool := r.pc = .loop

/-- All adapters that live are at the top of their loops, and `msg` has room for
their notices. -/
structure Waiting (s : State ts) : Prop where
  running : s.shutdown = false
  whole : s.broken = false
  writer : s.writer = .selecting
  dead : s.dead.queue = []
  room : s.msg.length + s.readers.countP Reader.looping ≤ ts.hosts.length
  alive : ∃ adapter i, s.living.lookup adapter = some i
  living : ∀ {adapter i}, s.living.lookup adapter = some i →
    ∃ r, s.readers[i]? = some r ∧ r.target = adapter ∧ r.pc = .loop

/-- An adapter dies, and its notice goes to the free slot of `msg`. -/
theorem reaches_noticed {i : Nat} {r : Reader} (hs : Waiting s) (hr : s.readers[i]? = some r)
    (hpc : r.pc = .loop) {msg : Chan Post ts.hosts.length}
    (hmsg : s.msg.send? (closedNotice r.target) = some msg) :
    Reaches step s { s.setReader i { r with pc := .done } with
      living := s.living.erase r.target, msg, writer := .checking } := by
  refine (reaches_buried hr hpc hs.running hs.writer hs.dead).tail (l := .writer .sendNotice) ?_
  have hmsg' : (s.setReader i { r with pc := .done }).msg.send? (closedNotice r.target) = some msg :=
    hmsg
  simp only [step, clientWebsocketWriter, hmsg', Option.map_some]

/-- The readers of the adapters that still live have not moved. -/
theorem Waiting.others (hs : Waiting s) {i : Nat} {r : Reader} (hr : s.readers[i]? = some r)
    {adapter : String} {k : Nat} (hk : (s.living.erase r.target).lookup adapter = some k) :
    ∃ r', (s.setReader i { r with pc := .done }).readers[k]? = some r' ∧ r'.target = adapter ∧
      r'.pc = .loop := by
  rw [lookup_erase_ite] at hk
  split at hk
  · cases hk
  · next hother =>
      rcases hs.living hk with ⟨r', hr', htarget, hpc⟩
      refine ⟨r', ?_, htarget, hpc⟩
      have hik : i ≠ k := by
        intro hik
        subst hik
        cases hr.symm.trans hr'
        exact hother htarget.symm
      exact (List.getElem?_set_ne hik).trans hr'

/-- One adapter fewer is at its loop, and the session closes or waits on. -/
theorem waiting_round (hs : Waiting s) {adapter : String} {i : Nat}
    (hliving : s.living.lookup adapter = some i) :
    ∃ t, Reaches step s t ∧ (Closing t ∧ t.broken = false ∨ Waiting t) ∧
      t.readers.countP Reader.looping < s.readers.countP Reader.looping := by
  obtain ⟨r, hr, htarget, hpc⟩ := hs.living hliving
  have hcount := countP_set Reader.looping hr { r with pc := .done }
  have hloop : Reader.looping r = true := by simp [Reader.looping, hpc]
  have hdone : Reader.looping { r with pc := .done } = false := by simp [Reader.looping]
  rw [hloop, hdone, Bool.toNat_true, Bool.toNat_false] at hcount
  have hroom := hs.room
  have hfree : ¬ s.msg.Full := by
    rw [Chan.not_full_iff]
    omega
  obtain ⟨msg, hmsg⟩ := Chan.send_isSome hfree (closedNotice r.target)
  have hqueued := reaches_noticed hs hr hpc hmsg
  by_cases hnone : (s.living.erase r.target).entries.isEmpty = true
  · refine ⟨_, hqueued, .inl ⟨⟨rfl, hnone⟩, hs.whole⟩, ?_⟩
    show (s.readers.set i _).countP _ < _
    omega
  · have hcheck : step { s.setReader i { r with pc := .done } with
        living := s.living.erase r.target, msg, writer := .checking } (.writer (.check true)) =
        some { s.setReader i { r with pc := .done } with
          living := s.living.erase r.target, msg, writer := .selecting } := by
      simp only [step, clientWebsocketWriter, if_true, if_neg hnone]
    refine ⟨_, hqueued.tail hcheck, .inr ?_, ?_⟩
    · constructor
      · exact hs.running
      · exact hs.whole
      · rfl
      · exact hs.dead
      · have hlen := Chan.send_length hmsg
        show msg.length + (s.readers.set i _).countP _ ≤ _
        omega
      · exact exists_living (s := { s with living := s.living.erase r.target }) hnone
      · exact hs.others hr
    · show (s.readers.set i _).countP _ < _
      omega

theorem start_waiting (ts : Targets) : Waiting (start ts) where
  running := rfl
  whole := rfl
  writer := rfl
  dead := rfl
  room := by
    have hle := List.countP_le_length (p := Reader.looping) (l := (start ts).readers)
    have hlen : (start ts).readers.length = ts.hosts.length := List.length_map _
    have hmsg : (start ts).msg.length = 0 := rfl
    omega
  alive := exists_living (start_living ts)
  living h := by
    refine ⟨⟨_, .loop⟩, ?_, rfl, rfl⟩
    unfold start
    rw [List.getElem?_map, adapterConns_lookup h]
    rfl

/-- With any targets: the adapters die one by one, and none is written about. -/
theorem closing_reachable (ts : Targets) :
    ∃ s, Reaches step (start ts) s ∧ Closing s ∧ s.broken = false := by
  have hend : ∃ t, Reaches step (start ts) t ∧
      (Closing t ∧ t.broken = false ∨ Waiting t) ∧ Closing t ∧ t.broken = false := by
    apply reaches_of_decreasing fun s => s.readers.countP Reader.looping
    · intro s hs hno
      obtain ⟨adapter, i, hliving⟩ := (hs.resolve_left hno).alive
      exact waiting_round (hs.resolve_left hno) hliving
    · exact .inr (start_waiting ts)
  rcases hend with ⟨t, ht, _, hclosing⟩
  exact ⟨t, ht, hclosing⟩

/-- Whatever the targets, sessions do close down for lack of adapters with the
client connected, and never with every notice written. -/
theorem closeDown_incomplete (ts : Targets) :
    (∃ as s, execute step (start ts) as = some s ∧ s.broken = false ∧ Closing s) ∧
      ∀ as s, execute step (start ts) as = some s → s.broken = false → Closing s →
        ¬ Complete as s := by
  constructor
  · obtain ⟨s, hs, hclosing, hwhole⟩ := closing_reachable ts
    obtain ⟨as, has⟩ := hs.exists_execute
    exact ⟨as, s, has, hwhole, hclosing⟩
  · intro as s has _ hclosing
    have hs : Unfinished s := Reaches.invariant (fun hs h => next_unfinished hs (step_next h))
      (execute_reaches has) (start_unfinished ts)
    exact hs.not_complete hclosing

/-- One target, whose connection fails at once: the client gets the close frame
and nothing else. -/
theorem single_target_unannounced :
    ∃ s t : State ⟨["node"], by simp⟩,
      execute step (start _) [.reader 0 .check, .reader 0 .fail, .reader 0 .report, .writer .dead,
        .writer .sendNotice] = some s ∧ step s (.writer (.check true)) = some t ∧
      Closing s ∧ s.broken = false ∧ t.written = [.close] ∧
      ¬ Complete [.reader 0 .check, .reader 0 .fail, .reader 0 .report, .writer .dead,
        .writer .sendNotice] s := by
  refine ⟨_, _, rfl, rfl, ⟨rfl, rfl⟩, rfl, rfl, ?_⟩
  intro hcomplete
  have htold := hcomplete 0 "node" rfl
  cases htold

end TSymbiote.WebUI.Relay
