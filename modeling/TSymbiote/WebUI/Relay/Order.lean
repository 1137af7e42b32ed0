import TSymbiote.WebUI.Relay

/-! # Order through the relay

What a reader has read of its adapter is, in this order, what the client has
been sent of it, the message the writer holds, those on `msg` and the one the
reader is sending. A failed write loses the message the writer holds, and
nothing is written after it.
-/

namespace TSymbiote.WebUI.Relay

open Shared Transition

variable {ts : Targets} {s t : State ts}

/-- What a message brings from `host`, unless the writer made it. -/
def Post.payload (host : String) (p : Post) : Option (MessageType × Bytes) :=
  match p.sender, p.message.message with
  | .writer, _ => none
  | _, .raw _ => none
  | _, .document m => if m.host = host then some (p.message.type, m.message) else none

def Frame.payload (host : String) : Frame → Option (MessageType × Bytes)
  | .message p => p.payload host
  | .close => none

/-- The payloads of `host` that the client has been written, in order. -/
def State.relayed (host : String) (s : State ts) : List (MessageType × Bytes) :=
  s.written.filterMap (Frame.payload host)

def Action.read (i : Nat) : Action → Option (MessageType × Bytes)
  | .reader j (.read type message) => if j = i then some (type, message) else none
  | _ => none

/-- The messages reader `i` has read in a run, in order. -/
def reads (i : Nat) (as : List Action) : List (MessageType × Bytes) := as.filterMap (Action.read i)

/-! ## Messages under way -/

def ReaderPc.held : ReaderPc → Option Post
  | .sending p => some p
  | _ => none

def WriterPc.held : WriterPc → Option Post
  | .writing p => some p
  | _ => none

def Reader.sending (host : String) (r : Reader) : List (MessageType × Bytes) :=
  (r.pc.held.bind (Post.payload host)).toList

def State.sending (host : String) (i : Nat) (s : State ts) : List (MessageType × Bytes) :=
  ((s.readers[i]?).map (Reader.sending host)).getD []

def State.writing (host : String) (s : State ts) : List (MessageType × Bytes) :=
  (s.writer.held.bind (Post.payload host)).toList

def State.pending (host : String) (i : Nat) (s : State ts) : List (MessageType × Bytes) :=
  s.writing host ++ s.msg.queue.filterMap (Post.payload host) ++ s.sending host i

/-- What the goroutines can be about to send. -/
structure Genuine (s : State ts) : Prop where
  targets : s.readers.map Reader.target = ts.hosts
  sending : ∀ {j : Nat} {r : Reader} {p : Post}, s.readers[j]? = some r → r.pc = .sending p →
    ∃ type message, p = ⟨.adapter j, type, .document ⟨r.target, message⟩⟩
  client : ∀ {p}, s.client = .sending p → p = pong
  notice : ∀ {p}, s.writer = .notice p → p.sender = .writer

theorem Genuine.target (hs : Genuine s) {j : Nat} {r : Reader} (hr : s.readers[j]? = some r) :
    ts.hosts[j]? = some r.target := by
  rw [← hs.targets, List.getElem?_map, hr]
  rfl

/-- What a filter keeps of a longer list. -/
theorem filterMap_cons_toList {α β : Type} (f : α → Option β) (a : α) (as : List α) :
    (a :: as).filterMap f = (f a).toList ++ as.filterMap f := by
  cases hkeep : f a with
  | none => exact List.filterMap_cons_none hkeep
  | some b => exact List.filterMap_cons_some hkeep

theorem answerPing_payload (host : String) (p : Post) :
    (answerPing p).payload host = p.payload host := by
  unfold answerPing
  split
  · rename_i hping
    unfold Post.payload
    rw [hping.2]
    cases p.sender <;> rfl
  · rfl

theorem setReader_sending {j : Nat} {r : Reader} (hr : s.readers[j]? = some r) (r' : Reader)
    (host : String) (i : Nat) :
    (s.setReader j r').sending host i = if j = i then r'.sending host else s.sending host i := by
  unfold State.sending State.setReader
  have hj := (List.getElem?_eq_some_iff.mp hr).choose
  split
  · next hji =>
      subst hji
      rw [List.getElem?_set_self hj]
      rfl
  · next hji => rw [List.getElem?_set_ne hji]

theorem sending_self {i : Nat} {r : Reader} (hr : s.readers[i]? = some r) (host : String) :
    s.sending host i = r.sending host := by
  unfold State.sending
  rw [hr]
  rfl

/-! ## One step -/

theorem setReader_genuine (hs : Genuine s) {j : Nat} {r : Reader} {pc : ReaderPc}
    (hr : s.readers[j]? = some r)
    (hpc : ∀ p, pc = .sending p →
      ∃ type message, p = ⟨.adapter j, type, .document ⟨r.target, message⟩⟩) :
    Genuine (s.setReader j { r with pc }) where
  targets := by
    obtain ⟨hj, hrj⟩ := List.getElem?_eq_some_iff.mp hr
    have hlt : j < (s.readers.map Reader.target).length := by rwa [List.length_map]
    have htarget : r.target = (s.readers.map Reader.target)[j] := by rw [List.getElem_map, hrj]
    rw [← hs.targets]
    unfold State.setReader
    dsimp only
    rw [List.map_set, htarget, List.set_getElem_self]
  sending := by
    intro i r' p hr' hp
    unfold State.setReader at hr'
    by_cases hij : j = i
    · subst hij
      rw [List.getElem?_set_self (List.getElem?_eq_some_iff.mp hr).choose] at hr'
      cases hr'
      exact hpc p hp
    · rw [List.getElem?_set_ne hij] at hr'
      exact hs.sending hr' hp
  client := hs.client
  notice := hs.notice

theorem next_genuine {a : Action} (h : Next s a t) (hs : Genuine s) : Genuine t := by
  cases h with
  | shutdown => exact ⟨hs.targets, hs.sending, hs.client, hs.notice⟩
  | reader j r a _ hr h =>
      cases h with
      | checked hpc =>
          apply setReader_genuine hs hr
          intro p hp
          split at hp <;> cases hp
      | read type message hpc =>
          apply setReader_genuine hs hr
          intro p hp
          cases hp
          exact ⟨type, message, rfl⟩
      | failed hpc =>
          apply setReader_genuine hs hr
          intro p hp
          cases hp
      | sent p msg hpc hmsg =>
          have hset : Genuine (s.setReader j { r with pc := .loop }) :=
            setReader_genuine hs hr (by simp)
          exact ⟨hset.targets, hset.sending, hset.client, hset.notice⟩
      | reported dead hpc hdead =>
          have hset : Genuine (s.setReader j { r with pc := .done }) :=
            setReader_genuine hs hr (by simp)
          exact ⟨hset.targets, hset.sending, hset.client, hset.notice⟩
  | client a _ h =>
      cases h with
      | pinged hpc => exact ⟨hs.targets, hs.sending, fun hp => (by cases hp; rfl), hs.notice⟩
      | _ => exact ⟨hs.targets, hs.sending, fun hp => (by cases hp), hs.notice⟩
  | ping j p a _ hp h => cases h <;> exact ⟨hs.targets, hs.sending, hs.client, hs.notice⟩
  | writer a _ h =>
      cases h with
      | buried adapter dead hpc hdead =>
          exact ⟨hs.targets, hs.sending, hs.client, fun hp => by cases hp; rfl⟩
      | shutdown sent hpc hstop =>
          unfold State.closeClient
          split <;> exact ⟨hs.targets, hs.sending, hs.client, fun hp => by cases hp⟩
      | finished sent hpc hnone =>
          unfold State.closeClient
          split <;> exact ⟨hs.targets, hs.sending, hs.client, fun hp => by cases hp⟩
      | _ => exact ⟨hs.targets, hs.sending, hs.client, fun hp => by cases hp⟩

theorem start_genuine (ts : Targets) : Genuine (start ts) where
  targets := by
    unfold start
    rw [List.map_map]
    exact List.map_id _
  sending := by
    intro j r p hr hp
    unfold start at hr
    rw [List.getElem?_map] at hr
    obtain ⟨target, _, hr⟩ := Option.map_eq_some_iff.mp hr
    subst hr
    cases hp
  client := fun hp => by cases hp
  notice := fun hp => by cases hp

/-- Of pairwise distinct targets only one is called `host`. -/
theorem Genuine.payload (hs : Genuine s) (hdistinct : ts.hosts.Nodup) {i j : Nat} {r : Reader}
    {host : String} (hi : ts.hosts[i]? = some host) (hr : s.readers[j]? = some r)
    (type : MessageType) (message : Bytes) :
    Post.payload host ⟨.adapter j, type, .document ⟨r.target, message⟩⟩ =
      if j = i then some (type, message) else none := by
  have htarget := hs.target hr
  unfold Post.payload
  dsimp only
  by_cases hji : j = i
  · subst hji
    have hhost : r.target = host := Option.some.inj (htarget.symm.trans hi)
    rw [if_pos hhost, if_pos rfl]
  · have hhost : r.target ≠ host := by
      intro heq
      have hlt := (List.getElem?_eq_some_iff.mp htarget).choose
      exact hji ((List.getElem?_inj hlt hdistinct).mp (by rw [htarget, hi, heq]))
    rw [if_neg hhost, if_neg hji]

theorem sending_idle {r : Reader} (host : String) (h : r.pc.held = none) : r.sending host = [] := by
  unfold Reader.sending
  rw [h]
  rfl

theorem setReader_idle {i j : Nat} {r r' : Reader} {host : String} (hr : s.readers[j]? = some r)
    (hidle : r.pc.held = none) (hidle' : r'.pc.held = none) :
    (s.setReader j r').sending host i = s.sending host i := by
  rw [setReader_sending hr]
  split
  · next hji =>
      subst hji
      rw [sending_self hr, sending_idle host hidle, sending_idle host hidle']
  · rfl

/-- A reader that reads a message of `host` holds it in front of the channel. -/
theorem read_pending {i j : Nat} {r : Reader} {host : String} (hdistinct : ts.hosts.Nodup)
    (hi : ts.hosts[i]? = some host) (hs : Genuine s) (hr : s.readers[j]? = some r)
    (hpc : r.pc = .reading) (type : MessageType) (message : Bytes) :
    (s.setReader j { r with
        pc := .sending ⟨.adapter j, type, .document ⟨r.target, message⟩⟩ }).pending host i =
      s.pending host i ++ ((Action.reader j (.read type message)).read i).toList := by
  have hpayload := hs.payload hdistinct hi hr type message
  unfold State.pending
  rw [setReader_sending hr, List.append_assoc _ (s.sending host i)]
  refine congrArg (s.writing host ++ s.msg.queue.filterMap (Post.payload host) ++ ·) ?_
  unfold Reader.sending Action.read
  dsimp only [ReaderPc.held, Option.bind_some]
  rw [hpayload]
  split
  · next hji =>
      subst hji
      rw [sending_self hr, sending_idle host (by rw [hpc]; rfl)]
      rfl
  · exact (List.append_nil _).symm

/-- What a reader of `host` held is then the last on the channel. -/
theorem sent_pending {i j : Nat} {r : Reader} {host : String} (hdistinct : ts.hosts.Nodup)
    (hi : ts.hosts[i]? = some host) (hs : Genuine s) (hr : s.readers[j]? = some r) {p : Post}
    (hpc : r.pc = .sending p) {msg : Chan Post ts.hosts.length} (hmsg : s.msg.send? p = some msg) :
    ({ s.setReader j { r with pc := .loop } with msg } : State ts).pending host i =
      s.pending host i := by
  obtain ⟨type, message, hp⟩ := hs.sending hr hpc
  have hpayload := hs.payload hdistinct hi hr type message
  rw [← hp] at hpayload
  have hsend : ({ s.setReader j { r with pc := .loop } with msg } : State ts).sending host i =
      if j = i then [] else s.sending host i := setReader_sending hr { r with pc := .loop } host i
  unfold State.pending
  rw [hsend, Chan.send_queue hmsg, List.filterMap_append]
  by_cases hji : j = i
  · subst hji
    rw [if_pos rfl] at hpayload ⊢
    have hheld : s.sending host j = [(type, message)] := by
      rw [sending_self hr]
      unfold Reader.sending
      rw [hpc]
      dsimp only [ReaderPc.held, Option.bind_some]
      rw [hpayload]
      rfl
    rw [hheld, List.filterMap_cons_some hpayload, List.append_nil, List.append_assoc]
    rfl
  · rw [if_neg hji] at hpayload ⊢
    rw [List.filterMap_cons_none hpayload, List.filterMap_nil, List.append_nil]
    rfl

/-- A step of a reader adds what it reads of `host` to what is under way. -/
theorem reader_pending {i j : Nat} {r : Reader} {a : ReaderAction} {host : String}
    (hdistinct : ts.hosts.Nodup) (hi : ts.hosts[i]? = some host) (hs : Genuine s)
    (hr : s.readers[j]? = some r) (h : ReaderNext s j r a t) :
    t.pending host i = s.pending host i ++ ((Action.reader j a).read i).toList := by
  have hidle : ∀ {r' : Reader}, r.pc.held = none → r'.pc.held = none →
      (s.setReader j r').pending host i = s.pending host i ++ [] := by
    intro r' hheld hheld'
    have hsame : (s.setReader j r').sending host i = s.sending host i :=
      setReader_idle hr hheld hheld'
    rw [List.append_nil]
    exact congrArg (s.writing host ++ s.msg.queue.filterMap (Post.payload host) ++ ·) hsame
  cases h with
  | checked hpc =>
      apply hidle
      · rw [hpc]
        rfl
      · split <;> rfl
  | read type message hpc => exact read_pending hdistinct hi hs hr hpc type message
  | failed hpc =>
      apply hidle
      · rw [hpc]
        rfl
      · rfl
  | sent p msg hpc hmsg =>
      exact (sent_pending hdistinct hi hs hr hpc hmsg).trans (List.append_nil _).symm
  | reported dead hpc hdead =>
      apply hidle
      · rw [hpc]
        rfl
      · rfl

theorem client_pending {i : Nat} {a : ClientAction} {host : String} (hs : Genuine s)
    (h : ClientNext s a t) : t.pending host i = s.pending host i := by
  cases h with
  | sent p msg hpc hmsg =>
      have hpong : p.payload host = none := by
        rw [hs.client hpc]
        rfl
      unfold State.pending
      rw [Chan.send_queue hmsg, List.filterMap_append, List.filterMap_cons_none hpong,
        List.filterMap_nil, List.append_nil]
      rfl
  | _ => rfl

theorem ping_pending {i j : Nat} {p : Ping} {a : PingAction} {host : String}
    (h : PingNext s j p a t) : t.pending host i = s.pending host i := by
  cases h <;> rfl

theorem closeClient_frame (s : State ts) (sent : Bool) (host : String) :
    (s.closeClient sent).msg = s.msg ∧ (s.closeClient sent).readers = s.readers ∧
      (s.closeClient sent).relayed host = s.relayed host := by
  unfold State.closeClient
  split
  · refine ⟨rfl, rfl, ?_⟩
    unfold State.relayed
    rw [List.filterMap_append]
    exact List.append_nil _
  · exact ⟨rfl, rfl, rfl⟩

theorem writing_idle (host : String) (h : s.writer.held = none) : s.writing host = [] := by
  unfold State.writing
  rw [h]
  rfl

/-- A step of the writer that moves no message. -/
theorem flow_idle {i : Nat} {host : String} (hs : s.writer.held = none) (ht : t.writer.held = none)
    (hframe : t.msg = s.msg ∧ t.readers = s.readers ∧ t.relayed host = s.relayed host) :
    t.relayed host ++ t.pending host i = s.relayed host ++ s.pending host i := by
  rcases hframe with ⟨hmsg, hreaders, hrelayed⟩
  unfold State.pending State.sending
  rw [writing_idle host hs, writing_idle host ht, hmsg, hreaders, hrelayed]

/-- The writer moves messages from `msg` to the client, unless a write fails. -/
theorem writer_flow {i : Nat} {a : WriterAction} {host : String} (hs : Genuine s)
    (h : WriterNext s a t) (hok : t.broken = false) :
    t.relayed host ++ t.pending host i = s.relayed host ++ s.pending host i := by
  have hheld : ∀ {w}, s.writer = w → w.held = none → s.writer.held = none := by
    intro w hw hheld
    rwa [hw]
  cases h with
  | shutdown sent hpc hstop => exact flow_idle (hheld hpc rfl) rfl (closeClient_frame s sent host)
  | clientDead hpc hdead => exact flow_idle (hheld hpc rfl) rfl ⟨rfl, rfl, rfl⟩
  | ticked hpc => exact flow_idle (hheld hpc rfl) rfl ⟨rfl, rfl, rfl⟩
  | buried adapter dead hpc hdead => exact flow_idle (hheld hpc rfl) rfl ⟨rfl, rfl, rfl⟩
  | received p msg hpc hmsg =>
      have hwriting : ({ s with msg, writer := .writing (answerPing p) } : State ts).writing host =
          (p.payload host).toList := congrArg Option.toList (answerPing_payload host p)
      unfold State.pending
      rw [hwriting, writing_idle host (hheld hpc rfl), Chan.receive_queue hmsg,
        filterMap_cons_toList]
      rfl
  | noticed p msg hpc hmsg =>
      have hown : p.payload host = none := by
        unfold Post.payload
        rw [hs.notice hpc]
      unfold State.pending
      rw [Chan.send_queue hmsg, List.filterMap_append, List.filterMap_cons_none hown,
        List.filterMap_nil, List.append_nil, writing_idle host (hheld hpc rfl)]
      rfl
  | wrote p hpc hb =>
      have hwriting : s.writing host = (p.payload host).toList := by
        unfold State.writing
        rw [hpc]
        rfl
      unfold State.pending State.relayed
      rw [hwriting, List.filterMap_append, filterMap_cons_toList, List.filterMap_nil,
        List.append_nil, List.append_assoc, List.append_assoc (p.payload host).toList]
      rfl
  | writeFailed p hpc => cases hok
  | finished sent hpc hnone => exact flow_idle (hheld hpc rfl) rfl (closeClient_frame s sent host)
  | continued sent hpc hsome => exact flow_idle (hheld hpc rfl) rfl ⟨rfl, rfl, rfl⟩

/-- Only a write adds to what the client has been written. -/
theorem next_relayed {a : Action} (h : Next s a t) (host : String) :
    t.relayed host = s.relayed host ∨ t.broken = false := by
  cases h with
  | shutdown => exact .inl rfl
  | reader j r a _ hr h => cases h <;> exact .inl rfl
  | client a _ h => cases h <;> exact .inl rfl
  | ping j p a _ hp h => cases h <;> exact .inl rfl
  | writer a _ h =>
      cases h with
      | wrote p hpc hb => exact .inr hb
      | shutdown sent hpc hstop => exact .inl (closeClient_frame s sent host).2.2
      | finished sent hpc hnone => exact .inl (closeClient_frame s sent host).2.2
      | _ => exact .inl rfl

theorem next_broken {a : Action} (h : Next s a t) (hok : t.broken = false) : s.broken = false := by
  cases h with
  | shutdown => exact hok
  | reader j r a _ hr h => cases h <;> exact hok
  | client a _ h =>
      cases h with
      | returned hpc hstop => cases hok
      | failed hpc => cases hok
      | _ => exact hok
  | ping j p a _ hp h => cases h <;> exact hok
  | writer a _ h =>
      cases h with
      | shutdown sent hpc hstop =>
          unfold State.closeClient at hok
          split at hok <;> exact hok
      | finished sent hpc hnone =>
          unfold State.closeClient at hok
          split at hok <;> exact hok
      | writeFailed p hpc => cases hok
      | _ => exact hok

/-- A step in which no write fails keeps what is read, under way and written together. -/
theorem next_flow {i : Nat} {a : Action} {host : String} (hdistinct : ts.hosts.Nodup)
    (hi : ts.hosts[i]? = some host) (hs : Genuine s) (h : Next s a t) (hok : t.broken = false) :
    t.relayed host ++ t.pending host i =
      s.relayed host ++ s.pending host i ++ (a.read i).toList := by
  cases h with
  | shutdown => exact (List.append_nil _).symm
  | reader j r a _ hr h =>
      have hrelayed : t.relayed host = s.relayed host := by cases h <;> rfl
      rw [reader_pending hdistinct hi hs hr h, hrelayed, List.append_assoc]
  | client a _ h =>
      have hrelayed : t.relayed host = s.relayed host := by cases h <;> rfl
      rw [client_pending hs h, hrelayed]
      exact (List.append_nil _).symm
  | ping j p a _ hp h =>
      have hrelayed : t.relayed host = s.relayed host := by cases h <;> rfl
      rw [ping_pending h, hrelayed]
      exact (List.append_nil _).symm
  | writer a _ h =>
      rw [writer_flow hs h hok]
      exact (List.append_nil _).symm

/-! ## Runs -/

/-- What reader `i` has read, against what has become of it. -/
structure InOrder (host : String) (i : Nat) (past : List Action) (s : State ts) : Prop where
  genuine : Genuine s
  relayed : s.relayed host <+: reads i past
  whole : s.broken = false → reads i past = s.relayed host ++ s.pending host i

theorem step_inOrder {host : String} {i : Nat} {past : List Action} {a : Action}
    (hdistinct : ts.hosts.Nodup) (hi : ts.hosts[i]? = some host) (hs : InOrder host i past s)
    (h : step s a = some t) : InOrder host i (past ++ [a]) t := by
  have hnext := step_next h
  have hreads : reads i (past ++ [a]) = reads i past ++ (a.read i).toList := by
    unfold reads
    rw [List.filterMap_append, filterMap_cons_toList, List.filterMap_nil, List.append_nil]
  have hwhole : t.broken = false →
      reads i (past ++ [a]) = t.relayed host ++ t.pending host i := by
    intro hok
    rw [hreads, hs.whole (next_broken hnext hok), next_flow hdistinct hi hs.genuine hnext hok]
  constructor
  · exact next_genuine hnext hs.genuine
  · rcases next_relayed hnext host with hsame | hok
    · rw [hsame, hreads]
      exact hs.relayed.trans (List.prefix_append _ _)
    · rw [hwhole hok]
      exact List.prefix_append _ _
  · exact hwhole

theorem start_inOrder (ts : Targets) (host : String) (i : Nat) :
    InOrder host i [] (start ts) := by
  have hsending : (start ts).sending host i = [] := by
    unfold State.sending start
    rw [List.getElem?_map]
    cases ts.hosts[i]? <;> rfl
  constructor
  · exact start_genuine ts
  · exact List.nil_prefix
  · intro _
    unfold State.pending
    rw [hsending]
    rfl

/-- The client is written a prefix of what the reader of `host` has read, in its
order, in every run. -/
theorem relayed_prefix (ts : Targets) (hdistinct : ts.hosts.Nodup) {as : List Action} {s : State ts}
    (h : execute step (start ts) as = some s) {i : Nat} {host : String}
    (hi : ts.hosts[i]? = some host) : s.relayed host <+: reads i as := by
  have hs : InOrder host i ([] ++ as) s :=
    execute_invariant (step_inOrder hdistinct hi) (start_inOrder ts host i) h
  exact hs.relayed

theorem relayed_prefix_two : ∃ s : State ⟨["a", "b"], by simp⟩,
    s.relayed "b" <+: reads 1 [.reader 1 .check, .reader 0 .check, .reader 1 (.read .text [1]),
      .reader 0 (.read .binary [2]), .reader 1 .send, .reader 0 .send, .writer .message,
      .writer .written] ∧ s.relayed "b" = [(.text, [1])] :=
  ⟨_, relayed_prefix ⟨["a", "b"], by simp⟩ (by decide) rfl rfl, by decide⟩

end TSymbiote.WebUI.Relay
