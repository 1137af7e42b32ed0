import TSymbiote.Adapter.Simple
import TSymbiote.Frontend.HostResults
import TSymbiote.Tailnet
import TSymbiote.WebUI.Failures
import TSymbiote.WebUI.Replies

/-! # Queries from end to end

A query goes from the page to the passthrough handler, from there to the adapter
of every host and to its daemon, and the answers come back the same way. The
handler's goroutines run in any order. A host's answer may fail on the way, but
one that arrives is taken to arrive as a whole.
-/

namespace TSymbiote.Queries

open Transition FanOut Shared WebUI Frontend

/-! ## The adapters -/

/-- An exported name does not begin with a small letter. -/
def Capital (fields : List (Field × Value)) : Prop :=
  ∀ e ∈ fields, e.1.exported = true → ∀ c, e.1.name.toList.head? = some c → c.isLower = false

/-- What `StructToMap` can do nothing with has no fields. -/
def fieldsOf : Value → List (Field × Value)
  | .struct _ fields | .pointer (.struct _ fields) => fields
  | _ => []

/-- What the calls of the handlers to the local daemon return. -/
structure Daemon where
  status : Except String Adapter.Status
  prefs : Except String Value
  driveShares : Except String Value
  dnsConfig : Except String Value
  serveConfig : Except String Value
  routeInfo : Except String Value
  goroutines : Except String Bytes
  capital : (∀ st, status = .ok st → Capital st.rest) ∧
    ∀ call ∈ [prefs, driveShares, dnsConfig, serveConfig, routeInfo], ∀ v, call = .ok v →
      Capital (fieldsOf v)

inductive Question where
  | status
  | prefs
  | driveShares
  | dnsConfig
  | serveConfig
  | appConnRoutes
  deriving DecidableEq, Repr

namespace Question

def all : List Question := [status, prefs, driveShares, dnsConfig, serveConfig, appConnRoutes]

def path : Question → KnownPath
  | status => .status
  | prefs => .prefs
  | driveShares => .driveShares
  | dnsConfig => .dnsConfig
  | serveConfig => .serveConfig
  | appConnRoutes => .appConnRoutes

def command : Question → CommandOutputs.Command
  | status => .status
  | prefs => .prefs
  | driveShares => .driveShares
  | dnsConfig => .dnsConfig
  | serveConfig => .serveConfig
  | appConnRoutes => .appConnRoutes

/-- The adapter's handler; `zero` lists the fields of `appctype.RouteInfo{}`. -/
def handler (zero : List (Field × Value)) (d : Daemon) : Question → Reply Body
  | status => Adapter.Server.status d.status
  | prefs => Adapter.Server.prefs d.prefs
  | driveShares => Adapter.Server.driveShares d.driveShares
  | dnsConfig => Adapter.Server.dnsConfig d.dnsConfig
  | serveConfig => Adapter.Server.serveConfig d.serveConfig
  | appConnRoutes => Adapter.Server.appConnRoutes zero d.routeInfo

end Question

/-- `POST` requests as the adapter's mux routes them. -/
def serve (zero : List (Field × Value)) (path : String) (d : Daemon) : Reply Body :=
  match Question.all.find? fun k => k.path.adapter = path with
  | some k => k.handler zero d
  | none => Reply.setStatusCode 404

/-! ## What an adapter writes -/

section Replies

variable {zero : List (Field × Value)} {d : Daemon} {m : List (String × Any)}

theorem structFields_exported {fields : List (Field × Value)} {name : String} {a : Any}
    (h : (name, a) ∈ structFields fields) :
    ∃ e ∈ fields, e.1.exported = true ∧ e.1.name = name := by
  induction fields with
  | nil => cases h
  | cons e fields ih =>
      rcases e with ⟨f, v⟩
      have hrest : (name, a) ∈ structFields fields →
          ∃ e ∈ (f, v) :: fields, e.1.exported = true ∧ e.1.name = name := by
        intro hmem
        obtain ⟨e, he, hname⟩ := ih hmem
        exact ⟨e, List.mem_cons_of_mem _ he, hname⟩
      unfold structFields at h
      split at h
      · next hexported _ =>
          rcases List.mem_cons.mp h with heq | hmem
          · cases heq
            exact ⟨_, List.mem_cons_self, hexported, rfl⟩
          · exact hrest hmem
      · exact hrest h

theorem jsonAnys_keys (m : List (String × Any)) : (jsonAnys m).map Prod.fst = m.map Prod.fst := by
  induction m with
  | nil => rfl
  | cons e m ih =>
      rcases e with ⟨k, a⟩
      rw [jsonAnys, List.map_cons, List.map_cons, ih]

theorem structToMap_fields {v : Value} (h : structToMap v = some m) : m = structFields (fieldsOf v) := by
  unfold structToMap at h
  split at h
  · exact (Option.some.inj h).symm
  · exact (Option.some.inj h).symm
  · contradiction

/-- No name of a reflected struct is that of an error. -/
theorem error_not_mem {fields : List (Field × Value)} (h : Capital fields) :
    "error" ∉ (jsonAnys (structFields fields)).map Prod.fst := by
  rw [jsonAnys_keys]
  intro hmem
  obtain ⟨⟨name, a⟩, ha, rfl⟩ := List.mem_map.mp hmem
  obtain ⟨e, he, hexported, hname⟩ := structFields_exported ha
  have hlower := h e he hexported 'e' (by rw [hname]; rfl)
  exact absurd hlower (by decide)

/-- A document without an error of its own. -/
def Clean (data : Body) : Prop :=
  ∃ members, data = .document (.object members) ∧ "error" ∉ members.map Prod.fst

/-- What a handler that reflects a struct writes. -/
theorem writeUnstructuredJSON_plain {v : Value} (hv : Capital (fieldsOf v)) :
    PlainReply (Reply.writeUnstructuredJSON v) ∧
      ∀ data, Reply.writeUnstructuredJSON v = Reply.write data → Clean data := by
  unfold Reply.writeUnstructuredJSON
  cases hmap : structToMap v with
  | none => exact ⟨.inr (.inl rfl), nofun⟩
  | some m =>
      refine ⟨.inl ⟨_, rfl⟩, fun data hdata => ?_⟩
      cases hdata
      rw [structToMap_fields hmap]
      exact ⟨_, rfl, error_not_mem hv⟩

theorem structHandler_plain {resp : Except String Value}
    (hresp : ∀ v, resp = .ok v → Capital (fieldsOf v)) :
    PlainReply (Adapter.Server.structHandler resp) ∧
      ∀ data, Adapter.Server.structHandler resp = Reply.write data → Clean data := by
  unfold Adapter.Server.structHandler
  cases resp with
  | error err => exact ⟨.inr (.inr ⟨500, by decide, rfl⟩), nofun⟩
  | ok v => exact writeUnstructuredJSON_plain (hresp v rfl)

theorem appConnRoutes_plain (hzero : Capital zero) {resp : Except String Value}
    (hresp : ∀ v, resp = .ok v → Capital (fieldsOf v)) :
    PlainReply (Adapter.Server.appConnRoutes zero resp) ∧
      ∀ data, Adapter.Server.appConnRoutes zero resp = Reply.write data → Clean data := by
  cases resp with
  | ok v => exact writeUnstructuredJSON_plain (hresp v rfl)
  | error err =>
      by_cases habsent : err = Adapter.Server.notFound
      · rw [habsent, Adapter.Server.appConnRoutes_notFound]
        exact ⟨.inr (.inr ⟨500, by decide, rfl⟩), nofun⟩
      · have hempty : Adapter.Server.appConnRoutes zero (.error err) =
            Reply.writeUnstructuredJSON (.struct none zero) := if_neg habsent
        rw [hempty]
        exact writeUnstructuredJSON_plain hzero

theorem status_capital {st : Adapter.Status} (h : Capital st.rest) :
    Capital (fieldsOf (.pointer st.value)) := by
  intro e he hexported
  rcases List.mem_cons.mp he with rfl | he
  · intro c hc
    have hself : "Self".toList.head? = some 'S' := rfl
    cases hself.symm.trans hc
    rfl
  · rcases List.mem_cons.mp he with rfl | he
    · intro c hc
      have hpeer : "Peer".toList.head? = some 'P' := rfl
      cases hpeer.symm.trans hc
      rfl
    · exact h e he hexported

theorem handler_plain (hzero : Capital zero) (d : Daemon) (k : Question) :
    PlainReply (k.handler zero d) ∧ ∀ data, k.handler zero d = Reply.write data → Clean data := by
  have hcall := d.capital.2
  simp only [List.forall_mem_cons, List.not_mem_nil, false_implies, implies_true, and_true] at hcall
  obtain ⟨hprefs, hshares, hdns, hserve, hroutes⟩ := hcall
  cases k with
  | status =>
      refine structHandler_plain fun v hv => ?_
      cases hst : d.status with
      | error err =>
          rw [hst] at hv
          cases hv
      | ok st =>
          rw [hst] at hv
          cases hv
          exact status_capital (d.capital.1 st hst)
  | prefs => exact structHandler_plain hprefs
  | driveShares => exact structHandler_plain hshares
  | dnsConfig => exact structHandler_plain hdns
  | serveConfig => exact structHandler_plain hserve
  | appConnRoutes => exact appConnRoutes_plain hzero hroutes

end Replies

/-- No two of the paths are the same. -/
theorem serve_adapter (zero : List (Field × Value)) (d : Daemon) (k : Question) :
    serve zero k.path.adapter d = k.handler zero d := by
  have hfind : Question.all.find? (fun k' => k'.path.adapter = k.path.adapter) = some k := by
    cases k <;> decide +kernel
  unfold serve
  rw [hfind]

/-! ## The fan-out and the page -/

/-- Goroutines that send one result each: the page has for each host the output of
its own element. -/
theorem run_shown {R : Type} {hosts : List String} {result : String → R} {element : R → HostResult}
    {s : State Unit R} (output : HostResult → Json)
    (hnames : ∀ host ∈ hosts, (element (result host)).hostName = host)
    (hs : Reaches step (start (hosts.map fun host => .send (result host) .ret) ()) s) :
    s.crashed = false ∧ (Stuck step s → ∀ host,
      (properties (collectResults output (s.results.map element))).lookup host =
        if host ∈ hosts ∧ host ≠ "__proto__" then some (output (element (result host))) else none) := by
  have hdo : List.Forall₂ Go.Does (hosts.map fun host => (.send (result host) .ret : Go Unit R))
      ((hosts.map result).map fun v => some [v]) := by
    rw [List.map_map]
    exact bodies_do (fun host => by simp [Go.Does]) hosts
  obtain ⟨halive, hcomplete⟩ := reaches_alive () hdo hs
  refine ⟨halive, fun hstuck host => ?_⟩
  rw [(hcomplete hstuck).results, List.map_map, lookup_properties]
  exact lookup_collectResults output hnames host

theorem hostName_omitEmpty {host : String} (h : host ≠ "") (error : Option String) (result : Json) :
    HostResult.hostName ⟨omitEmpty host, error, result⟩ = host := by
  unfold HostResult.hostName omitEmpty
  rw [if_neg h]
  exact if_neg h

/-- A query, for hosts that have names. -/
structure Query where
  question : Question
  hosts : List String
  named : "" ∉ hosts
  net : Tailnet Daemon
  zero : List (Field × Value)
  capital : Capital zero
  float64 : String → String

namespace Query

def answer (q : Query) (targetPath : String) : Daemon → Reply Body := serve q.zero targetPath

/-- The requested hosts, when the handler calls them on a path of the adapters. -/
def calls (q : Query) (targetPath : String) : List HostCall :=
  q.hosts.map fun host => hostCall host (q.net.ask id (q.answer targetPath) host)

/-- The adapter of the host answered the question. -/
def Answered (q : Query) (host : String) (members : List (String × Json)) : Prop :=
  q.net.Answers (q.question.handler q.zero) host (.document (.object members))

/-- What the page keeps of the handler's reply. -/
def outputs (q : Query) (reply : List DefaultResult) : CommandOutputs.OutputData :=
  properties (collectResults HostResult.output (reply.map (HostResult.ofDefault q.float64)))

/-- An object without members is left out of the reply. -/
def shown (q : Query) (members : List (String × Json)) : Json :=
  if members.isEmpty then .null else (Json.object members).decoded q.float64

/-- The page has one value for each host: an error just where its adapter did not
answer, and what it answered otherwise. -/
structure ShownOn (q : Query) (ui : CommandOutputs.UI) : Prop where
  settled : ui.statusLoading = false ∧ ui.pending = none
  labelled : ui.producer = some q.question.command
  others : ∀ host, host ∉ q.hosts → ui.outputData.lookup host = none
  each : ∀ host ∈ q.hosts, host ≠ "__proto__" → ∃ v, ui.outputData.lookup host = some v ∧
    ((v.field "error").truthy = true ↔ ∀ members, ¬ q.Answered host members) ∧
    ∀ members, q.Answered host members → v = q.shown members

variable {q : Query} {host : String} {members : List (String × Json)}

/-! ### One host -/

def result (q : Query) (host : String) : DefaultResult :=
  (hostCall host (q.net.ask id (q.question.handler q.zero) host)).entry

theorem answer_adapter (q : Query) :
    q.answer q.question.path.adapter = q.question.handler q.zero := by
  funext d
  exact serve_adapter q.zero d q.question

theorem ask_question (q : Query) (host : String) :
    (∃ members, q.Answered host members ∧ "error" ∉ members.map Prod.fst ∧
        q.net.ask id (q.question.handler q.zero) host = .ok (some (.document (.object members)))) ∨
      (∀ members, ¬ q.Answered host members) ∧
        ∃ err, q.net.ask id (q.question.handler q.zero) host = .error err := by
  have hplain := fun d => handler_plain q.capital d q.question
  rcases ask_cases q.net id (fun d => (hplain d).1) host with ⟨data, hanswers, hask⟩ | ⟨hnot, hask⟩
  · have hwrite := hanswers
    obtain ⟨adapter, _, _, _, hwrite⟩ := hwrite
    obtain ⟨members, rfl, hclean⟩ := (hplain _).2 data hwrite
    exact .inl ⟨members, hanswers, hclean, hask⟩
  · exact .inr ⟨fun members => hnot _, hask⟩

theorem answered_inj {members' : List (String × Json)} (h : q.Answered host members)
    (h' : q.Answered host members') : members = members' := by
  have hsame := Tailnet.Answers.inj h h'
  cases hsame
  rfl

theorem worker_result (q : Query) (host : String) :
    relativeJSONWorker (hostCall host (q.net.ask id (q.question.handler q.zero) host)) =
      .send (q.result host) .ret := by
  unfold result
  rcases ask_question q host with ⟨members, _, _, hask⟩ | ⟨_, err, hask⟩
  · rw [hask]
    rfl
  · rw [hask]
    rfl

theorem result_host (q : Query) (host : String) : (q.result host).host = host := by
  unfold result
  rcases ask_question q host with ⟨members, _, _, hask⟩ | ⟨_, err, hask⟩
  · rw [hask]
    rfl
  · rw [hask]
    rfl

theorem isEmpty_lastWins (m : List (String × Json)) : (Json.lastWins m).isEmpty = m.isEmpty := by
  cases m with
  | nil => rfl
  | cons e m =>
      have hmem : e.1 ∈ (Json.lastWins (e :: m)).map Prod.fst :=
        (Json.lastWins_keys _ _).mpr List.mem_cons_self
      cases hlast : Json.lastWins (e :: m) with
      | nil =>
          rw [hlast] at hmem
          cases hmem
      | cons _ _ => rfl

theorem get_of_notMem {m : List (String × Json)} {k : String} (h : k ∉ m.map Prod.fst) :
    Json.get m k = .null := by
  unfold Json.get
  induction m with
  | nil => rfl
  | cons e m ih =>
      rcases e with ⟨k', v⟩
      rw [List.map_cons, List.mem_cons, not_or] at h
      rw [List.lookup_cons, beq_eq_false_iff_ne.mpr h.1]
      exact ih h.2

/-- A document has no error of its own, and keeps none on its way. -/
theorem shown_error (q : Query) (h : "error" ∉ members.map Prod.fst) :
    ((q.shown members).field "error").truthy = false := by
  unfold shown
  split
  · rfl
  · unfold Json.decoded Json.field
    dsimp only
    rw [get_of_notMem]
    · rfl
    · rw [Json.lastWins_keys, Json.lastWins_keys, Json.decodedMembers_keys]
      exact h

theorem errorOutput_error {text : String} (h : text ≠ "") :
    ((errorOutput text).field "error").truthy = true := by
  unfold errorOutput Json.field
  dsimp only
  rw [Json.lastWins_cons List.not_mem_nil, Json.get_cons_self]
  exact decide_eq_true h

theorem output_result (q : Query) (host : String) :
    (((HostResult.ofDefault q.float64 (q.result host)).output.field "error").truthy = true ↔
      ∀ members, ¬ q.Answered host members) ∧
    ∀ members, q.Answered host members →
      (HostResult.ofDefault q.float64 (q.result host)).output = q.shown members := by
  unfold result
  rcases ask_question q host with ⟨members, hanswered, hclean, hask⟩ | ⟨hnot, err, hask⟩
  · have houtput : (HostResult.ofDefault q.float64 (hostCall host
        (q.net.ask id (q.question.handler q.zero) host)).entry).output = q.shown members := by
      rw [hask, (output_of_result rfl).1]
      change (if (Json.lastWins members).isEmpty then Json.null
        else .object (Json.decodedMembers q.float64 (Json.lastWins members))) = _
      rw [isEmpty_lastWins, Json.decodedMembers_lastWins]
      rfl
    rw [houtput]
    constructor
    · rw [shown_error q hclean]
      exact ⟨nofun, fun h => absurd hanswered (h members)⟩
    · intro members' hanswered'
      rw [answered_inj hanswered hanswered']
  · have houtput : (HostResult.ofDefault q.float64 (hostCall host
        (q.net.ask id (q.question.handler q.zero) host)).entry).output = errorOutput err.text := by
      rw [hask]
      exact (output_of_error (if_neg err.nonempty) err.nonempty).1
    rw [houtput]
    constructor
    · exact ⟨fun _ => hnot, fun _ => errorOutput_error err.nonempty⟩
    · exact fun members hanswered => absurd hanswered (hnot members)

end Query

/-! ## Every query -/

/-- However the handler's goroutines run, it survives the query; and when it has
replied, the page that waits for it shows each host's own answer or an error. -/
theorem query_shown (q : Query) {targetPath : String} {workers : List (Go Unit DefaultResult)}
    (hfan : relativeJSON q.question.path.webUI (.ok (q.calls targetPath)) =
      .fanOut targetPath workers) {ui : CommandOutputs.UI}
    (hui : ui.pending = some q.question.command) {s : State Unit DefaultResult}
    (hs : Reaches step (start workers ()) s) :
    s.crashed = false ∧ (Stuck step s → ∃ t,
      CommandOutputs.step ui (.respond (.results (q.outputs s.results))) = some t ∧ q.ShownOn t) := by
  rw [relativeJSON_webUI] at hfan
  cases hfan
  unfold Query.calls at hs
  rw [q.answer_adapter, List.map_map] at hs
  have hworkers : (relativeJSONWorker ∘ fun host => hostCall host
      (q.net.ask id (q.question.handler q.zero) host)) = fun host => .send (q.result host) .ret := by
    funext host
    exact q.worker_result host
  rw [hworkers] at hs
  have hnames : ∀ host ∈ q.hosts,
      (HostResult.ofDefault q.float64 (q.result host)).hostName = host := by
    intro host hhost
    unfold HostResult.ofDefault
    rw [q.result_host]
    exact hostName_omitEmpty (fun h => q.named (h ▸ hhost)) _ _
  obtain ⟨halive, hshown⟩ := run_shown HostResult.output hnames hs
  refine ⟨halive, fun hstuck => ?_⟩
  have hlookup := hshown hstuck
  refine ⟨CommandOutputs.settle q.question.command ui (.results (q.outputs s.results)), ?_, ?_⟩
  · unfold CommandOutputs.step
    dsimp only
    rw [hui]
  · constructor
    · exact ⟨rfl, rfl⟩
    · rfl
    · intro host hhost
      exact (hlookup host).trans (if_neg fun h => hhost h.1)
    · intro host hhost hproto
      refine ⟨_, (hlookup host).trans (if_pos ⟨hhost, hproto⟩), ?_⟩
      exact q.output_result host

def emptyStatus : Adapter.Status := ⟨none, none, [], List.forall_mem_nil _⟩

/-- A daemon whose preferences have one field. -/
def prefsDaemon : Daemon where
  status := .ok emptyStatus
  prefs := .ok (.pointer (.struct none [({ name := "CorpDNS" }, .leaf (.bool true))]))
  driveShares := .ok .nilSlice
  dnsConfig := .error "not running"
  serveConfig := .error "not running"
  routeInfo := .error "not running"
  goroutines := .ok []
  capital := by
    constructor
    · rintro st ⟨⟩
      exact List.forall_mem_nil _
    · simp [fieldsOf, Capital]

/-- One host is known, the other is not. -/
def prefsQuery : Query where
  question := .prefs
  hosts := ["node", "db"]
  named := by decide
  net := ⟨newClient.setKnownHost "node" "ts-a", fun _ => none, fun _ => prefsDaemon⟩
  zero := []
  capital := List.forall_mem_nil _
  float64 := id

theorem query_shown_prefs : ∃ (s : State Unit DefaultResult) (ui : CommandOutputs.UI),
    (s.crashed = false ∧ (Stuck step s → ∃ t, CommandOutputs.step ui
      (.respond (.results (prefsQuery.outputs s.results))) = some t ∧ prefsQuery.ShownOn t)) ∧
      s.results.map DefaultResult.error = ["", "failed to find adapter for host: db"] := by
  have hrun : execute step (start ((prefsQuery.calls "/Prefs").map relativeJSONWorker) ())
      [.spawn, .spawn, .deliver, .close, .deliver, .close] = some _ := rfl
  let ui := CommandOutputs.fetchPrefs ⟨["node", "db"], fun _ => true, false⟩ CommandOutputs.loaded
  exact ⟨_, ui, query_shown prefsQuery (relativeJSON_webUI .prefs _) rfl (execute_reaches hrun), rfl⟩

/-! ## Goroutine dumps -/

/-- The same for the goroutines of the daemons. -/
structure Dumps where
  hosts : List String
  named : "" ∉ hosts
  net : Tailnet Daemon

namespace Dumps

def answer (d : Daemon) : Reply Bytes := Adapter.Server.goroutines d.goroutines

def calls (q : Dumps) : List StreamCall :=
  q.hosts.map fun host => ⟨host, q.net.ask (fun data => { data }) answer host⟩

def Dumped (q : Dumps) (host : String) (data : Bytes) : Prop := q.net.Answers answer host data

def outputs (reply : List GoroutinesResult) : CommandOutputs.OutputData :=
  properties (collectResults HostResult.textOutput (reply.map HostResult.ofGoroutines))

/-- The page has each host's own dump with a character for each byte, which is the
text that was dumped just when that is ASCII, or an error where there is none. -/
structure ShownOn (q : Dumps) (ui : CommandOutputs.UI) : Prop where
  settled : ui.statusLoading = false ∧ ui.pending = none
  labelled : ui.producer = some .goroutines
  others : ∀ host, host ∉ q.hosts → ui.outputData.lookup host = none
  dumped : ∀ host ∈ q.hosts, host ≠ "__proto__" → ∀ data, data ≠ [] → q.Dumped host data →
    ui.outputData.lookup host = some (.string (WebSocketStream.binaryString data))
  text : ∀ host ∈ q.hosts, host ≠ "__proto__" → ∀ text, text ≠ "" → q.Dumped host (bytes text) →
    (ui.outputData.lookup host = some (.string text) ↔ ∀ c ∈ text.toList, c.val ≤ 127)
  failed : ∀ host ∈ q.hosts, host ≠ "__proto__" → (∀ data, q.Dumped host data → data = []) →
    ∃ text, text ≠ "" ∧ ui.outputData.lookup host = some (errorOutput text)

variable {q : Dumps} {host : String} {data : Bytes}

def result (q : Dumps) (host : String) : GoroutinesResult :=
  goroutinesResult host (q.net.ask (fun data => { data }) answer host)

theorem answer_plain (d : Daemon) : PlainReply (answer d) := by
  unfold answer Adapter.Server.goroutines Adapter.Server.bytesHandler
  split
  · exact .inr (.inr ⟨500, by decide, rfl⟩)
  · exact .inl ⟨_, rfl⟩

theorem ask_dump (q : Dumps) (host : String) :
    (∃ data, q.Dumped host data ∧ q.result host = { host, result := data }) ∨
      (∀ data, ¬ q.Dumped host data) ∧
        ∃ err : CallError, q.result host = { host, error := err.text } := by
  unfold result
  rcases ask_cases q.net (fun data => ({ data } : Stream)) answer_plain host with
    ⟨data, hdumped, hask⟩ | ⟨hnot, err, hask⟩
  · rw [hask]
    exact .inl ⟨data, hdumped, rfl⟩
  · rw [hask]
    exact .inr ⟨hnot, err, rfl⟩

theorem output_dump (h : data ≠ []) :
    (HostResult.ofGoroutines { host, result := data }).textOutput =
      .string (WebSocketStream.binaryString data) := by
  have hresult : (HostResult.ofGoroutines { host, result := data }).result =
      .string (String.ofList (Base64.encode data)) := by
    cases data with
    | nil => exact absurd rfl h
    | cons b data => rfl
  rw [(output_of_result rfl).2, hresult, decodedText_encode h]

end Dumps

/-- The same of a query for the goroutines. -/
theorem dumps_shown (q : Dumps) {workers : List (Go Unit GoroutinesResult)}
    {reply : List GoroutinesResult → List GoroutinesResult}
    (hfan : goroutines (.ok q.calls) = .fanOut workers reply) {ui : CommandOutputs.UI}
    (hui : ui.pending = some .goroutines) {s : State Unit GoroutinesResult}
    (hs : Reaches step (start workers ()) s) :
    s.crashed = false ∧ (Stuck step s → ∃ t,
      CommandOutputs.step ui (.respond (.results (Dumps.outputs (reply s.results)))) = some t ∧
        q.ShownOn t) := by
  unfold goroutines Dumps.calls at hfan
  dsimp only at hfan
  rw [List.map_map] at hfan
  cases hfan
  have hnames : ∀ host ∈ q.hosts, (HostResult.ofGoroutines (q.result host)).hostName = host := by
    intro host hhost
    have hsame : (q.result host).host = host := by
      rcases q.ask_dump host with ⟨data, _, hresult⟩ | ⟨_, err, hresult⟩
      · rw [hresult]
      · rw [hresult]
    unfold HostResult.ofGoroutines
    rw [hsame]
    exact hostName_omitEmpty (fun h => q.named (h ▸ hhost)) _ _
  obtain ⟨halive, hshown⟩ := run_shown HostResult.textOutput hnames hs
  refine ⟨halive, fun hstuck => ?_⟩
  have hlookup := hshown hstuck
  have hkept : ∀ host ∈ q.hosts, host ≠ "__proto__" →
      (Dumps.outputs s.results).lookup host =
        some (HostResult.ofGoroutines (q.result host)).textOutput :=
    fun host hhost hproto => (hlookup host).trans (if_pos ⟨hhost, hproto⟩)
  have hdump : ∀ host ∈ q.hosts, host ≠ "__proto__" → ∀ data, data ≠ [] → q.Dumped host data →
      (Dumps.outputs s.results).lookup host =
        some (.string (WebSocketStream.binaryString data)) := by
    intro host hhost hproto data hne hdumped
    have hresult : q.result host = { host, result := data } := by
      rcases q.ask_dump host with ⟨data', hdata, hresult⟩ | ⟨hnot, _⟩
      · rw [hresult, Tailnet.Answers.inj hdata hdumped]
      · exact absurd hdumped (hnot _)
    rw [hkept host hhost hproto, hresult, Dumps.output_dump hne]
  refine ⟨CommandOutputs.settle .goroutines ui (.results (Dumps.outputs s.results)), ?_, ?_⟩
  · unfold CommandOutputs.step
    dsimp only
    rw [hui]
    rfl
  · constructor
    · exact ⟨rfl, rfl⟩
    · rfl
    · exact fun host hhost => (hlookup host).trans (if_neg fun h => hhost h.1)
    · exact hdump
    · intro host hhost hproto text htext hdumped
      have hne : bytes text ≠ [] := fun h => htext (bytes_inj.mp (h.trans rfl))
      have hshow := hdump host hhost hproto (bytes text) hne hdumped
      rw [← WebSocketStream.binaryString_bytes]
      constructor
      · exact fun h => Json.string.inj (Option.some.inj (hshow.symm.trans h))
      · intro h
        rw [h] at hshow
        exact hshow
    · intro host hhost hproto hempty
      have hshow := hkept host hhost hproto
      rcases q.ask_dump host with ⟨data, hdata, hresult⟩ | ⟨_, err, hresult⟩
      · rw [hresult, hempty data hdata] at hshow
        exact ⟨"No data returned", by decide, hshow⟩
      · rw [hresult, (output_of_error (if_neg err.nonempty) err.nonempty).2] at hshow
        exact ⟨err.text, err.nonempty, hshow⟩

def dumpsQuery : Dumps where
  hosts := ["node", "db"]
  named := by decide
  net := ⟨newClient.setKnownHost "node" "ts-a", fun _ => none,
    fun _ => { prefsDaemon with goroutines := .ok (bytes "goroutine 1 [running]:") }⟩

theorem dumps_shown_one : ∃ (s : State Unit GoroutinesResult) (ui : CommandOutputs.UI),
    (s.crashed = false ∧ (Stuck step s → ∃ t, CommandOutputs.step ui
      (.respond (.results (Dumps.outputs s.results))) = some t ∧ dumpsQuery.ShownOn t)) ∧
      s.results.map GoroutinesResult.error = ["", "failed to find adapter for host: db"] := by
  have hrun : execute step (start (dumpsQuery.calls.map fun call =>
      goroutinesWorker call.targetHost call.answer) ())
      [.spawn, .spawn, .deliver, .close, .deliver, .close] = some _ := rfl
  let sel : CommandOutputs.Selection := ⟨["node", "db"], fun _ => true, false⟩
  exact ⟨_, CommandOutputs.fetchGoroutines sel CommandOutputs.loaded,
    dumps_shown dumpsQuery rfl rfl (execute_reaches hrun), rfl⟩

end TSymbiote.Queries
