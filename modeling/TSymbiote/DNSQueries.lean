import TSymbiote.Frontend.DNSResults
import TSymbiote.Queries

/-! # DNS queries from end to end

A DNS query goes from the page to the adapters of the selected hosts and to the resolvers
of their daemons. Each message that comes back is taken apart on the adapter, and its
records reach the panel as texts.
-/

namespace TSymbiote.DNSQueries

open Transition FanOut Shared WebUI Frontend Adapter.Server

/-- What a daemon answers: a message, and the addresses of its resolvers. -/
abbrev Daemon := QueryDNSInput → Except String (Bytes × List String)

/-- How the message package prints a response code. -/
structure Prints (rCode : Nat) (text : String) : Prop where
  nonempty : text ≠ ""
  success : Strings.contains text "Success" = true ↔ rCode = rCodeSuccess
  plain : text ≠ "NOERROR"

/-- A query, for hosts that have names. -/
structure Query where
  name : String
  queryType : String
  hosts : List String
  named : "" ∉ hosts
  net : Tailnet Daemon
  parse : Bytes → DNSMessage
  prints : ∀ msg rCode text, (parse msg).start = .ok (rCode, text) → Prints rCode text

/-- What a message says: the response code, and a text for each of its records. -/
structure Answer where
  rCode : Nat
  text : String
  responses : List String
  resolvers : List String

/-- The records of a message, or what stands for none. -/
def Records (message : DNSMessage) (rCode : Nat) (responses : List String) : Prop :=
  (rCode ≠ rCodeSuccess ∧ responses = ["No answer."]) ∨
    rCode = rCodeSuccess ∧ ∃ answers, message.allAnswers = .ok answers ∧
      responses = if answers = [] then ["No answer."] else answers.map translateDNSRecordBody

/-- The daemon answers with a message that can be parsed. -/
def Answer.From (answer : Answer) (parse : Bytes → DNSMessage) (d : Daemon) (input : QueryDNSInput) :
    Prop :=
  ∃ msg, d input = .ok (msg, answer.resolvers) ∧
    (parse msg).start = .ok (answer.rCode, answer.text) ∧
    (∃ u, (parse msg).skipAllQuestions = .ok u) ∧ Records (parse msg) answer.rCode answer.responses

/-- The adapter leaves the host empty. -/
def Answer.result (answer : Answer) (host : String) : QueryDNSResult :=
  { host, rCode := answer.text, responses := answer.responses, resolvers := answer.resolvers }

theorem Answer.decode_result {answer : Answer} (hne : answer.responses ≠ []) (host : String) :
    QueryDNSResult.decode { host } (answer.result "") = answer.result host := by
  have hresponses : (if answer.responses = [] then [] else answer.responses) = answer.responses :=
    if_neg hne
  unfold QueryDNSResult.decode Answer.result
  simp only [if_true, hresponses]

namespace Query

def input (q : Query) : QueryDNSInput := ⟨q.name, q.queryType⟩

def answer (q : Query) (d : Daemon) : Reply QueryDNSBody := Adapter.Server.queryDNS q.parse (.ok q.input) d

/-- The adapter of the host was reached, and its daemon answered so. -/
def Answered (q : Query) (host : String) (answer : Answer) : Prop :=
  ∃ adapter, q.net.client.getAdapter host = some adapter ∧ adapter ≠ "" ∧
    q.net.obstacle adapter = none ∧ answer.From q.parse (q.net.daemon adapter) q.input

/-- The panel has an answer, with a green badge just when the query succeeded. -/
def Shows (content : DNSContent) (answer : Answer) : Prop :=
  content.error = none ∧ content.responses = answer.responses ∧ content.resolvers = answer.resolvers ∧
    ∃ color, content.responseCode = some (answer.text, color) ∧
      (color = "bg-green-600" ↔ answer.rCode = rCodeSuccess)

/-- The panel has an error alone. -/
def ShowsError (content : DNSContent) : Prop :=
  ∃ text, text ≠ "" ∧ content = ⟨some text, none, [], []⟩

def outputs (reply : List QueryDNSResult) : CommandOutputs.OutputData :=
  properties (collectResults HostResult.dnsOutput (reply.map HostResult.ofQueryDNS))

/-- The page has for each host what its own daemon answered, or an error. -/
structure ShownOn (q : Query) (ui : CommandOutputs.UI) : Prop where
  settled : ui.statusLoading = false ∧ ui.pending = none
  labelled : ui.producer = some .queryDNS
  others : ∀ host, host ∉ q.hosts → ui.outputData.lookup host = none
  each : ∀ host ∈ q.hosts, host ≠ "__proto__" → ∃ v, ui.outputData.lookup host = some v ∧
    (∀ answer, q.Answered host answer → Shows (queryDNSResultsContent v) answer) ∧
    ((∀ answer, ¬ q.Answered host answer) → ShowsError (queryDNSResultsContent v))

end Query

/-! ## The adapter -/

section Adapter

variable {parse : Bytes → DNSMessage} {input : QueryDNSInput} {d : Daemon} {msg : Bytes}
  {resolvers : List String}

/-- What becomes of a message whose header and questions are in order. -/
theorem queryDNS_records {rCode : Nat} {text : String} {u : Unit} (hd : d input = .ok (msg, resolvers))
    (hstart : (parse msg).start = .ok (rCode, text)) (hskip : (parse msg).skipAllQuestions = .ok u) :
    (∃ responses, Records (parse msg) rCode responses ∧
        Adapter.Server.queryDNS parse (.ok input) d =
          Reply.write (.result (Answer.result ⟨rCode, text, responses, resolvers⟩ ""))) ∨
      (∀ responses, ¬ Records (parse msg) rCode responses) ∧
        Adapter.Server.queryDNS parse (.ok input) d = Reply.setStatusCode 500 := by
  by_cases hcode : rCode = rCodeSuccess
  · cases hanswers : (parse msg).allAnswers with
    | error err =>
        refine .inr ⟨?_, by simp [Adapter.Server.queryDNS, hd, hstart, hskip, hcode, hanswers]⟩
        rintro responses (⟨hne, _⟩ | ⟨_, answers, hall, _⟩)
        · exact hne hcode
        · rw [hanswers] at hall
          contradiction
    | ok answers =>
        refine .inl ⟨_, .inr ⟨hcode, answers, hanswers, rfl⟩, ?_⟩
        cases answers with
        | nil => simp [Adapter.Server.queryDNS, hd, hstart, hskip, hcode, hanswers, writeDNSResult,
            Answer.result]
        | cons a answers => simp [Adapter.Server.queryDNS, hd, hstart, hskip, hcode, hanswers,
            writeDNSResult, Answer.result]
  · refine .inl ⟨_, .inl ⟨hcode, rfl⟩, ?_⟩
    simp [Adapter.Server.queryDNS, hd, hstart, hskip, hcode, writeDNSResult, Answer.result]

theorem not_from {answer : Answer} (hd : d input = .ok (msg, resolvers))
    (h : ¬ ((parse msg).start = .ok (answer.rCode, answer.text) ∧
      (∃ u, (parse msg).skipAllQuestions = .ok u) ∧ Records (parse msg) answer.rCode answer.responses)) :
    ¬ answer.From parse d input := by
  rintro ⟨msg', hmsg, hrest⟩
  rw [hd] at hmsg
  cases hmsg
  exact h hrest

/-- A message that is parsed is written with its records, and any other is a failure. -/
theorem queryDNS_cases (parse : Bytes → DNSMessage) (input : QueryDNSInput) (d : Daemon) :
    (∃ answer : Answer, answer.From parse d input ∧
        Adapter.Server.queryDNS parse (.ok input) d = Reply.write (.result (answer.result ""))) ∨
      (∀ answer : Answer, ¬ answer.From parse d input) ∧
        Adapter.Server.queryDNS parse (.ok input) d = Reply.setStatusCode 500 := by
  cases hd : d input with
  | error err =>
      refine .inr ⟨?_, by simp only [Adapter.Server.queryDNS, hd]⟩
      rintro answer ⟨msg, hmsg, _⟩
      rw [hd] at hmsg
      contradiction
  | ok message =>
      obtain ⟨msg, resolvers⟩ := message
      cases hstart : (parse msg).start with
      | error err =>
          refine .inr ⟨fun answer => not_from hd ?_, by simp only [Adapter.Server.queryDNS, hd, hstart]⟩
          rw [hstart]
          rintro ⟨hheader, _⟩
          contradiction
      | ok header =>
          obtain ⟨rCode, text⟩ := header
          cases hskip : (parse msg).skipAllQuestions with
          | error err =>
              refine .inr ⟨fun answer => not_from hd ?_,
                by simp only [Adapter.Server.queryDNS, hd, hstart, hskip]⟩
              rw [hskip]
              rintro ⟨_, ⟨u, hu⟩, _⟩
              contradiction
          | ok u =>
              rcases queryDNS_records hd hstart hskip with ⟨responses, hrecords, hwrite⟩ | ⟨hnone, hset⟩
              · exact .inl ⟨⟨rCode, text, responses, resolvers⟩,
                  ⟨msg, hd, hstart, ⟨u, hskip⟩, hrecords⟩, hwrite⟩
              · refine .inr ⟨fun answer => not_from hd ?_, hset⟩
                rw [hstart]
                rintro ⟨hheader, _, hrecords⟩
                cases hheader
                exact hnone _ hrecords

theorem answer_plain (q : Query) (d : Daemon) : PlainReply (q.answer d) := by
  rcases queryDNS_cases q.parse q.input d with ⟨answer, _, hwrite⟩ | ⟨_, hset⟩
  · exact .inl ⟨_, hwrite⟩
  · exact .inr (.inr ⟨500, by decide, hset⟩)

/-- No message has two answers. -/
theorem Records.inj {message : DNSMessage} {rCode : Nat} {responses responses' : List String}
    (h : Records message rCode responses) (h' : Records message rCode responses') :
    responses = responses' := by
  rcases h with ⟨hne, rfl⟩ | ⟨hcode, answers, hall, rfl⟩ <;>
    rcases h' with ⟨hne', rfl⟩ | ⟨hcode', answers', hall', rfl⟩
  · rfl
  · exact absurd hcode' hne
  · exact absurd hcode hne'
  · rw [hall] at hall'
    cases hall'
    rfl

theorem Answer.From.inj {answer answer' : Answer} (h : answer.From parse d input)
    (h' : answer'.From parse d input) : answer = answer' := by
  obtain ⟨rCode, text, responses, resolvers⟩ := answer
  obtain ⟨rCode', text', responses', resolvers'⟩ := answer'
  obtain ⟨msg, hmsg, hstart, _, hrecords⟩ := h
  obtain ⟨msg', hmsg', hstart', _, hrecords'⟩ := h'
  rw [hmsg] at hmsg'
  cases hmsg'
  rw [hstart] at hstart'
  cases hstart'
  have hresponses : responses = responses' := hrecords.inj hrecords'
  rw [hresponses]

theorem Records.ne_nil {message : DNSMessage} {rCode : Nat} {responses : List String}
    (h : Records message rCode responses) : responses ≠ [] := by
  rcases h with ⟨_, rfl⟩ | ⟨_, answers, _, rfl⟩
  · exact List.cons_ne_nil _ _
  · by_cases hempty : answers = []
    · rw [if_pos hempty]
      exact List.cons_ne_nil _ _
    · rw [if_neg hempty]
      exact fun hmap => hempty (List.map_eq_nil_iff.mp hmap)

end Adapter

/-! ## One host -/

namespace Query

variable {q : Query} {host : String} {answer answer' : Answer}

theorem Answered.inj (h : q.Answered host answer) (h' : q.Answered host answer') : answer = answer' := by
  obtain ⟨adapter, hget, _, _, hfrom⟩ := h
  obtain ⟨adapter', hget', _, _, hfrom'⟩ := h'
  rw [hget] at hget'
  cases hget'
  exact hfrom.inj hfrom'

/-- What the call for the host comes back with. -/
def called (q : Query) (host : String) : Except CallError (Option QueryDNSBody) :=
  q.net.ask id q.answer host

theorem called_cases (q : Query) (host : String) :
    (∃ answer, q.Answered host answer ∧ q.called host = .ok (some (.result (answer.result "")))) ∨
      (∀ answer, ¬ q.Answered host answer) ∧ ∃ err, q.called host = .error err := by
  rcases ask_cases q.net id (answer_plain q) host with ⟨data, hanswers, hask⟩ | ⟨hnot, hask⟩
  · obtain ⟨adapter, hget, hne, hobstacle, hwrite⟩ := hanswers
    rcases queryDNS_cases q.parse q.input (q.net.daemon adapter) with ⟨answer, hfrom, hown⟩ | ⟨_, hset⟩
    · have hdata : data = .result (answer.result "") := by
        have hsame := hown.symm.trans hwrite
        cases hsame
        rfl
      exact .inl ⟨answer, ⟨adapter, hget, hne, hobstacle, hfrom⟩, hdata ▸ hask⟩
    · have hsame := hset.symm.trans hwrite
      cases hsame
  · refine .inr ⟨fun answer hanswered => ?_, hask⟩
    obtain ⟨adapter, hget, hne, hobstacle, hfrom⟩ := hanswered
    rcases queryDNS_cases q.parse q.input (q.net.daemon adapter) with ⟨answer', _, hown⟩ | ⟨hnone, _⟩
    · exact hnot _ ⟨adapter, hget, hne, hobstacle, hown⟩
    · exact hnone answer hfrom

/-- The request as the handler makes it. -/
def calls (q : Query) : List QueryDNSCall :=
  q.hosts.map fun host =>
    { targetHost := host
      answer := q.called host
      written := by
        intro r hr
        rcases q.called_cases host with ⟨answer, ⟨adapter, _, _, _, hfrom⟩, hcalled⟩ | ⟨_, err, hcalled⟩
        · rw [hcalled] at hr
          cases hr
          rcases queryDNS_cases q.parse q.input (q.net.daemon adapter) with
            ⟨answer', hfrom', hown⟩ | ⟨hnone, _⟩
          · rw [hfrom.inj hfrom']
            exact ⟨_, _, _, _, hown, rfl⟩
          · exact absurd hfrom (hnone answer)
        · rw [hcalled] at hr
          contradiction }

def result (q : Query) (host : String) : QueryDNSResult := queryDNSResult host (q.called host)

theorem result_cases (q : Query) (host : String) :
    (∃ answer, q.Answered host answer ∧ q.result host = answer.result host) ∨
      (∀ answer, ¬ q.Answered host answer) ∧
        ∃ err : CallError, q.result host = { host := host, error := err.text } := by
  unfold result
  rcases q.called_cases host with ⟨answer, hanswered, hcalled⟩ | ⟨hnot, err, hcalled⟩
  · refine .inl ⟨answer, hanswered, ?_⟩
    have hne : answer.responses ≠ [] := by
      obtain ⟨_, _, _, _, msg, _, _, _, hrecords⟩ := hanswered
      exact hrecords.ne_nil
    rw [hcalled]
    exact Answer.decode_result hne host
  · rw [hcalled]
    exact .inr ⟨hnot, err, rfl⟩

theorem result_host (q : Query) (host : String) : (q.result host).host = host := by
  rcases q.result_cases host with ⟨answer, _, hresult⟩ | ⟨_, err, hresult⟩
  · rw [hresult]
    rfl
  · rw [hresult]

theorem color_green {rCode : Nat} {text : String} (h : Prints rCode text) :
    getResponseCodeColor text = "bg-green-600" ↔ rCode = rCodeSuccess := by
  rw [← h.success]
  unfold getResponseCodeColor
  by_cases hsuccess : Strings.contains text "Success" = true
  · simp [hsuccess]
  · have hword : text ≠ "Success" := by
      rintro rfl
      exact hsuccess (by decide)
    simp only [h.plain, hword, hsuccess, false_or]
    by_cases hdomain : text = "NXDOMAIN"
    · rw [if_pos hdomain]
      decide
    · rw [if_neg hdomain]
      decide

/-- The panel for the host. -/
theorem content_result (q : Query) (host : String) :
    (∀ answer, q.Answered host answer →
        Shows (queryDNSResultsContent (HostResult.ofQueryDNS (q.result host)).dnsOutput) answer) ∧
      ((∀ answer, ¬ q.Answered host answer) →
        ShowsError (queryDNSResultsContent (HostResult.ofQueryDNS (q.result host)).dnsOutput)) := by
  rw [content_ofQueryDNS]
  rcases q.result_cases host with ⟨answer, hanswered, hresult⟩ | ⟨hnot, err, hresult⟩
  · have hprints : Prints answer.rCode answer.text := by
      obtain ⟨_, _, _, _, msg, _, hstart, _⟩ := hanswered
      exact q.prints msg _ _ hstart
    rw [hresult]
    refine ⟨fun answer' hanswered' => ?_, fun hnot => absurd hanswered (hnot answer)⟩
    rw [← hanswered.inj hanswered']
    refine ⟨rfl, rfl, rfl, getResponseCodeColor answer.text, ?_, color_green hprints⟩
    exact if_neg hprints.nonempty
  · rw [hresult]
    refine ⟨fun answer hanswered => absurd hanswered (hnot answer), fun _ => ⟨err.text, err.nonempty, ?_⟩⟩
    simp only [err.nonempty, if_false, if_true]

end Query

/-! ## Every query -/

/-- However the handler's goroutines run, it survives the query; and when it has replied, the
panel shows for each host the records its own daemon was answered with, or an error. -/
theorem dns_shown (q : Query) {workers : List (Go Unit QueryDNSResult)}
    {reply : List QueryDNSResult → List QueryDNSResult}
    (hfan : WebUI.queryDNS (.ok q.calls) = .fanOut workers reply) {ui : CommandOutputs.UI}
    (hui : ui.pending = some .queryDNS) {s : State Unit QueryDNSResult}
    (hs : Reaches step (start workers ()) s) :
    s.crashed = false ∧ (Stuck step s → ∃ t,
      CommandOutputs.step ui (.respond (.results (Query.outputs (reply s.results)))) = some t ∧
        q.ShownOn t) := by
  have hworkers : (q.calls.map fun call => queryDNSWorker call.targetHost call.answer) =
      q.hosts.map fun host => .send (q.result host) .ret := by
    unfold Query.calls
    rw [List.map_map]
    rfl
  unfold WebUI.queryDNS at hfan
  dsimp only at hfan
  rw [hworkers] at hfan
  cases hfan
  have hnames : ∀ host ∈ q.hosts, (HostResult.ofQueryDNS (q.result host)).hostName = host := by
    intro host hhost
    unfold HostResult.ofQueryDNS
    rw [q.result_host]
    exact Queries.hostName_omitEmpty (fun h => q.named (h ▸ hhost)) _ _
  obtain ⟨halive, hshown⟩ := Queries.run_shown HostResult.dnsOutput hnames hs
  refine ⟨halive, fun hstuck => ?_⟩
  have hlookup := hshown hstuck
  refine ⟨CommandOutputs.settle .queryDNS ui (.results (Query.outputs s.results)), ?_, ?_⟩
  · unfold CommandOutputs.step
    dsimp only
    rw [hui]
    rfl
  · constructor
    · exact ⟨rfl, rfl⟩
    · rfl
    · exact fun host hhost => (hlookup host).trans (if_neg fun h => hhost h.1)
    · intro host hhost hproto
      exact ⟨_, (hlookup host).trans (if_pos ⟨hhost, hproto⟩), q.content_result host⟩

/-- A message with one address and one mail server. -/
def mailMessage : DNSMessage where
  start := .ok (0, "dnsmessage.RCodeSuccess")
  skipAllQuestions := .ok ()
  allAnswers := .ok [⟨.a, .a "100.64.0.7", ""⟩, ⟨.mx, .mx "mail.example." 10, ""⟩]

theorem mailMessage_prints {rCode : Nat} {text : String} (h : mailMessage.start = .ok (rCode, text)) :
    Prints rCode text := by
  cases h
  exact ⟨by decide, by decide, by decide⟩

theorem mailHosts_named : "" ∉ ["node", "db"] := by decide

/-- One host is known, the other is not. -/
def mailQuery : Query where
  name := "example.com"
  queryType := "MX"
  hosts := ["node", "db"]
  named := mailHosts_named
  net := ⟨newClient.setKnownHost "node" "ts-a", fun _ => none, fun _ _ => .ok ([], ["100.100.100.100"])⟩
  parse _ := mailMessage
  prints _ _ _ := mailMessage_prints

theorem dns_shown_mail : ∃ (s : State Unit QueryDNSResult) (ui : CommandOutputs.UI),
    (s.crashed = false ∧ (Stuck step s → ∃ t, CommandOutputs.step ui
      (.respond (.results (Query.outputs s.results))) = some t ∧ mailQuery.ShownOn t)) ∧
      s.results.map QueryDNSResult.responses = [["100.64.0.7", "mail.example., priority: 10"], []] := by
  have hrun : execute step (start (mailQuery.calls.map fun call =>
      queryDNSWorker call.targetHost call.answer) ())
      [.spawn, .spawn, .deliver, .close, .deliver, .close] = some _ := rfl
  let sel : CommandOutputs.Selection := ⟨["node", "db"], fun _ => true, false⟩
  let form : CommandOutputs.Form := ⟨false, "profile", none⟩
  exact ⟨_, CommandOutputs.fetchQueryDNS form sel CommandOutputs.loaded,
    dns_shown mailQuery rfl rfl (execute_reaches hrun), rfl⟩

end TSymbiote.DNSQueries
