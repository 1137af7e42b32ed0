import TSymbiote.Adapter.KnownPeers
import TSymbiote.Adapter.Ping
import TSymbiote.Frontend.PingOutputs
import TSymbiote.Tailnet

/-! # Pings from end to end

A ping command asks the adapters of the selected hosts to ping the targets these
are connected with. An adapter looks up the address of the target among the peers
it knows, and the results go back to the outputs of the pair and to the colour of
its edge.
-/

namespace TSymbiote.Pings

open Transition FanOut Shared WebUI Frontend

/-- A pair that the reply and the page's tables can have entries for. -/
structure Named (c : Combination) : Prop where
  host : c.hostId ≠ "" ∧ c.hostId ∉ inherited
  target : c.peerId ≠ "" ∧ c.peerId ≠ "__proto__"

/-- Behind an adapter: the peers it knows, and for a target at an address the
results of the daemon's pings in turn. -/
structure Pinger where
  peers : Adapter.KnownPeers String
  hostPing : String → String → String → Nat → Except String Value

/-- A ping command, with a delay that can be parsed. -/
structure Command where
  sourceHosts : OrderedSet String
  targetPeers : OrderedSet String
  edgeList : List Frontend.Edge
  count : Int
  pingType : String
  delay : String
  parseDuration : String → Option Int
  accepted : (parseDuration delay).isSome = true
  net : Tailnet Pinger

namespace Command

variable (cmd : Command)

def pairs : List Combination :=
  getTargetedCombinations cmd.sourceHosts cmd.targetPeers cmd.edgeList

/-- The adapter's handler on a request for the target. -/
def answer (target : String) (d : Pinger) : Reply Body :=
  Adapter.Server.ping cmd.parseDuration d.peers.getIPByPeer (d.hostPing target)
    (.ok ⟨target, cmd.count, cmd.pingType, cmd.delay⟩)

/-- The request, each target with what the call to the host's adapter returns. -/
def input : WebUI.PingInput where
  count := cmd.count
  pingType := cmd.pingType
  delay := cmd.delay
  args := (pingArgs cmd.pairs).map fun arg =>
    ⟨arg.targets.map fun target => ⟨target, cmd.net.ask id (cmd.answer target) arg.host⟩, arg.host⟩

/-- The results that come of the pings to an address. -/
def pings (d : Pinger) (target ip : String) : List Value :=
  (List.range cmd.count.toNat).filterMap fun i => (d.hostPing target ip cmd.pingType i).toOption

/-- The adapter of the host was reached, knows the target, and these are the
results of its pings. -/
def Pinged (host target : String) (docs : List Json) : Prop :=
  ∃ adapter ip maps, cmd.net.client.getAdapter host = some adapter ∧ adapter ≠ "" ∧
    cmd.net.obstacle adapter = none ∧
    (cmd.net.daemon adapter).peers.getIPByPeer target = some ip ∧
    (cmd.pings (cmd.net.daemon adapter) target ip).mapM structToMap = some maps ∧
    docs = maps.map fun m => .object (Json.lastWins (jsonAnys m))

/-- The pair is one of a selected host and another selected node, with an edge from
the one to the other. -/
def Asked (host target : String) : Prop :=
  host ∈ cmd.sourceHosts ∧ (target ∈ cmd.targetPeers ∨ target ∈ cmd.sourceHosts ∧ target ≠ host) ∧
    ∃ e ∈ cmd.edgeList, e.source = host ∧ e.target = target

/-- What the page keeps: for each pair the results of its own pings, or nothing
where there are none, and colours only from the last of them. -/
structure ShownIn (c : Collected) : Prop where
  others : ∀ host target, ¬ cmd.Asked host target → c.tables.results.output host target = none
  results : ∀ host target, cmd.Asked host target → ∀ docs,
    c.tables.results.output host target = some (.results (some docs)) ↔
      docs ≠ [] ∧ cmd.Pinged host target docs
  nothing : ∀ host target, cmd.Asked host target →
    (c.tables.results.output host target = some (.results none) ↔
      ∀ docs, cmd.Pinged host target docs → docs = [])
  colours : ∀ edgeId color, c.newEdgeColors.lookup edgeId = some color →
    ∃ host target docs last, cmd.Asked host target ∧ edgeId = edgeIdOf host target ∧
      cmd.Pinged host target docs ∧ docs.getLast? = some last ∧ color = getEdgeColorFromResult last

end Command

/-! ## One pair -/

section Pair

variable {cmd : Command} {host target : String}

theorem answer_known {d : Pinger} {ip : String} (hip : d.peers.getIPByPeer target = some ip) :
    cmd.answer target d = Adapter.Server.writePings (cmd.pings d target ip) := by
  obtain ⟨delay, hdelay⟩ := Option.isSome_iff_exists.mp cmd.accepted
  unfold Command.answer Adapter.Server.ping
  dsimp only
  rw [hdelay, hip]
  rfl

theorem answer_unknown {d : Pinger} (hip : d.peers.getIPByPeer target = none) :
    cmd.answer target d = Reply.setStatusCode 500 := by
  obtain ⟨delay, hdelay⟩ := Option.isSome_iff_exists.mp cmd.accepted
  unfold Command.answer Adapter.Server.ping
  dsimp only
  rw [hdelay, hip]

theorem writePings_some {allPings : List Value} {maps : List (List (String × Any))}
    (h : allPings.mapM structToMap = some maps) :
    Adapter.Server.writePings allPings =
      Reply.write (Body.document (.array (maps.map fun m => (Any.map m).json))) := by
  unfold Adapter.Server.writePings
  rw [h]

theorem writePings_none {allPings : List Value} (h : allPings.mapM structToMap = none) :
    Adapter.Server.writePings allPings = none := by
  unfold Adapter.Server.writePings
  rw [h]

/-- The handler writes one document for each result of a ping. -/
theorem answer_write {d : Pinger} {data : Body} :
    cmd.answer target d = Reply.write data ↔ ∃ ip maps, d.peers.getIPByPeer target = some ip ∧
      (cmd.pings d target ip).mapM structToMap = some maps ∧
      data = Body.document (.array (maps.map fun m => (Any.map m).json)) := by
  cases hip : d.peers.getIPByPeer target with
  | none => simp [answer_unknown hip, Reply.setStatusCode, Reply.write]
  | some ip =>
      rw [answer_known hip]
      cases hmaps : (cmd.pings d target ip).mapM structToMap with
      | none => simp [writePings_none hmaps, hmaps, Reply.write]
      | some maps => simp [writePings_some hmaps, hmaps, Reply.write, eq_comm]

theorem answer_plain (cmd : Command) (target : String) (d : Pinger) :
    PlainReply (cmd.answer target d) := by
  cases hip : d.peers.getIPByPeer target with
  | none =>
      rw [answer_unknown hip]
      exact .inr (.inr ⟨500, by decide, rfl⟩)
  | some ip =>
      rw [answer_known hip]
      cases hmaps : (cmd.pings d target ip).mapM structToMap with
      | none => exact .inr (.inl (writePings_none hmaps))
      | some maps => exact .inl ⟨_, writePings_some hmaps⟩

theorem pinged_iff {docs : List Json} : cmd.Pinged host target docs ↔
    ∃ maps : List (List (String × Any)),
      cmd.net.Answers (cmd.answer target) host
        (Body.document (.array (maps.map fun m => (Any.map m).json))) ∧
      docs = maps.map fun m => .object (Json.lastWins (jsonAnys m)) := by
  constructor
  · rintro ⟨adapter, ip, maps, hget, hne, hobstacle, hip, hmaps, rfl⟩
    exact ⟨maps, ⟨adapter, hget, hne, hobstacle, answer_write.mpr ⟨ip, maps, hip, hmaps, rfl⟩⟩, rfl⟩
  · rintro ⟨maps, ⟨adapter, hget, hne, hobstacle, hwrite⟩, rfl⟩
    obtain ⟨ip, maps', hip, hmaps, hdata⟩ := answer_write.mp hwrite
    have hsame : (maps.map fun m => (Any.map m).json) = maps'.map fun m => (Any.map m).json := by
      simpa using hdata
    refine ⟨adapter, ip, maps', hget, hne, hobstacle, hip, hmaps, ?_⟩
    have hobjects := congrArg (List.map fun v : Json => Json.object (v.asMap.getD [])) hsame
    simpa [Function.comp_def, Any.json, Json.asMap] using hobjects

theorem pinged_inj {docs docs' : List Json} (h : cmd.Pinged host target docs)
    (h' : cmd.Pinged host target docs') : docs = docs' := by
  obtain ⟨adapter, ip, maps, hget, _, _, hip, hmaps, rfl⟩ := h
  obtain ⟨adapter', ip', maps', hget', _, _, hip', hmaps', rfl⟩ := h'
  rw [hget] at hget'
  cases hget'
  rw [hip] at hip'
  cases hip'
  rw [hmaps] at hmaps'
  cases hmaps'
  rfl

/-! ### The handler's entry for it -/

theorem decodeObjects_maps (maps : List (List (String × Any))) :
    decodeObjects (.document (.array (maps.map fun m => (Any.map m).json))) =
      .ok (maps.map fun m => Json.lastWins (jsonAnys m)) := by
  unfold decodeObjects
  dsimp only
  induction maps with
  | nil => rfl
  | cons m maps ih =>
      rw [List.map_cons, List.mapM_cons, ih]
      rfl

def entry (cmd : Command) (host target : String) : PingResults :=
  pingResult host ⟨target, cmd.net.ask id (cmd.answer target) host⟩

theorem entry_names (cmd : Command) (host target : String) :
    (entry cmd host target).host = host ∧ (entry cmd host target).target = target :=
  pingEntry_labelled (host, ⟨target, cmd.net.ask id (cmd.answer target) host⟩)

/-- The entry has the results of the pair's pings, if there are any. -/
theorem entry_results (cmd : Command) (host target : String) :
    (∃ docs, cmd.Pinged host target docs ∧ (entry cmd host target).results.map .object = docs) ∨
      (∀ docs, ¬ cmd.Pinged host target docs) ∧ (entry cmd host target).results = [] := by
  unfold entry
  rcases ask_cases cmd.net id (answer_plain cmd target) host with
    ⟨data, hanswers, hask⟩ | ⟨hnot, err, hask⟩
  · left
    have hwrite := hanswers
    obtain ⟨adapter, _, _, _, hwrite⟩ := hwrite
    obtain ⟨ip, maps, _, _, rfl⟩ := answer_write.mp hwrite
    refine ⟨_, pinged_iff.mpr ⟨maps, hanswers, rfl⟩, ?_⟩
    rw [hask]
    unfold pingResult
    dsimp only [id_eq]
    rw [decodeObjects_maps]
    simp
  · right
    constructor
    · intro docs hpinged
      obtain ⟨maps, hanswers, _⟩ := pinged_iff.mp hpinged
      exact hnot _ hanswers
    · rw [hask]
      rfl

/-- Go leaves an empty list of results out of the reply. -/
def kept (cmd : Command) (host target : String) : Option (List Json) :=
  if (entry cmd host target).results = [] then none
  else some ((entry cmd host target).results.map .object)

theorem kept_iff {docs : List Json} :
    kept cmd host target = some docs ↔ docs ≠ [] ∧ cmd.Pinged host target docs := by
  unfold kept
  rcases entry_results cmd host target with ⟨docs', hpinged, hresults⟩ | ⟨hnot, hresults⟩
  · rw [hresults]
    by_cases hempty : (entry cmd host target).results = []
    · rw [hempty, List.map_nil] at hresults
      rw [if_pos hempty]
      constructor
      · nofun
      · rintro ⟨hne, hpinged'⟩
        exact absurd ((pinged_inj hpinged' hpinged).trans hresults.symm) hne
    · rw [if_neg hempty]
      constructor
      · rintro ⟨⟩
        exact ⟨fun h => hempty (List.map_eq_nil_iff.mp (hresults.trans h)), hpinged⟩
      · rintro ⟨_, hpinged'⟩
        rw [pinged_inj hpinged' hpinged]
  · rw [if_pos hresults]
    exact ⟨nofun, fun h => absurd h.2 (hnot docs)⟩

theorem kept_none :
    kept cmd host target = none ↔ ∀ docs, cmd.Pinged host target docs → docs = [] := by
  rw [Option.eq_none_iff_forall_ne_some]
  constructor
  · intro h docs hpinged
    by_contra hne
    exact h docs (kept_iff.mpr ⟨hne, hpinged⟩)
  · intro h docs hkept
    obtain ⟨hne, hpinged⟩ := kept_iff.mp hkept
    exact hne (h docs hpinged)

end Pair

/-! ## The reply and the page -/

section Reply

variable {cmd : Command} {workers : List (Go Unit PingResults)}
  {collect : List PingResults → List PingResults} {s : State Unit PingResults}

theorem ping_fanOut (hping : WebUI.ping cmd.parseDuration (.ok cmd.input) = .fanOut workers collect) :
    workers = pingWorkers cmd.input ∧ collect = id := by
  obtain ⟨delay, hdelay⟩ := Option.isSome_iff_exists.mp cmd.accepted
  unfold WebUI.ping at hping
  dsimp only [Command.input] at hping
  rw [hdelay] at hping
  cases hping
  exact ⟨rfl, rfl⟩

/-- The exchange that ends in this state of the handler's goroutines. -/
def Command.exchange (cmd : Command)
    (hping : WebUI.ping cmd.parseDuration (.ok cmd.input) = .fanOut workers collect)
    (hs : Reaches step (start workers ()) s) (hstuck : Stuck step s) : PingExchange where
  pairs := cmd.pairs
  distinct := combinations_nodup _ _ _
  input := cmd.input
  sent := by simp [Command.input, Function.comp_def]
  reply := collect s.results
  replied := ⟨cmd.parseDuration, workers, collect, s, hping, hs, hstuck, rfl⟩

theorem items_entries (cmd : Command) :
    cmd.input.items.map pingEntry =
      (flattenArgs (pingArgs cmd.pairs)).map fun c => entry cmd c.hostId c.peerId := by
  unfold PingInput.items flattenArgs Command.input
  simp only [List.flatMap_map, List.map_flatMap, List.map_map]
  rfl

/-- The reply has the entry of each pair. -/
theorem mem_reply {e : PingExchange} (hinput : e.input = cmd.input) {r : PingResults} :
    r ∈ e.reply ↔ ∃ host target, cmd.Asked host target ∧ r = entry cmd host target := by
  rw [e.reply_eq, hinput, items_entries, List.mem_map]
  have hpairs : ∀ c : Combination, c ∈ flattenArgs (pingArgs cmd.pairs) ↔
      cmd.Asked c.hostId c.peerId := by
    intro c
    rw [(flattenArgs_perm cmd.pairs).mem_iff]
    exact mem_combinations
  constructor
  · rintro ⟨c, hc, rfl⟩
    exact ⟨c.hostId, c.peerId, (hpairs c).mp hc, rfl⟩
  · rintro ⟨host, target, hasked, rfl⟩
    exact ⟨⟨host, target⟩, (hpairs ⟨host, target⟩).mpr hasked, rfl⟩

theorem asked_named (hnamed : ∀ c ∈ cmd.pairs, Named c) {host target : String}
    (hasked : cmd.Asked host target) : host ≠ "" ∧ target ≠ "" := by
  have h := hnamed ⟨host, target⟩ (mem_combinations.mpr hasked)
  exact ⟨h.host.1, h.target.1⟩

theorem reply_ordinary {e : PingExchange} (hinput : e.input = cmd.input)
    (hnamed : ∀ c ∈ cmd.pairs, Named c) : e.Ordinary := by
  intro r hr
  obtain ⟨host, target, hasked, rfl⟩ := (mem_reply hinput).mp hr
  have h := hnamed ⟨host, target⟩ (mem_combinations.mpr hasked)
  rw [(entry_names cmd host target).1, (entry_names cmd host target).2]
  exact ⟨h.host.2, h.target.2⟩

theorem reply_named {e : PingExchange} (hinput : e.input = cmd.input)
    (hnamed : ∀ c ∈ cmd.pairs, Named c) : ∀ r ∈ e.reply, r.host ≠ "" ∧ r.target ≠ "" := by
  intro r hr
  obtain ⟨host, target, hasked, rfl⟩ := (mem_reply hinput).mp hr
  rw [(entry_names cmd host target).1, (entry_names cmd host target).2]
  exact asked_named hnamed hasked

/-- An output is the one of the entry of its own pair. -/
theorem output_asked {e : PingExchange} (hinput : e.input = cmd.input)
    (hnamed : ∀ c ∈ cmd.pairs, Named c) {host target : String} (hasked : cmd.Asked host target)
    (typeError : String) :
    (e.outputs typeError).output host target = some (.results (kept cmd host target)) := by
  have hmem : entry cmd host target ∈ e.reply := (mem_reply hinput).mpr ⟨host, target, hasked, rfl⟩
  have houtput : (e.outputs typeError).output (entry cmd host target).host
      (entry cmd host target).target = some (.results (kept cmd host target)) :=
    PingExchange.output_complete (reply_ordinary hinput hnamed) (reply_named hinput hnamed) hmem
  rw [(entry_names cmd host target).1, (entry_names cmd host target).2] at houtput
  exact houtput

theorem output_unasked {e : PingExchange} (hinput : e.input = cmd.input)
    (hnamed : ∀ c ∈ cmd.pairs, Named c) {host target : String} (hnot : ¬ cmd.Asked host target)
    (typeError : String) : (e.outputs typeError).output host target = none := by
  cases houtput : (e.outputs typeError).output host target with
  | none => rfl
  | some output =>
      obtain ⟨r, hr, hhost, htarget, _⟩ :=
        PingExchange.output_source (reply_ordinary hinput hnamed) houtput
      obtain ⟨host', target', hasked, rfl⟩ := (mem_reply hinput).mp hr
      obtain ⟨hne, hne'⟩ := asked_named hnamed hasked
      rw [(entry_names cmd host' target').1, propertyName_omitEmpty hne] at hhost
      rw [(entry_names cmd host' target').2, propertyName_omitEmpty hne'] at htarget
      subst hhost htarget
      exact absurd hasked hnot

/-- A colour is taken from the last result of a pair that has any. -/
theorem color_source {e : PingExchange} (hinput : e.input = cmd.input)
    (hnamed : ∀ c ∈ cmd.pairs, Named c) {edgeId color : String}
    (h : (e.data.foldl Collected.paint ∅).lookup edgeId = some color) :
    ∃ host target last, cmd.Asked host target ∧ edgeId = edgeIdOf host target ∧
      ((entry cmd host target).results.map Json.object).getLast? = some last ∧
      color = getEdgeColorFromResult last := by
  rw [lookup_foldl_paint] at h
  obtain ⟨last, hlast, rfl⟩ := Option.map_eq_some_iff.mp h
  obtain ⟨element, helement, hresult⟩ := List.mem_filterMap.mp (List.mem_of_getLast? hlast)
  obtain ⟨r, hr, rfl⟩ := List.mem_map.mp helement
  obtain ⟨host, target, hasked, rfl⟩ := (mem_reply hinput).mp hr
  obtain ⟨hne, hne'⟩ := asked_named hnamed hasked
  unfold PingResult.resultFor at hresult
  split at hresult
  · next hid =>
      refine ⟨host, target, last, hasked, ?_, ?_, rfl⟩
      · rw [← hid]
        unfold PingResult.edgeId PingResult.ofReply
        dsimp only
        rw [(entry_names cmd host target).1, (entry_names cmd host target).2,
          propertyName_omitEmpty hne, propertyName_omitEmpty hne']
      · unfold PingResult.lastResult PingResult.ofReply at hresult
        dsimp only at hresult
        by_cases hnone : (entry cmd host target).results = []
        · rw [if_pos hnone] at hresult
          cases hresult
        · rw [if_neg hnone] at hresult
          exact hresult
  · cases hresult

end Reply

/-- However the handler's goroutines run, it survives the request; and when it has
replied, the page keeps for each connected pair of the selection the results of the
pings from its host's adapter to the address this one knows for the target. -/
theorem pings_shown (cmd : Command) (hnamed : ∀ c ∈ cmd.pairs, Named c) (typeError : String)
    {workers : List (Go Unit PingResults)} {collect : List PingResults → List PingResults}
    (hping : WebUI.ping cmd.parseDuration (.ok cmd.input) = .fanOut workers collect)
    {s : State Unit PingResults} (hs : Reaches step (start workers ()) s) :
    s.crashed = false ∧ (Stuck step s →
      ∃ c, (PingResponse.reply ((collect s.results).map .ofReply)).fetch typeError ∅ cmd.pairs =
        some ⟨c, true⟩ ∧ cmd.ShownIn c) := by
  constructor
  · rw [(ping_fanOut hping).1] at hs
    have haligned : (WebUI.Handled.fanOut (pingWorkers cmd.input) id).Aligned cmd.input.items
        pingEntry := aligned_of_results (pingWorkers_eq cmd.input) rfl
    cases haligned with
    | fanOut _ hreplies => exact (hreplies s hs).1
  · intro hstuck
    have hinput : (cmd.exchange hping hs hstuck).input = cmd.input := rfl
    have hfetch := PingExchange.fetch_reply (reply_ordinary hinput hnamed) typeError
    refine ⟨_, hfetch, ?_⟩
    have houtputs := PingExchange.outputs_eq (reply_ordinary hinput hnamed) typeError
    constructor
    · intro host target hnot
      exact houtputs ▸ output_unasked hinput hnamed hnot typeError
    · intro host target hasked docs
      rw [← houtputs, output_asked hinput hnamed hasked typeError, ← kept_iff]
      simp
    · intro host target hasked
      rw [← houtputs, output_asked hinput hnamed hasked typeError, ← kept_none]
      simp
    · intro edgeId color hcolor
      obtain ⟨host, target, last, hasked, hid, hlast, hfrom⟩ := color_source hinput hnamed hcolor
      rcases entry_results cmd host target with ⟨docs, hpinged, hresults⟩ | ⟨_, hresults⟩
      · exact ⟨host, target, docs, last, hasked, hid, hpinged, hresults ▸ hlast, hfrom⟩
      · rw [hresults] at hlast
        cases hlast

/-- Of two pings one comes back, with the type that `PingResult` has. -/
def laptopPinger : Pinger where
  peers := Adapter.KnownPeers.stored [[some ⟨"laptop", ["100.64.0.7"]⟩]]
  hostPing _ _ _ i :=
    if i = 0 then .error "timeout"
    else .ok (.pointer (.struct none [({ name := "NodeIP" }, .leaf (.string "100.64.0.7"))]))

/-- Two targets, one of which the adapter does not know. -/
def twoTargets : Command where
  sourceHosts := .ofList ["node"]
  targetPeers := .ofList ["laptop", "phone"]
  edgeList := [⟨"e", "node", "laptop"⟩, ⟨"f", "node", "phone"⟩]
  count := 2
  pingType := "disco"
  delay := "200ms"
  parseDuration _ := some 200000000
  accepted := rfl
  net := ⟨newClient.setKnownHost "node" "ts-a", fun _ => none, fun _ => laptopPinger⟩

theorem pings_shown_two : ∃ s : State Unit PingResults,
    (s.crashed = false ∧ (Stuck step s →
      ∃ c, (PingResponse.reply (s.results.map .ofReply)).fetch "" ∅ twoTargets.pairs =
        some ⟨c, true⟩ ∧ twoTargets.ShownIn c)) ∧
      s.results.map PingResults.error = ["", "500 Internal Server Error"] := by
  have hnamed : ∀ c ∈ twoTargets.pairs, Named c := by
    intro c hc
    have hpairs : c ∈ [(⟨"node", "laptop"⟩ : Combination), ⟨"node", "phone"⟩] := hc
    simp only [List.mem_cons, List.not_mem_nil, or_false] at hpairs
    rcases hpairs with rfl | rfl
    · exact ⟨by decide, by decide⟩
    · exact ⟨by decide, by decide⟩
  have hrun : execute step (start (pingWorkers twoTargets.input) ())
      [.spawn, .spawn, .deliver, .close, .deliver, .close] = some _ := rfl
  exact ⟨_, pings_shown twoTargets hnamed "" rfl (execute_reaches hrun), rfl⟩

end TSymbiote.Pings
