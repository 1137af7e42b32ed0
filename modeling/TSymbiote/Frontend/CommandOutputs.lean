import TSymbiote.Lib.Json
import TSymbiote.Lib.Transition

/-! # Command outputs

A command names itself the last one when it starts, and sets the output data
when its response has come, if at all. Streams do both at once and may be started
while a request is in flight. Over the runs of the page, `Labelled` is the
condition under which the shown output belongs to the shown command.
-/

namespace TSymbiote.Frontend.CommandOutputs

open Transition

inductive Command where
  | status
  | ping
  | queryDNS
  | pprof
  | prefs
  | driveShares
  | dnsConfig
  | serveConfig
  | appConnRoutes
  | goroutines
  | logs
  | busEvents
  deriving DecidableEq, Repr

abbrev OutputData := List (String × Json)

/-- `pending` is the command whose request is in flight, and `producer` the one
that set `outputData`; the page keeps neither. -/
structure UI where
  lastCommand : Option Command
  outputData : OutputData
  statusLoading : Bool
  isStreaming : Bool
  pending : Option Command
  producer : Option Command

def loaded : UI := ⟨none, [], false, false, none, none⟩

/-- The inputs a command checks: whether the DNS name is blank, and for profiles
the parsed duration, if it is a number. -/
structure Form where
  dnsNameBlank : Bool
  pprofType : String
  pprofDuration : Option Int

/-- The selected hosts, the online ones among them, and whether some target can
be pinged from them. -/
structure Selection where
  selectedHosts : List String
  isOnline : String → Bool
  hasTargets : Bool

def Selection.filterOnline (sel : Selection) : List String := sel.selectedHosts.filter sel.isOnline

/-! ## Commands -/

/-- The beginning of a request command, up to where it waits for the response. -/
def request (command : Command) (onlineSelectedHosts : List String) (ui : UI) : UI :=
  let ui := { ui with isStreaming := false, statusLoading := true, lastCommand := some command }
  if onlineSelectedHosts = [] then { ui with statusLoading := false }
  else { ui with pending := some command }

def fetchStatus (sel : Selection) : UI → UI := request .status sel.filterOnline

/-- Sent without looking for hosts. -/
def fetchPing (ui : UI) : UI :=
  { ui with
    isStreaming := false, statusLoading := true, lastCommand := some .ping, pending := some .ping }

def fetchQueryDNS (form : Form) (sel : Selection) (ui : UI) : UI :=
  if form.dnsNameBlank then ui else request .queryDNS sel.filterOnline ui

def Form.needsDuration (form : Form) : Bool :=
  form.pprofType ∈ ["profile", "threadcreate", "mutex", "heap", "block", "allocs"]

def Form.minDuration (form : Form) : Int :=
  if form.pprofType ∈ ["allocs", "block", "heap", "mutex", "threadcreate"] then 0 else 1

def Form.durationInvalid (form : Form) : Bool :=
  form.needsDuration &&
    match form.pprofDuration with
    | none => true
    | some duration => duration < form.minDuration || 300 < duration

def fetchPprof (form : Form) (sel : Selection) (ui : UI) : UI :=
  if form.durationInvalid then ui else request .pprof sel.filterOnline ui

def fetchPrefs (sel : Selection) : UI → UI := request .prefs sel.filterOnline

def fetchDriveShares (sel : Selection) : UI → UI := request .driveShares sel.filterOnline

def fetchDNSConfig (sel : Selection) : UI → UI := request .dnsConfig sel.filterOnline

def fetchServeConfig (sel : Selection) : UI → UI := request .serveConfig sel.filterOnline

def fetchAppConnRoutes (sel : Selection) : UI → UI := request .appConnRoutes sel.filterOnline

def fetchGoroutines (sel : Selection) : UI → UI := request .goroutines sel.filterOnline

def stream (command : Command) (onlineSelectedHosts : List String) (ui : UI) : UI :=
  if onlineSelectedHosts = [] then ui
  else
    { ui with
      lastCommand := some command
      -- Assigning to `__proto__` makes no key.
      outputData := (onlineSelectedHosts.filter (· ≠ "__proto__")).map fun hostId =>
        (hostId, .object [("streaming", .bool true)])
      producer := some command, isStreaming := true }

def fetchLogs (sel : Selection) : UI → UI := stream .logs sel.filterOnline

def fetchBusEvents (sel : Selection) : UI → UI := stream .busEvents sel.filterOnline

def fetchCommand (form : Form) (sel : Selection) : Command → UI → UI
  | .status => fetchStatus sel
  | .ping => fetchPing
  | .queryDNS => fetchQueryDNS form sel
  | .pprof => fetchPprof form sel
  | .prefs => fetchPrefs sel
  | .driveShares => fetchDriveShares sel
  | .dnsConfig => fetchDNSConfig sel
  | .serveConfig => fetchServeConfig sel
  | .appConnRoutes => fetchAppConnRoutes sel
  | .goroutines => fetchGoroutines sel
  | .logs => fetchLogs sel
  | .busEvents => fetchBusEvents sel

/-- The buttons; the modals of the DNS query and the profiles submit without
looking at the selection. -/
def enabled (ui : UI) (sel : Selection) : Command → Bool
  | .logs | .busEvents => !sel.selectedHosts.isEmpty && !ui.isStreaming
  | .ping => !sel.selectedHosts.isEmpty && sel.hasTargets && !ui.statusLoading
  | .queryDNS | .pprof | .goroutines => !ui.statusLoading
  | _ => !sel.selectedHosts.isEmpty && !ui.statusLoading

/-- What becomes of a request: the results collected from the response, or an
error that is caught. -/
inductive Outcome where
  | results (results : OutputData)
  | failed

inductive Event where
  | press (command : Command) (form : Form) (sel : Selection)
  | respond (outcome : Outcome)
  /-- The stream is cancelled or its connection ends. -/
  | streamEnds

/-- The rest of a request command. -/
def settle (command : Command) (ui : UI) : Outcome → UI
  | .results results =>
      { ui with
        outputData := results, producer := some command, statusLoading := false, pending := none }
  | .failed => { ui with statusLoading := false, pending := none }

def step (ui : UI) : Event → Option UI
  | .press command form sel =>
      if enabled ui sel command then some (fetchCommand form sel command ui) else none
  | .respond outcome =>
      -- A ping that fails has results all the same, unless storing these throws.
      match ui.pending with
      | none => none
      | some command => some (settle command ui outcome)
  | .streamEnds => some { ui with isStreaming := false }

/-- What `CommandOutputsPanel` shows; the renderer goes by the command. -/
inductive Panel where
  | loading
  | noOutput
  | results (renderer : Option Command) (outputData : OutputData)

def panel (ui : UI) : Panel :=
  if ui.statusLoading then .loading
  else if ui.outputData.isEmpty then .noOutput
  else .results ui.lastCommand ui.outputData

/-- No request is in flight, and there is output of another command than the last. -/
def Mislabelled (ui : UI) : Prop :=
  ui.pending = none ∧ ui.outputData ≠ [] ∧ ui.producer ≠ ui.lastCommand

/-- The command starts a request, but finds no host to send it for. -/
def Unsent (form : Form) (sel : Selection) : Command → Prop
  | .ping | .logs | .busEvents => False
  | .queryDNS => form.dnsNameBlank = false ∧ sel.filterOnline = []
  | .pprof => form.durationInvalid = false ∧ sel.filterOnline = []
  | _ => sel.filterOnline = []

/-- The output that stays, or comes, is empty or that of the command which is
then the last. -/
def Labelled (ui : UI) : Event → Prop
  | .press command form sel =>
      Unsent form sel command → ui.outputData = [] ∨ ui.producer = some command
  | .respond (.results results) => results = [] ∨ ui.lastCommand = ui.pending
  | .respond .failed => ui.outputData = [] ∨ ui.producer = ui.lastCommand
  | .streamEnds => True

variable {ui t : UI} {command : Command} {form : Form} {sel : Selection}

/-! ## What one event can do -/

/-- What a command comes to before any response. -/
inductive Started (form : Form) (sel : Selection) (command : Command) (ui : UI) : UI → Prop where
  | ignored (hsent : ¬ Unsent form sel command) : Started form sel command ui ui
  | unsent (hunsent : Unsent form sel command) (hidle : ui.statusLoading = false) :
      Started form sel command ui
        { ui with isStreaming := false, statusLoading := false, lastCommand := some command }
  | sent (hsent : ¬ Unsent form sel command) :
      Started form sel command ui
        { ui with
          isStreaming := false, statusLoading := true, lastCommand := some command
          pending := some command }
  | streamed (hsent : ¬ Unsent form sel command) (outputData : OutputData) :
      Started form sel command ui
        { ui with
          lastCommand := some command, outputData, producer := some command, isStreaming := true }

theorem request_started (hidle : ui.statusLoading = false)
    (hunsent : Unsent form sel command ↔ sel.filterOnline = []) :
    Started form sel command ui (request command sel.filterOnline ui) := by
  unfold request
  dsimp only
  split
  · next hnone => exact .unsent (hunsent.mpr hnone) hidle
  · next hsome => exact .sent fun h => hsome (hunsent.mp h)

theorem stream_started (hsent : ¬ Unsent form sel command) :
    Started form sel command ui (stream command sel.filterOnline ui) := by
  unfold stream
  split
  · exact .ignored hsent
  · exact .streamed hsent _

theorem idle_of_enabled (h : enabled ui sel command = true) (hlogs : command ≠ .logs)
    (hbus : command ≠ .busEvents) : ui.statusLoading = false := by
  cases command <;> simp_all [enabled]

theorem fetchCommand_started (h : enabled ui sel command = true) :
    Started form sel command ui (fetchCommand form sel command ui) := by
  have hidle := idle_of_enabled h
  cases command with
  | logs => exact stream_started id
  | busEvents => exact stream_started id
  | ping => exact .sent id
  | queryDNS =>
      unfold fetchCommand fetchQueryDNS
      dsimp only
      split
      · next hblank =>
          apply Started.ignored
          intro hunsent
          rw [hunsent.1] at hblank
          cases hblank
      · next hname =>
          exact request_started (hidle (by decide) (by decide)) (by simp [Unsent, hname])
  | pprof =>
      unfold fetchCommand fetchPprof
      dsimp only
      split
      · next hinvalid =>
          apply Started.ignored
          intro hunsent
          rw [hunsent.1] at hinvalid
          cases hinvalid
      · next hvalid =>
          exact request_started (hidle (by decide) (by decide)) (by simp [Unsent, hvalid])
  | status => exact request_started (hidle (by decide) (by decide)) Iff.rfl
  | prefs => exact request_started (hidle (by decide) (by decide)) Iff.rfl
  | driveShares => exact request_started (hidle (by decide) (by decide)) Iff.rfl
  | dnsConfig => exact request_started (hidle (by decide) (by decide)) Iff.rfl
  | serveConfig => exact request_started (hidle (by decide) (by decide)) Iff.rfl
  | appConnRoutes => exact request_started (hidle (by decide) (by decide)) Iff.rfl
  | goroutines => exact request_started (hidle (by decide) (by decide)) Iff.rfl

theorem respond_settled {outcome : Outcome} (h : step ui (.respond outcome) = some t) :
    ∃ command, ui.pending = some command ∧ t = settle command ui outcome := by
  unfold step at h
  dsimp only at h
  split at h
  · contradiction
  · next command hpending =>
      cases h
      exact ⟨command, hpending, rfl⟩

/-! ## Runs of the page -/

/-- The page shows that it is loading just while a request is in flight. -/
def Settled (ui : UI) : Prop := ui.statusLoading = ui.pending.isSome

theorem Started.settled (h : Started form sel command ui t) (hui : Settled ui) : Settled t := by
  cases h with
  | ignored _ => exact hui
  | unsent _ hidle =>
      unfold Settled at hui ⊢
      rw [hidle] at hui
      exact hui
  | sent _ => rfl
  | streamed _ _ => exact hui

theorem step_settled {event : Event} (hui : Settled ui) (h : step ui event = some t) : Settled t := by
  cases event with
  | press command form sel =>
      unfold step at h
      dsimp only at h
      split at h
      · next henabled =>
          cases h
          exact (fetchCommand_started henabled).settled hui
      · contradiction
  | respond outcome =>
      rcases respond_settled h with ⟨command, _, rfl⟩
      cases outcome <;> rfl
  | streamEnds =>
      cases h
      exact hui

/-- Where a command leaves output of another one. -/
theorem Started.mislabelled_iff (h : Started form sel command ui t) (hui : Settled ui)
    (hclear : ¬ Mislabelled ui) :
    Mislabelled t ↔ ¬ Labelled ui (.press command form sel) := by
  unfold Labelled
  cases h with
  | ignored hsent => simp [hsent, hclear]
  | sent hsent => simp [hsent, Mislabelled]
  | streamed hsent outputData => simp [hsent, Mislabelled]
  | unsent hunsent hidle =>
      have hnone : ui.pending = none := by
        unfold Settled at hui
        rw [hidle] at hui
        simpa using hui.symm
      simp [hunsent, Mislabelled, hnone]

theorem step_mislabelled_iff {event : Event} (hui : Settled ui) (hclear : ¬ Mislabelled ui)
    (h : step ui event = some t) : Mislabelled t ↔ ¬ Labelled ui event := by
  cases event with
  | press command form sel =>
      unfold step at h
      dsimp only at h
      split at h
      · next henabled =>
          cases h
          exact (fetchCommand_started henabled).mislabelled_iff hui hclear
      · contradiction
  | respond outcome =>
      rcases respond_settled h with ⟨command, hpending, rfl⟩
      cases outcome with
      | results results => simp [settle, Mislabelled, Labelled, hpending, eq_comm]
      | failed => simp [settle, Mislabelled, Labelled]
  | streamEnds =>
      cases h
      simp only [Labelled, not_true_eq_false, iff_false]
      exact hclear

/-- Mislabelled output is what the panel shows then. -/
theorem panel_of_mislabelled (hui : Settled ui) (h : Mislabelled ui) :
    panel ui = .results ui.lastCommand ui.outputData := by
  rcases h with ⟨hpending, hsome, _⟩
  unfold Settled at hui
  rw [hpending] at hui
  unfold panel
  simp [hui, hsome]

/-- Over any events the output stays under the name of its command just when the
commands and responses meet the condition. -/
theorem labelled_iff (events : List Event) :
    Throughout step (fun ui => ¬ Mislabelled ui) loaded events ↔ Along step Labelled loaded events := by
  apply throughout_iff_along (P := fun ui => Settled ui ∧ ¬ Mislabelled ui) And.right
  · intro ui event t hui hok h
    refine ⟨step_settled hui.1 h, ?_⟩
    intro hmislabelled
    exact (step_mislabelled_iff hui.1 hui.2 h).mp hmislabelled hok
  · intro ui event t hui h hgood
    by_contra hok
    exact hgood ((step_mislabelled_iff hui.1 hui.2 h).mpr hok)
  · exact ⟨rfl, fun h => h.2.1 rfl⟩

/-- The status is asked for when the hosts have gone offline. -/
theorem offline_status_mislabelled :
    ∃ ui, execute step loaded
        [.press .prefs ⟨true, "profile", some 30⟩ ⟨["node"], fun _ => true, false⟩,
          .respond (.results [("node", .object [])]),
          .press .status ⟨true, "profile", some 30⟩ ⟨["node"], fun _ => false, false⟩] = some ui ∧
      ui.lastCommand = some .status ∧ ui.producer = some .prefs ∧ Mislabelled ui := by
  refine ⟨_, rfl, rfl, rfl, rfl, ?_, ?_⟩
  · exact List.cons_ne_nil _ _
  · decide

end TSymbiote.Frontend.CommandOutputs
