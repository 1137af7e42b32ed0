import TSymbiote.Frontend.CommandOutputs
import TSymbiote.Frontend.PingReply
import TSymbiote.Frontend.StreamText
import TSymbiote.WebUI.HostQueries
import TSymbiote.WebUI.Passthrough

/-! # What becomes of the reply to a query

A query asks the same of every host. The page goes through the elements of the
reply and keeps one value for each host, its error or its result. The results
have been decoded and encoded again on the way, and empty fields left out.
-/

namespace TSymbiote.Frontend

open Shared WebUI

/-! ## The elements of a reply -/

/-- A field that an element does not have is undefined; an undefined result reads
like null. -/
structure HostResult where
  host : Option String
  error : Option String
  result : Json

/-- An element of the passthrough handler's reply. -/
def HostResult.ofDefault (float64 : String → String) (r : DefaultResult) : HostResult where
  host := omitEmpty r.host
  error := omitEmpty r.error
  result := if r.result.isEmpty then .null else .object (Json.decodedMembers float64 r.result)

/-- An element of the reply with the goroutines; bytes are sent as base64. -/
def HostResult.ofGoroutines (r : GoroutinesResult) : HostResult where
  host := omitEmpty r.host
  error := omitEmpty r.error
  result := if r.result.isEmpty then .null else .string (String.ofList (Base64.encode r.result))

/-- `host || 'unknown'` -/
def HostResult.hostName (r : HostResult) : String :=
  match r.host with
  | none => "unknown"
  | some host => if host = "" then "unknown" else host

def errorOutput (text : String) : Json := .object [("error", .string text)]

/-- What most commands keep of an element. -/
def HostResult.output (r : HostResult) : Json :=
  match r.error with
  | none => r.result
  | some error => if error = "" then r.result else errorOutput error

/-- The text of a result in base64; an empty one is as good as none. -/
def decodedText (result : Json) : Json :=
  match result with
  | .string result =>
      if result = "" then errorOutput "No data returned"
      else
        match WebSocketStream.atob result with
        | some text => .string text
        | none => errorOutput "Failed to decode goroutines data"
  | _ => errorOutput "No data returned"

/-- What `fetchGoroutines` keeps of an element. -/
def HostResult.textOutput (r : HostResult) : Json :=
  match r.error with
  | none => decodedText r.result
  | some error => if error = "" then decodedText r.result else errorOutput error

theorem output_of_error {r : HostResult} {error : String} (h : r.error = some error)
    (hne : error ≠ "") : r.output = errorOutput error ∧ r.textOutput = errorOutput error := by
  unfold HostResult.output HostResult.textOutput
  rw [h]
  exact ⟨if_neg hne, if_neg hne⟩

theorem output_of_result {r : HostResult} (h : r.error = none) :
    r.output = r.result ∧ r.textOutput = decodedText r.result := by
  unfold HostResult.output HostResult.textOutput
  rw [h]
  exact ⟨rfl, rfl⟩

theorem encode_ne_nil {data : Bytes} (h : data ≠ []) : String.ofList (Base64.encode data) ≠ "" := by
  intro hempty
  have hlist : Base64.encode data = [] := by
    rw [← String.toList_ofList (l := Base64.encode data), hempty]
    rfl
  have hdecode := Base64.decode_encode data
  rw [hlist] at hdecode
  exact h (Option.some.inj hdecode).symm

theorem decodedText_encode {data : Bytes} (h : data ≠ []) :
    decodedText (.string (String.ofList (Base64.encode data))) =
      .string (WebSocketStream.binaryString data) := by
  unfold decodedText
  dsimp only
  rw [if_neg (encode_ne_nil h), WebSocketStream.atob_encode]

/-! ## The loop over the reply -/

/-- `results[hostName] = value`. Assigning to `__proto__` makes no property. -/
def setProperty (results : GoMap Json) (hostName : String) (value : Json) : GoMap Json :=
  if hostName = "__proto__" then results else results.insert hostName value

def collectResults (output : HostResult → Json) (data : List HostResult) : GoMap Json :=
  data.foldl (fun results r => setProperty results r.hostName (output r)) ∅

/-- The properties of an object, as `outputData` has them. -/
def properties (results : GoMap Json) : CommandOutputs.OutputData :=
  results.entries.map fun e => (e.1, e.2)

theorem lookup_properties (results : GoMap Json) (hostName : String) :
    (properties results).lookup hostName = results.lookup hostName := by
  unfold properties AList.lookup
  induction results.entries with
  | nil => rfl
  | cons e entries ih =>
      rcases e with ⟨k, v⟩
      rw [List.map_cons, List.lookup_cons, ih]
      by_cases hk : hostName = k
      · subst hk
        rw [beq_self_eq_true, List.dlookup_cons_eq]
      · rw [beq_eq_false_iff_ne.mpr hk, List.dlookup_cons_ne _ _ hk]

theorem lookup_setProperty (results : GoMap Json) (hostName hostName' : String) (value : Json) :
    (setProperty results hostName value).lookup hostName' =
      if hostName' = hostName ∧ hostName' ≠ "__proto__" then some value
      else results.lookup hostName' := by
  unfold setProperty
  by_cases hproto : hostName = "__proto__"
  · rw [if_pos hproto, if_neg]
    rintro ⟨heq, hne⟩
    exact hne (heq.trans hproto)
  · rw [if_neg hproto, lookup_insert_ite]
    by_cases heq : hostName' = hostName
    · subst heq
      rw [if_pos rfl, if_pos ⟨rfl, hproto⟩]
    · rw [if_neg heq, if_neg fun h => heq h.1]

/-- With an element for each of the hosts, each has the output of its own one. -/
theorem lookup_collectResults (output : HostResult → Json) {element : String → HostResult}
    {hosts : List String} (hnames : ∀ host ∈ hosts, (element host).hostName = host) (host : String) :
    (collectResults output (hosts.map element)).lookup host =
      if host ∈ hosts ∧ host ≠ "__proto__" then some (output (element host)) else none := by
  unfold collectResults
  induction hosts using List.reverseRecOn with
  | nil => simp
  | append_singleton hosts last ih =>
      have hlast := hnames last (List.mem_append_right _ (List.mem_singleton_self last))
      have hfirst := ih fun h hh => hnames h (List.mem_append_left _ hh)
      rw [List.map_append, List.map_singleton, List.foldl_concat, lookup_setProperty, hlast, hfirst]
      by_cases heq : host = last
      · subst heq
        by_cases hproto : host = "__proto__"
        · simp [hproto]
        · simp [hproto]
      · simp [heq]

end TSymbiote.Frontend
