import TSymbiote.Lib.FanOut
import TSymbiote.Lib.Json
import TSymbiote.Shared.Paths

/-! # Passthrough requests

`RelativeJSON` asks the adapter of every requested host for one JSON object and
collects the answers in request order. Each host has a goroutine with an
unbuffered channel; the handler receives once from each channel and closes it.
-/

namespace TSymbiote.WebUI

open Transition FanOut Shared

structure DefaultResult where
  host : String
  error : String := ""
  result : List (String × Json) := []

/-- A requested host with what `CallHost` returns for it. -/
structure HostCall where
  targetHost : String
  answer : Except String Body

/-- The goroutine `RelativeJSON` starts for one host. -/
def relativeJSONWorker (call : HostCall) : Go Unit DefaultResult :=
  match call.answer with
  | .error err => .send { host := call.targetHost, error := err } .ret
  | .ok body =>
      match decodeObject body with
      | .error err =>
          -- The source does not return here: `result`, with the error already in
          -- it and the map still empty, is sent a second time.
          .send { host := call.targetHost, error := err } <|
            .send { host := call.targetHost, error := err, result := [] } .ret
      | .ok callResult => .send { host := call.targetHost, result := callResult } .ret

/-- What the handler does before it collects. -/
inductive Passthrough where
  | noPath
  | status (code : Nat)
  | fanOut (targetPath : String) (workers : List (Go Unit DefaultResult))

/-- `input` is the decoded request: the hosts, with their calls' outcomes. -/
def relativeJSON (urlPath : String) (input : Except String (List HostCall)) : Passthrough :=
  match KnownPath.targetPath urlPath with
  | none => .noPath
  | some targetPath =>
      match input with
      | .error _ => .status 500
      | .ok calls => .fanOut targetPath (calls.map relativeJSONWorker)

/-- Called on a known path, the handler fans out to that path's adapter version. -/
theorem relativeJSON_webUI (k : KnownPath) (calls : List HostCall) :
    relativeJSON k.webUI (.ok calls) = .fanOut k.adapter (calls.map relativeJSONWorker) := by
  rw [relativeJSON, KnownPath.targetPath_webUI]

/-! ## What the reply should say -/

/-- The entry a host's own outcome calls for: its error or its decoded object. -/
def HostCall.entry (call : HostCall) : DefaultResult :=
  match call.answer with
  | .error err => { host := call.targetHost, error := err }
  | .ok body =>
      match decodeObject body with
      | .error err => { host := call.targetHost, error := err }
      | .ok callResult => { host := call.targetHost, result := callResult }

/-- The adapter was not reached, or its body decoded. -/
def HostCall.Decodes (call : HostCall) : Prop :=
  ∀ body err, call.answer = .ok body → decodeObject body ≠ .error err

/-- No goroutine meets its channel closed; and when no goroutine can move any
more, each has sent one value and the reply lists the entries in request order. -/
def RepliesInOrder (calls : List HostCall) : Prop :=
  ∀ s, Reaches step (start (calls.map relativeJSONWorker) ()) s →
    s.crashed = false ∧ (Stuck step s → Complete s (calls.map HostCall.entry))

/-- What each goroutine sends. -/
def HostCall.sends (call : HostCall) : List DefaultResult :=
  match call.answer with
  | .error _ => [call.entry]
  | .ok body =>
      match decodeObject body with
      | .error _ => [call.entry, call.entry]
      | .ok _ => [call.entry]

theorem relativeJSONWorker_does (call : HostCall) :
    (relativeJSONWorker call).Does (some call.sends) := by
  unfold relativeJSONWorker HostCall.sends HostCall.entry
  cases call.answer with
  | error err => simp [Go.Does]
  | ok body => cases hd : decodeObject body <;> simp [hd, Go.Does]

theorem sends_ne_nil (call : HostCall) : call.sends ≠ [] := by
  unfold HostCall.sends
  split
  · simp
  · split <;> simp

theorem sends_decodes {call : HostCall} (h : call.Decodes) : call.sends = [call.entry] := by
  unfold HostCall.sends
  split
  · rfl
  · next body hbody =>
      split
      · next err herr => exact absurd herr (h body err hbody)
      · rfl

theorem decodes_of_sends {call : HostCall} {v : DefaultResult} (h : call.sends = [v]) :
    call.Decodes := by
  intro body err hbody herr
  simp [HostCall.sends, hbody, herr] at h

/-- The fan-out keeps its protocol exactly when every body that arrives decodes:
the goroutine of a body that does not decode sends twice, and whichever of the
second send and the close comes first, it panics. -/
theorem repliesInOrder_iff (calls : List HostCall) :
    RepliesInOrder calls ↔ ∀ call ∈ calls, call.Decodes := by
  have hworkers := bodies_do relativeJSONWorker_does calls
  constructor
  · intro h call hcall
    have hne : ∀ d ∈ calls.map (fun c => some c.sends), d ≠ some [] := by
      intro d hd
      obtain ⟨c, _, rfl⟩ := List.mem_map.mp hd
      simpa using sends_ne_nil c
    have hone := (never_crashes_iff () hworkers hne).mp fun s hs => (h s hs).1
    obtain ⟨v, hv⟩ := hone _ (List.mem_map_of_mem hcall)
    exact decodes_of_sends (Option.some.inj hv)
  · intro h s hs
    have hsends : calls.map (fun c => some c.sends) =
        (calls.map HostCall.entry).map fun v => some [v] := by
      rw [List.map_map]
      exact List.map_congr_left fun c hc => by rw [sends_decodes (h c hc)]; rfl
    rw [hsends] at hworkers
    exact reaches_alive () hworkers hs

/-- One host whose adapter answers with something other than an object. -/
theorem undecodable_body_crashes :
    ¬ RepliesInOrder [⟨"node", .ok (.malformed "unexpected EOF")⟩] := by
  intro h
  -- The second send comes after the close.
  have hrun : ∃ t, execute step (start ([⟨"node", .ok (.malformed "unexpected EOF")⟩].map
      relativeJSONWorker) ()) [.spawn, .deliver, .close, .work 0] = some t ∧ t.crashed = true :=
    ⟨_, rfl, rfl⟩
  rcases hrun with ⟨t, ht, hcrashed⟩
  have halive := (h t (execute_reaches ht)).1
  rw [hcrashed] at halive
  cases halive

end TSymbiote.WebUI
