import TSymbiote.Adapter.Simple
import TSymbiote.WebUI.HostQueries
import TSymbiote.WebUI.Passthrough
import TSymbiote.WebUI.Pprof

/-! # Failures of the local daemon

A call to the local daemon that fails on an adapter should reach the front end
as an error of that host: through the adapter's status code, `CallHost` and the
goroutine the WebUI started for the host. An endpoint is an adapter's handler
together with that goroutine.
-/

namespace TSymbiote.WebUI

open Adapter FanOut Shared

/-- The adapter writes `B`, the goroutine gets `W` and sends `R`. -/
structure Endpoint where
  {B : Type}
  {W : Type}
  {R : Type}
  /-- The answer when the call to the local daemon returns an error. -/
  adapter : String → Reply B
  decode : B → W
  worker : String → Except CallError (Option W) → Go Unit R
  error : R → String

namespace Endpoint

def call (e : Endpoint) (c : Client) (err host : String) : Except CallError (Option e.W) :=
  callHost c (fun _ => arrive e.decode (e.adapter err)) host

/-- The failure is seen at every stage: another code than 200, an error of
`CallHost`, and an entry with an error. -/
structure Reported (e : Endpoint) (c : Client) (err host : String) : Prop where
  answer : ∃ resp, e.adapter err = some resp ∧ resp.statusCode ≠ 200
  called : ∃ callErr, e.call c err host = .error callErr
  entry : ∃ v, e.worker host (e.call c err host) = .send v .ret ∧ e.error v ≠ ""

/-- The goroutine sends the text of a failed call. -/
def Forwards (e : Endpoint) : Prop :=
  ∀ host callErr, ∃ v, e.worker host (.error callErr) = .send v .ret ∧ e.error v = callErr.text

theorem reported_of_setStatusCode {e : Endpoint} (hforwards : e.Forwards) {err : String}
    {statusCode : Nat} (hcode : statusCode ≠ 200) (h : e.adapter err = Reply.setStatusCode statusCode)
    (c : Client) (host : String) : e.Reported c err host := by
  have hcall : ∃ callErr, e.call c err host = .error callErr := by
    refine callHost_error ?_
    intro adapter
    rw [h]
    exact ⟨_, callAdapter_status hcode⟩
  constructor
  · exact ⟨_, h, hcode⟩
  · exact hcall
  · rcases hcall with ⟨callErr, hcall⟩
    rcases hforwards host callErr with ⟨v, hv, herror⟩
    rw [hcall]
    refine ⟨v, hv, ?_⟩
    rw [herror]
    exact callErr.nonempty

theorem not_reported_of_write {e : Endpoint} {err : String} {data : e.B}
    (h : e.adapter err = Reply.write data) (c : Client) (host : String) : ¬ e.Reported c err host := by
  intro hr
  rcases hr.answer with ⟨resp, hresp, hcode⟩
  rw [h] at hresp
  cases hresp
  exact hcode rfl

end Endpoint

/-! ## The endpoints -/

/-- What `CallHost` returns, as the passthrough handler's goroutine reads it. -/
def hostCall (targetHost : String) (answer : Except CallError (Option Body)) : HostCall where
  targetHost := targetHost
  answer :=
    match answer with
    | .error err => .error err.text
    | .ok body => .ok (body.getD (.malformed endOfBody.text))

/-- An endpoint of `RelativeJSON`. -/
def passthrough (adapter : String → Reply Body) : Endpoint where
  adapter := adapter
  decode body := body
  worker targetHost answer := relativeJSONWorker (hostCall targetHost answer)
  error := DefaultResult.error

theorem passthrough_forwards (adapter : String → Reply Body) : (passthrough adapter).Forwards :=
  fun _ _ => ⟨_, rfl, rfl⟩

/-- The calls to the local daemon, with what else their handlers are given. -/
inductive LocalCall where
  | status
  | prefs
  | driveShares
  | dnsConfig
  | serveConfig
  | appConnRoutes (zero : List (Field × Value))
  | queryDNS (parse : Bytes → Server.DNSMessage) (input : QueryDNSInput)
  | pprof (input : Pprof.PprofInput) (seconds : Int)
  | goroutines

def LocalCall.endpoint : LocalCall → Endpoint
  | .status => passthrough fun err => Server.status (.error err)
  | .prefs => passthrough fun err => Server.prefs (.error err)
  | .driveShares => passthrough fun err => Server.driveShares (.error err)
  | .dnsConfig => passthrough fun err => Server.dnsConfig (.error err)
  | .serveConfig => passthrough fun err => Server.serveConfig (.error err)
  | .appConnRoutes zero => passthrough fun err => Server.appConnRoutes zero (.error err)
  | .queryDNS parse input =>
      { adapter := fun err => Server.queryDNS parse (.ok input) fun _ => .error err
        decode := fun body => body
        worker := queryDNSWorker
        error := QueryDNSResult.error }
  | .pprof input seconds =>
      { adapter := fun err => Server.pprof (.ok { type := input.type, seconds }) fun _ => .error err
        decode := fun data => ({ data } : Stream)
        worker := Pprof.pprofWorker input
        error := Pprof.PprofResult.error }
  | .goroutines =>
      { adapter := fun err => Server.goroutines (.error err)
        decode := fun data => ({ data } : Stream)
        worker := goroutinesWorker
        error := GoroutinesResult.error }

theorem LocalCall.forwards (call : LocalCall) : call.endpoint.Forwards := by
  cases call with
  | queryDNS | pprof | goroutines => exact fun _ _ => ⟨_, rfl, rfl⟩
  | _ => exact passthrough_forwards _

/-- The only failure that is no outage: the daemon lacks the feature. -/
def LocalCall.AbsentFeature (call : LocalCall) (err : String) : Prop :=
  (∃ zero, call = .appConnRoutes zero) ∧ err = Server.notFound

theorem LocalCall.adapter_eq (call : LocalCall) {err : String}
    (h : (∃ zero, call = .appConnRoutes zero) → err = Server.notFound) :
    call.endpoint.adapter err = Reply.setStatusCode 500 := by
  cases call with
  | appConnRoutes zero =>
      rw [h ⟨zero, rfl⟩]
      exact Server.appConnRoutes_notFound zero
  | _ => rfl

/-- The failure of a call reaches the front end from every endpoint but
`AppConnRoutes`, which reports nothing but the absent feature. -/
theorem failure_reported_iff (call : LocalCall) (c : Client) (err host : String) :
    call.AbsentFeature err ∨ call.endpoint.Reported c err host ↔
      ((∃ zero, call = .appConnRoutes zero) → err = Server.notFound) := by
  constructor
  · rintro (habsent | hreported) happ
    · exact habsent.2
    · rcases happ with ⟨zero, happ⟩
      subst happ
      by_contra herr
      exact Endpoint.not_reported_of_write (Server.appConnRoutes_error zero herr) c host hreported
  · intro h
    right
    exact Endpoint.reported_of_setStatusCode call.forwards (by decide) (call.adapter_eq h) c host

/-- A daemon that is down, behind a known host. -/
def knownHost : Client := newClient.setKnownHost "node" "ts-a"

/-- The adapter answers with the empty route info, and the entry has no error. -/
theorem outage_not_reported :
    ¬ (LocalCall.AbsentFeature (.appConnRoutes []) "connection refused" ∨
      (LocalCall.endpoint (.appConnRoutes [])).Reported knownHost "connection refused" "node") ∧
    (LocalCall.endpoint (.appConnRoutes [])).worker "node"
      ((LocalCall.endpoint (.appConnRoutes [])).call knownHost "connection refused" "node") =
        .send ({ host := "node", error := "", result := [] } : DefaultResult) .ret := by
  constructor
  · rintro (habsent | hreported)
    · exact absurd habsent.2 (by decide)
    · rcases hreported.answer with ⟨resp, hresp, hcode⟩
      cases hresp
      exact hcode rfl
  · rfl

/-! ## The status of an adapter -/

/-- `PeerMap` is answered by the same handler. -/
theorem status_answer (resp : Except String Status) :
    (hostCall "" (callAdapter (arrive id (Server.status resp)))).answer = Adapter.status resp := by
  unfold Server.status Server.structHandler Adapter.status
  cases resp with
  | error err => rfl
  | ok st =>
      simp only [Except.map, Reply.writeUnstructuredJSON]
      cases structToMap (.pointer st.value) with
      | none => rfl
      | some m => rfl

end TSymbiote.WebUI
