import TSymbiote.Shared.Response
import TSymbiote.Shared.Websocket
import TSymbiote.WebUI.Client

/-! # Calls to adapters

`CallHost` looks up the adapter of a host and calls it. Whatever goes wrong on
the way (an unknown host, the connection, an answer with another code than 200)
comes back as an error with a text.
-/

namespace TSymbiote.WebUI

open Shared

/-- `resp` is what `client.Do` returns. -/
def callAdapter {B : Type} (resp : Except CallError (Response B)) : Except CallError (Option B) :=
  match resp with
  | .error err => .error err
  | .ok resp => if resp.statusCode ≠ 200 then .error (statusError resp.statusCode) else .ok resp.body

def unknownHost (host : String) : CallError where
  text := "failed to find adapter for host: " ++ host
  nonempty := by
    intro heq
    exact absurd (String.append_eq_empty_iff.mp heq).1 (by decide)

/-- `network` is what a request to an adapter comes back with. -/
def callHost {B : Type} (c : Client) (network : String → Except CallError (Response B))
    (host : String) : Except CallError (Option B) :=
  match c.getAdapter host with
  | none => .error (unknownHost host)
  | some adapter => if adapter = "" then .error (unknownHost host) else callAdapter (network adapter)

/-- The answer of a handler on its way to the client. -/
def arrive {B W : Type} (f : B → W) (reply : Reply B) : Except CallError (Response W) :=
  match reply.deliver with
  | .error err => .error err
  | .ok resp => .ok { statusCode := resp.statusCode, body := resp.body.map f }

/-- A body as `io.ReadAll` reads it: what arrived, and the error that cut it off. -/
structure Stream where
  data : Bytes := []
  err : Option CallError := none

def readAll (body : Option Stream) : Stream := body.getD {}

section Errors

variable {B : Type} {c : Client} {network : String → Except CallError (Response B)} {host : String}

theorem callAdapter_status {resp : Response B} (h : resp.statusCode ≠ 200) :
    callAdapter (.ok resp) = .error (statusError resp.statusCode) := by
  unfold callAdapter
  exact if_pos h

/-- When the answer of every adapter is a failure, so is the call. -/
theorem callHost_error (h : ∀ adapter, ∃ err, callAdapter (network adapter) = .error err) :
    ∃ err, callHost c network host = .error err := by
  unfold callHost
  split
  · exact ⟨_, rfl⟩
  · next adapter _ =>
      split
      · exact ⟨_, rfl⟩
      · exact h adapter

end Errors

end TSymbiote.WebUI
