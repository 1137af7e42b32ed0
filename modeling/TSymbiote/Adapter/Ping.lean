import TSymbiote.Shared.Response

/-! # The adapter's pings

`Ping` pings one known peer several times and answers with the reflected maps of
the results that came.
-/

namespace TSymbiote.Adapter.Server

open Shared

structure PingInput where
  target : String
  count : Int
  pingType : String
  delay : String

/-- The map of each result, in order. -/
def writePings (allPings : List Value) : Reply Body :=
  match allPings.mapM structToMap with
  | none => none
  | some pingRes => Reply.write (.document (.array (pingRes.map fun m => (Any.map m).json)))

/-- `hostPing` has the results of the calls in turn; the waiting in between is
left out. -/
def ping (parseDuration : String → Option Int) (getIPByPeer : String → Option String)
    (hostPing : String → String → Nat → Except String Value) (input : Except String PingInput) :
    Reply Body :=
  match input with
  | .error _ => Reply.setStatusCode 500
  | .ok input =>
      match parseDuration input.delay, getIPByPeer input.target with
      | none, _ => Reply.setStatusCode 400
      | some _, none => Reply.setStatusCode 500
      | some _, some ip =>
          writePings ((List.range input.count.toNat).filterMap fun i =>
            (hostPing ip input.pingType i).toOption)

end TSymbiote.Adapter.Server
