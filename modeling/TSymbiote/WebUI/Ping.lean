import TSymbiote.Lib.FanOut
import TSymbiote.Lib.Json
import TSymbiote.WebUI.CallHost

/-! # Pings

`Ping` asks the adapter of every requested host to ping that host's targets, with
one goroutine for each target, and collects a list of ping results from each.
-/

namespace TSymbiote.WebUI

open FanOut Shared

/-- `json.NewDecoder(body).Decode(&l)` for `l : []map[string]any`. -/
def decodeObjects (body : Body) : Except String (List (List (String × Json))) :=
  match body with
  | .malformed err => .error err
  | .document (.array elems) => elems.mapM fun v => decodeObject (.document v)
  | .document .null => .ok []
  | .document v =>
      .error ("json: cannot unmarshal " ++ v.kind ++ " into Go value of type []map[string]interface \x7b\x7d")

structure PingResults where
  error : String := ""
  host : String := ""
  target : String := ""
  results : List (List (String × Json)) := []

/-- A requested target with what `CallHost` returns for it. -/
structure PingTarget where
  target : String
  answer : Except CallError (Option Body)

structure PingTargets where
  targets : List PingTarget
  host : String

/-- `count` and `pingType` are only passed on. -/
structure PingInput where
  count : Int
  pingType : String
  delay : String
  args : List PingTargets

def pingResult (host : String) (target : PingTarget) : PingResults :=
  let result : PingResults := { host, target := target.target }
  match target.answer with
  | .error err => { result with error := err.text }
  | .ok none => { result with error := endOfBody.text }
  | .ok (some body) =>
      match decodeObjects body with
      | .error err => { result with error := err }
      | .ok pingRes => { result with results := pingRes }

/-- The goroutine `Ping` starts for one target. -/
def pingWorker (host : String) (target : PingTarget) : Go Unit PingResults :=
  .send (pingResult host target) .ret

/-- The goroutines, in the order of the nested loops. -/
def pingWorkers (input : PingInput) : List (Go Unit PingResults) :=
  input.args.flatMap fun pingTarget => pingTarget.targets.map (pingWorker pingTarget.host)

end TSymbiote.WebUI
