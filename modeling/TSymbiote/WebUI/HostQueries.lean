import TSymbiote.Adapter.QueryDNS
import TSymbiote.Lib.FanOut
import TSymbiote.WebUI.CallHost

/-! # DNS queries and goroutine dumps

`QueryDNS` and `Goroutines` start one goroutine for every requested host, as the
passthrough handler does, but decode what the host's adapter answers in their
own way. Each goroutine sends one result, with the text of the error when the
call, the read or the decoder fails.
-/

namespace TSymbiote.WebUI

open FanOut Shared

/-! ## `QueryDNS` -/

/-- `Decode(&result)`: the adapter leaves `error` and `host` out of the document
when they are empty, and the fields keep what they had. -/
def QueryDNSResult.decode (result r : QueryDNSResult) : QueryDNSResult where
  error := if r.error = "" then result.error else r.error
  host := if r.host = "" then result.host else r.host
  rCode := r.rCode
  responses := if r.responses = [] then result.responses else r.responses
  resolvers := r.resolvers

def queryDNSResult (targetHost : String) (answer : Except CallError (Option QueryDNSBody)) :
    QueryDNSResult :=
  let result : QueryDNSResult := { host := targetHost }
  match answer with
  | .error err => { result with error := err.text }
  | .ok none => { result with error := endOfBody.text }
  | .ok (some (.malformed err)) => { result with error := err.text }
  | .ok (some (.result r)) => QueryDNSResult.decode result r

/-- The goroutine `QueryDNS` starts for one host. -/
def queryDNSWorker (targetHost : String) (answer : Except CallError (Option QueryDNSBody)) :
    Go Unit QueryDNSResult :=
  .send (queryDNSResult targetHost answer) .ret

/-! ## `Goroutines` -/

structure GoroutinesResult where
  host : String
  error : String := ""
  result : Bytes := []
  deriving DecidableEq, Repr

/-- A read that is cut off keeps what it has read beside its error. -/
def goroutinesResult (targetHost : String) (answer : Except CallError (Option Stream)) :
    GoroutinesResult :=
  match answer with
  | .error err => { host := targetHost, error := err.text }
  | .ok body =>
      match (readAll body).err with
      | some err => { host := targetHost, error := err.text, result := (readAll body).data }
      | none => { host := targetHost, result := (readAll body).data }

/-- The goroutine `Goroutines` starts for one host. -/
def goroutinesWorker (targetHost : String) (answer : Except CallError (Option Stream)) :
    Go Unit GoroutinesResult :=
  .send (goroutinesResult targetHost answer) .ret

end TSymbiote.WebUI
