import TSymbiote.Adapter.Status
import TSymbiote.Shared.Response
import TSymbiote.Shared.Websocket

/-! # The adapter's request handlers

Each handler makes one call to the local daemon and answers with what it
returned. Most of them differ only in the call: an error is answered with 500, a
struct with its reflected map. `AppConnRoutes` compares the text of the error,
and `Pprof` and `Goroutines` write bytes.
-/

namespace TSymbiote.Adapter.Server

open Shared

/-- A handler that answers with a struct of the local daemon. -/
def structHandler (resp : Except String Value) : Reply Body :=
  match resp with
  | .error _ => Reply.setStatusCode 500
  | .ok resp => Reply.writeUnstructuredJSON resp

/-- A handler that answers with bytes of the local daemon. -/
def bytesHandler (resp : Except String Bytes) : Reply Bytes :=
  match resp with
  | .error _ => Reply.setStatusCode 500
  | .ok data => Reply.write data

def dnsConfig (getDNSOSConfig : Except String Value) : Reply Body := structHandler getDNSOSConfig

def driveShares (driveShareList : Except String Value) : Reply Body := structHandler driveShareList

def prefs (getPrefs : Except String Value) : Reply Body := structHandler getPrefs

def serveConfig (getServeConfig : Except String Value) : Reply Body := structHandler getServeConfig

/-- The known peers it also stores are read by other handlers only. -/
def status (status : Except String Status) : Reply Body :=
  structHandler (status.map fun st => .pointer st.value)

def goroutines (goroutines : Except String Bytes) : Reply Bytes := bytesHandler goroutines

structure PprofInput where
  type : String
  seconds : Int

def pprof (input : Except String PprofInput) (pprof : PprofInput → Except String Bytes) :
    Reply Bytes :=
  match input with
  | .error _ => Reply.setStatusCode 500
  | .ok input => bytesHandler (pprof input)

/-- The error of a daemon without the feature. -/
def notFound : String := "404 Not Found: 404 page not found"

/-- `zero` lists the fields of `appctype.RouteInfo{}`. -/
def appConnRoutes (zero : List (Field × Value)) (getAppConnectorRouteInfo : Except String Value) :
    Reply Body :=
  match getAppConnectorRouteInfo with
  | .ok resp => Reply.writeUnstructuredJSON resp
  | .error err =>
      -- Only the missing feature is answered with an error; after every other
      -- failure the empty route info is sent.
      if err = notFound then Reply.setStatusCode 500
      else Reply.writeUnstructuredJSON (.struct none zero)

theorem appConnRoutes_notFound (zero : List (Field × Value)) :
    appConnRoutes zero (.error notFound) = Reply.setStatusCode 500 := by
  unfold appConnRoutes
  exact if_pos rfl

theorem appConnRoutes_error (zero : List (Field × Value)) {err : String} (h : err ≠ notFound) :
    appConnRoutes zero (.error err) =
      Reply.write (.document (Any.map (structFields zero)).json) := by
  unfold appConnRoutes
  exact if_neg h

end TSymbiote.Adapter.Server
