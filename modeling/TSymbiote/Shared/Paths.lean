import TSymbiote.Lib.Strings

/-! # Known paths

The paths shared by the WebUI and the adapters, and how the WebUI's passthrough
handlers find the adapter's path from the one they were called on.
-/

namespace TSymbiote.Shared

inductive KnownPath where
  | status
  | queryDNS
  | ping
  | pprof
  | prefs
  | logs
  | driveShares
  | dnsConfig
  | serveConfig
  | appConnRoutes
  | goroutines
  | hosts
  | peerMap
  | busEvents
  deriving DecidableEq, Repr

namespace KnownPath

def string : KnownPath → String
  | status => "Status"
  | queryDNS => "QueryDNS"
  | ping => "Ping"
  | pprof => "Pprof"
  | prefs => "Prefs"
  | logs => "Logs"
  | driveShares => "DriveShares"
  | dnsConfig => "DNSConfig"
  | serveConfig => "ServeConfig"
  | appConnRoutes => "AppConnRoutes"
  | goroutines => "Goroutines"
  | hosts => "Hosts"
  | peerMap => "PeerMap"
  | busEvents => "BusEvents"

def adapter (k : KnownPath) : String := "/" ++ k.string

def webUI (k : KnownPath) : String := "/api/" ++ k.string

/-- In declaration order, without the end marker. -/
def paths : List KnownPath :=
  [status, queryDNS, ping, pprof, prefs, logs, driveShares, dnsConfig, serveConfig, appConnRoutes,
    goroutines, hosts, peerMap, busEvents]

/-- The adapter's version of the first known path whose name occurs in `urlPath`. -/
def targetPath (urlPath : String) : Option String :=
  (paths.find? fun k => Strings.contains urlPath k.string).map adapter

/-- No earlier path's name occurs in a later path: each WebUI path is passed on
to the adapter path of the same name. -/
theorem targetPath_webUI (k : KnownPath) : targetPath k.webUI = some k.adapter := by
  cases k <;> decide +kernel

end KnownPath

end TSymbiote.Shared
