import TSymbiote.Frontend.PingLoop
import TSymbiote.Lib.Transition

/-! # Edge colours

The table of colours is keyed by the names of host and target joined by a hyphen,
and a ping only ever adds to it. So an edge can take the colour of another pair,
and it keeps a colour when a later ping of its pair fails. An edge without one
takes what has been assigned to `Object.prototype` under its key.
-/

namespace TSymbiote.Frontend

open Transition

/-- An edge has a colour of its own, or what is assigned under its key is no fill
but the one it has. -/
def Palette.Spares (palette : Palette) (written : Option Output) (edge : Edge) : Prop :=
  edge.edgeId ∈ palette.edgeColors ∨
    ∀ output, written = some output → output.fill = edgeFill palette edge

section Reply

variable (edges : List Edge) (selectedHosts : OrderedSet String) (palette : Palette)
  (typeError : String) (pairs : List Combination) (data : List PingResult)

end Reply

/-- A ping of some pairs, with a reply that has one element for each of them.
`typeError` is the text of what a store may throw. -/
structure PingCommand where
  pairs : List Combination
  response : PingResponse
  typeError : String := ""
  labelled : ∀ data, response = .reply data →
    data.map (fun r => (r.host, r.target)) =
      pairs.map fun c => (omitEmpty c.hostId, omitEmpty c.peerId)

namespace PingCommand

variable (cmd : PingCommand)

def stores : List Store := cmd.response.stores cmd.typeError cmd.pairs

def written (edge : Edge) : Option Output := cmd.response.written cmd.typeError cmd.pairs edge

/-- The final ping result of a pair. -/
def finalResult (c : Combination) : Option Json :=
  match cmd.response with
  | .failed _ => none
  | .reply data =>
      (data.find? fun r =>
        r.host = omitEmpty c.hostId ∧ r.target = omitEmpty c.peerId).bind PingResult.lastResult

end PingCommand

/-- It exists, and carries no `Err`. -/
def succeeded (result : Json) : Bool := result.truthy && !(result.field "Err").truthy

/-- The colour a command should leave on the edge of a pair it attempts. -/
def PingCommand.color (cmd : PingCommand) (c : Combination) : Option String :=
  (cmd.finalResult c).bind fun result =>
    if succeeded result = true then some (getEdgeColorFromResult result) else none

/-- `history` has the commands so far, the latest first; the page does not keep them. -/
structure Colors where
  palette : Palette
  history : List PingCommand

/-- A ping command up to its last state update. -/
def Colors.step (s : Colors) (cmd : PingCommand) : Option Colors :=
  (s.palette.fetchPing cmd.typeError cmd.pairs cmd.response).map fun palette =>
    ⟨palette, cmd :: s.history⟩

/-- The command replaces nothing that is relied on. -/
def Harmless (s : Colors) (cmd : PingCommand) : Prop := Untangled s.palette.shared cmd.stores

section Step

variable {s t : Colors} {cmd : PingCommand} {edge : Edge}

end Step

end TSymbiote.Frontend
