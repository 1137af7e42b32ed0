import TSymbiote.Frontend.Objects
import TSymbiote.Frontend.Ping
import TSymbiote.Lib.Attempt
import TSymbiote.Lib.Json

/-! # What becomes of the reply to a ping

`fetchPing` goes through the reply once. It keeps the results of each pair for the
output panel and takes a colour for the pair's edge from the last of them. A
request that fails, or a loop that throws, is made into an error for each pair;
when this throws as well, the page keeps what it had.

For a host that has the name of an inherited property, what it keeps goes to an
object that all objects of the page share, and from there to those that come later
for a host with the name of what was kept.
-/

namespace TSymbiote.Frontend

/-! ## Connection types -/

def edgeColorDirect : String := "#22c55e"

def edgeColorPeerAPI : String := "#3b82f6"

def edgeColorPeerRelay : String := "#9333ea"

def edgeColorDERP : String := "#ea580c"

structure ConnectionTypeInfo where
  label : String
  color : String
  edgeColor : String
  deriving DecidableEq, Repr

def getConnectionType (result : Json) : ConnectionTypeInfo :=
  if result.truthy = false then ⟨"unknown", "bg-gray-600", edgeColorDirect⟩
  else if (result.field "PeerRelay").truthy = true then
    ⟨"peer-relay", "bg-purple-600", edgeColorPeerRelay⟩
  else if (result.field "DERPRegionID").truthy = true then
    ⟨"DERP", "bg-orange-600", edgeColorDERP⟩
  else if (result.field "PeerAPIURL").truthy = true then
    ⟨"peer-api", "bg-blue-600", edgeColorPeerAPI⟩
  else ⟨"direct", "bg-green-600", edgeColorDirect⟩

def getEdgeColorFromResult (result : Json) : String := (getConnectionType result).edgeColor

/-- An element of the reply. A field that it does not have is undefined; the error
is never looked at. -/
structure PingResult where
  error : Option String := none
  host : Option String
  target : Option String
  results : Option (List Json)

/-- A text field with `omitempty`, as it is decoded. -/
def omitEmpty (s : String) : Option String := if s = "" then none else some s

/-- What stands for the value in a text or as the name of a property. -/
def propertyName (name : Option String) : String := name.getD "undefined"

def edgeIdOf (source target : String) : String := source ++ "-" ++ target

def PingResult.edgeId (r : PingResult) : String :=
  edgeIdOf (propertyName r.host) (propertyName r.target)

def PingResult.lastResult (r : PingResult) : Option Json := r.results.bind List.getLast?

/-- What is kept for a pair: the results field of its element, or an error. -/
inductive Output where
  | results (pingResults : Option (List Json))
  | error (text : String)

/-- An undefined one is none. -/
def Output.isObject : Output → Bool
  | .results none => false
  | _ => true

abbrev Results := GoMap (GoMap Output)

/-- What `fetchPing` fills. `shared` has what has been assigned to properties of
`Object.prototype`, by this ping or an earlier one. -/
structure Tables where
  results : Results := ∅
  shared : GoMap Output

/-- The output of a pair on its way to the tables. -/
structure Store where
  host : String
  target : String
  output : Output

/-- Why a loop ends early. An object of the language that was changed may be read
from then on, by any script, and what this leads to is left open. -/
inductive Stop where
  | typeError
  | beyond
  deriving DecidableEq, Repr

/-- `targets[target] = output` -/
def setOutput (targets : GoMap Output) (target : String) (output : Output) : GoMap Output :=
  if target = "__proto__" then targets else targets.insert target output

/-- With an empty object for a new host. -/
def Tables.setOwn (t : Tables) (st : Store) : Tables :=
  { t with
    results := t.results.insert st.host
      (setOutput ((t.results.lookup st.host).getD ∅) st.target st.output) }

/-- The properties that an element and its last result are asked for. -/
def fieldNames : List String :=
  ["host", "target", "results", "PeerRelay", "DERPRegionID", "PeerAPIURL"]

/-- Names that are read later on: these, what the graph asks every edge for, and what
every object has. -/
def reliedOn : List String := "fill" :: (fieldNames ++ inherited)

/-- The host has the name of the prototype, whose own prototype cannot be set. -/
def Tables.setShared (t : Tables) (st : Store) : Except Stop Tables :=
  if st.target = "__proto__" then
    if st.output.isObject = true then .error .typeError else .ok t
  else if st.target ∈ reliedOn then .error .beyond
  else .ok { t with shared := t.shared.insert st.target st.output }

/-- The host has the name of a method. The tables do not show its properties. -/
def Tables.setMethod (t : Tables) (st : Store) : Except Stop Tables :=
  if readOnly st.host st.target = true then .error .typeError
  else if st.target ∈ functionNames then .error .beyond
  else .ok t

/-- `object` is what the host inherits from an earlier store. Its properties are not
read again, but what is assigned to the length of an array must be a length. -/
def Tables.setOn (t : Tables) (object : Output) (st : Store) : Except Stop Tables :=
  match object with
  | .results _ => if st.target = "length" then .error .beyond else .ok t
  | .error _ => .ok t

/-- What the host inherits from an earlier store, if it counts as a table. -/
def Tables.inheritedTable (t : Tables) (host : String) : Option Output :=
  (t.shared.lookup host).filter Output.isObject

/-- `if (!results[host]) results[host] = {}` and `results[host][target] = output` -/
def Tables.store (t : Tables) (st : Store) : Except Stop Tables :=
  if st.host ∈ t.results then .ok (t.setOwn st)
  else
    match t.inheritedTable st.host with
    | some object => t.setOn object st
    | none =>
        if st.host = "__proto__" then t.setShared st
        else if st.host ∈ methods then t.setMethod st
        else .ok (t.setOwn st)

structure Collected where
  tables : Tables
  newEdgeColors : GoMap String := ∅

def PingResult.toStore (r : PingResult) : Store :=
  ⟨propertyName r.host, propertyName r.target, .results r.results⟩

def Collected.paint (newEdgeColors : GoMap String) (r : PingResult) : GoMap String :=
  match r.lastResult with
  | some lastResult => newEdgeColors.insert r.edgeId (getEdgeColorFromResult lastResult)
  | none => newEdgeColors

/-- The body of the loop. -/
def Collected.collect (c : Collected) (r : PingResult) : Except Stop Collected :=
  if fieldNames.any (· ∈ c.tables.shared) = true then .error .beyond
  else
    match c.tables.store r.toStore with
    | .ok tables => .ok ⟨tables, Collected.paint c.newEdgeColors r⟩
    | .error stop => .error stop

/-- What `executePing` comes back with: a decoded array, or what it throws. -/
inductive PingResponse where
  | reply (data : List PingResult)
  | failed (err : String)

/-- What the loops of the `catch` clause store. -/
def errorStores (pingCombinations : List Combination) (err : String) : List Store :=
  (ungroup (hostTargetsMap pingCombinations)).map fun e => ⟨e.1, e.2, .error err⟩

/-- `kept` is whether `fetchPing` gets to its state updates. -/
structure Fetched where
  collected : Collected
  kept : Bool

/-- The `catch` clause of the request. -/
def Collected.fail (c : Collected) (pingCombinations : List Combination) (err : String) :
    Option Fetched :=
  match attempt Tables.store c.tables (errorStores pingCombinations err) with
  | (tables, none) => some ⟨{ c with tables }, true⟩
  | (tables, some .typeError) => some ⟨{ c with tables }, false⟩
  | (_, some .beyond) => none

/-- `shared` is from before, and `typeError` the text of what an assignment throws.
There is no result where this is left open. -/
def PingResponse.fetch (typeError : String) (shared : GoMap Output)
    (pingCombinations : List Combination) : PingResponse → Option Fetched
  | .reply data =>
      match attempt Collected.collect ⟨{ shared }, ∅⟩ data with
      | (c, none) => some ⟨c, true⟩
      | (c, some .typeError) => c.fail pingCombinations typeError
      | (_, some .beyond) => none
  | .failed err => Collected.fail ⟨{ shared }, ∅⟩ pingCombinations err

/-- `{ ...prev, ...newEdgeColors }` -/
def mergeEdgeColors (prev newEdgeColors : GoMap String) : GoMap String := newEdgeColors ∪ prev

/-! ## Edges as they are drawn -/

/-- What the fills of the edges depend on: the table of colours, and what it has
inherited in the meantime. -/
structure Palette where
  edgeColors : GoMap String
  shared : GoMap Output

def Palette.fetchPing (palette : Palette) (typeError : String) (pingCombinations : List Combination)
    (response : PingResponse) : Option Palette :=
  (response.fetch typeError palette.shared pingCombinations).map fun fetched =>
    { edgeColors :=
        if fetched.kept = true then
          mergeEdgeColors palette.edgeColors fetched.collected.newEdgeColors
        else palette.edgeColors
      shared := fetched.collected.tables.shared }

inductive Fill where
  | color (color : String)
  | object
  deriving DecidableEq, Repr

/-- The empty colour is none. -/
def colorFill (color : String) : Option Fill := if color = "" then none else some (.color color)

def Output.fill (output : Output) : Option Fill :=
  if output.isObject = true then some .object else none

def Edge.edgeId (edge : Edge) : String := edgeIdOf edge.source edge.target

/-- `edgeColors[edgeId]`, if it is worth a fill. -/
def edgeFill (palette : Palette) (edge : Edge) : Option Fill :=
  match palette.edgeColors.lookup edge.edgeId with
  | some color => colorFill color
  | none => (palette.shared.lookup edge.edgeId).bind Output.fill

end TSymbiote.Frontend
