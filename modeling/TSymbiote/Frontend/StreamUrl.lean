import TSymbiote.Frontend.WebSocketStream
import TSymbiote.Lib.Url
import TSymbiote.Shared.Websocket

/-! # The targets of a stream

The browser names the hosts of a stream in the query of the websocket's URL,
joined by commas, and `RelativeWebsocket` splits what it reads there at the
commas. The encodings between the two undo each other; the join is undone as
long as no host name has a comma itself.
-/

namespace TSymbiote.Frontend.StreamUrl

open Shared Percent Url WebSocketStream
open scoped Strings

/-- Where the page was loaded from. The browser has read a host name there, so it
has no byte that ends one. -/
structure Location where
  https : Bool
  host : String
  hostName : ∀ b ∈ bytes host, b ∉ [9, 10, 13, 35, 63]

def streamName : StreamType → String
  | .logs => "Logs"
  | .busEvents => "BusEvents"

/-- Letters, digits and the marks that `encodeURIComponent` leaves as they are. -/
def unreserved (b : UInt8) : Bool :=
  (48 ≤ b && b ≤ 57) || (65 ≤ b && b ≤ 90) || (97 ≤ b && b ≤ 122) ||
    [33, 39, 40, 41, 42, 45, 46, 95, 126].contains b

def encodeURIComponent (s : String) : Bytes := encode unreserved (bytes s)

/-- `hostIds.join(',')` -/
def join (hostIds : List String) : String := String.intercalate "," hostIds

/-- What `getApiBaseUrl` returns, with the protocol replaced. -/
def wsHost (location : Location) : String :=
  (if location.https then "wss:" else "ws:") ++ "//" ++ location.host

def getStreamWebSocketUrl (location : Location) (streamType : StreamType)
    (hostIds : List String) : Bytes :=
  bytes (wsHost location ++ "/api/" ++ streamName streamType) ++
    bytes "?hosts=" ++ encodeURIComponent (join hostIds)

/-- The targets `RelativeWebsocket` dials; without a query parameter it closes
the connection. -/
def relativeTargets (rawQuery : Bytes) : Option (List Bytes) :=
  let rawTargets := get (parseQuery rawQuery) (bytes "hosts")
  if rawTargets = [] then none else some (rawTargets.splitOn (Utf8.code ','))

/-! ## What the server reads -/

theorem unreserved_percent : unreserved percent = false := rfl

theorem queryKeep_digit : ∀ b, (unhex b).isSome = true → queryKeep b = true :=
  forall_byte (by decide +kernel)

/-- Tabs and the marks of a URL and its query; a component has none of them. -/
def marks : Bytes := [9, 10, 13, 35, 38, 43, 59]

theorem unreserved_marks : ∀ b, unreserved b = true → b ∉ marks :=
  forall_byte (by decide +kernel)

theorem hex_marks : ∀ n < 16, hex n ∉ marks := forall_lt_of_ofNat (by decide)

theorem encodeURIComponent_marks (s : String) : ∀ b ∈ encodeURIComponent s, b ∉ marks :=
  forall_mem_encode (fun b _ => unreserved_marks b) (by decide) hex_marks

/-- The browser encodes the query once more, which brings in no mark either. -/
theorem encode_marks {s : Bytes} (hs : ∀ b ∈ s, b ∉ marks) :
    ∀ b ∈ encode queryKeep s, b ∉ marks :=
  forall_mem_encode (fun b hb _ => hs b hb) (by decide) hex_marks

/-- It has no effect on what is decoded. -/
theorem queryUnescape_encode (s : String) :
    queryUnescape (encode queryKeep (encodeURIComponent s)) = some (bytes s) := by
  have hplus : 43 ∉ encode queryKeep (encodeURIComponent s) := fun hmem =>
    encode_marks (encodeURIComponent_marks s) 43 hmem (by decide)
  rw [queryUnescape_eq hplus, pathUnescape_encode_of_keep rfl queryKeep_digit]
  exact pathUnescape_encode unreserved_percent (bytes s)

theorem streamName_marks (streamType : StreamType) :
    ∀ b ∈ bytes ("/api/" ++ streamName streamType), b ∉ [9, 10, 13, 35, 63] := by
  cases streamType <;> decide

theorem rawQuery_url (location : Location) (streamType : StreamType) (hostIds : List String) :
    rawQuery (getStreamWebSocketUrl location streamType hostIds) =
      bytes "hosts" ++ 61 :: encode queryKeep (encodeURIComponent (join hostIds)) := by
  have hscheme : ∀ b ∈ bytes ((if location.https then "wss:" else "ws:") ++ "//"),
      b ∉ [9, 10, 13, 35, 63] := by
    cases location.https <;> decide
  have hpath : ∀ b ∈ bytes (wsHost location ++ "/api/" ++ streamName streamType),
      b ∉ [9, 10, 13, 35, 63] := by
    unfold wsHost
    rw [String.append_assoc, bytes_append, bytes_append]
    intro b hb
    rcases List.mem_append.mp hb with hb | hb
    · rcases List.mem_append.mp hb with hb | hb
      · exact hscheme b hb
      · exact location.hostName b hb
    · exact streamName_marks streamType b hb
  have hkey : ∀ b ∈ bytes "hosts=", b ∉ [9, 10, 13, 35] := by decide
  have hquery : ∀ b ∈ bytes "hosts=" ++ encodeURIComponent (join hostIds), b ∉ [9, 10, 13, 35] := by
    intro b hb hmem
    rcases List.mem_append.mp hb with hb | hb
    · exact hkey b hb hmem
    · exact encodeURIComponent_marks _ b hb (List.mem_append_left [38, 43, 59] hmem)
  have hquestion : bytes "?hosts=" = 63 :: bytes "hosts=" := by decide
  have hname : encode queryKeep (bytes "hosts=") = bytes "hosts" ++ [61] := by decide
  unfold getStreamWebSocketUrl
  rw [List.append_assoc, hquestion, List.cons_append, rawQuery_append hpath hquery, encode,
    List.flatMap_append, ← encode, ← encode, hname, List.append_assoc, List.singleton_append]

/-- The server splits the join as the browser made it. -/
theorem rawTargets_url (location : Location) (streamType : StreamType) (hostIds : List String) :
    get (parseQuery (rawQuery (getStreamWebSocketUrl location streamType hostIds)))
      (bytes "hosts") = bytes (join hostIds) := by
  rw [rawQuery_url]
  apply get_parseQuery
  · decide
  · intro b hb
    have hmarks := encode_marks (encodeURIComponent_marks (join hostIds)) b hb
    constructor <;> rintro rfl <;> exact hmarks (by decide)
  · exact queryUnescape_encode (join hostIds)

/-! ## Which lists arrive -/

theorem join_toList (hostIds : List String) :
    (join hostIds).toList = [','].intercalate (hostIds.map String.toList) := by
  unfold join
  rw [String.toList_intercalate]
  rfl

/-- The commas of the join are those between the names and those in them. -/
theorem split_join {hostIds : List String} (hne : hostIds ≠ []) :
    Strings.split (join hostIds) ',' = hostIds ↔ ∀ hostId ∈ hostIds, ',' ∉ hostId.toList := by
  unfold Strings.split
  rw [join_toList]
  constructor
  · intro hsplit hostId hmem
    rw [← hsplit] at hmem
    rcases List.mem_map.mp hmem with ⟨part, hpart, rfl⟩
    rw [String.toList_ofList]
    exact Strings.not_mem_of_mem_splitOn hpart
  · intro hcomma
    have hparts : ∀ part ∈ hostIds.map String.toList, ',' ∉ part := List.forall_mem_map.mpr hcomma
    rw [List.splitOn_intercalate ',' hparts (mt List.map_eq_nil_iff.mp hne), List.map_map]
    exact (List.map_congr_left fun _ _ => String.ofList_toList).trans (List.map_id hostIds)

/-- A non-empty list of non-empty names. -/
structure Selected where
  hostIds : List String
  ne : hostIds ≠ []
  named : ∀ hostId ∈ hostIds, hostId ≠ ""

theorem join_ne_empty (selected : Selected) : join selected.hostIds ≠ "" := by
  rcases selected with ⟨hostIds, hne, hnamed⟩
  intro hjoin
  have hnil := congrArg String.toList hjoin
  rw [join_toList, String.toList_empty] at hnil
  cases hostIds with
  | nil => contradiction
  | cons hostId rest =>
      cases rest with
      | nil =>
          rw [List.map_singleton, List.intercalate_singleton, String.toList_eq_nil_iff] at hnil
          exact hnamed hostId List.mem_cons_self hnil
      | cons next rest =>
          rw [List.map_cons, List.map_cons, List.intercalate_cons_cons] at hnil
          simp at hnil

theorem relativeTargets_url (location : Location) (streamType : StreamType)
    (selected : Selected) :
    relativeTargets (rawQuery (getStreamWebSocketUrl location streamType selected.hostIds)) =
      some ((Strings.split (join selected.hostIds) ',').map bytes) := by
  have hne : bytes (join selected.hostIds) ≠ [] := fun hnil =>
    join_ne_empty selected (bytes_inj.mp hnil)
  unfold relativeTargets
  rw [rawTargets_url]
  dsimp only
  rw [if_neg hne, splitOn_bytes (by decide)]

/-- The server reads the selected hosts back exactly when no name has a comma. -/
theorem relativeTargets_iff (location : Location) (streamType : StreamType)
    (selected : Selected) :
    relativeTargets (rawQuery (getStreamWebSocketUrl location streamType selected.hostIds)) =
        some (selected.hostIds.map bytes) ↔
      ∀ hostId ∈ selected.hostIds, ',' ∉ hostId.toList := by
  have hinj : Function.Injective bytes := fun _ _ => bytes_inj.mp
  rw [relativeTargets_url, Option.some.injEq, List.map_inj_right fun _ _ h => hinj h,
    split_join selected.ne]

/-- One host whose name has a comma is asked for as two. -/
theorem comma_splits :
    ∃ (location : Location) (selected : Selected),
      selected.hostIds = ["build,worker"] ∧
        relativeTargets (rawQuery (getStreamWebSocketUrl location .logs selected.hostIds)) =
          some [bytes "build", bytes "worker"] ∧
        relativeTargets (rawQuery (getStreamWebSocketUrl location .logs selected.hostIds)) ≠
          some (selected.hostIds.map bytes) := by
  refine ⟨⟨true, "ui.example.ts.net", by decide⟩,
    ⟨["build,worker"], by decide, by decide⟩, rfl, ?_, ?_⟩
  · rw [relativeTargets_url]
    decide
  · rw [relativeTargets_url]
    decide

end TSymbiote.Frontend.StreamUrl
