import TSymbiote.Lib.Strings
import TSymbiote.Frontend.HostResults

/-! # The results of a DNS query

The page keeps the error, the header, the responses and the resolvers of each element of
the reply, and the panel shows what there is of them for the selected host.
-/

namespace TSymbiote.Frontend

open Shared WebUI

/-! ## The elements of a reply -/

/-- An empty slice is left out, or null. -/
def sliceJson (elems : List String) : Json :=
  if elems = [] then .null else .array (elems.map .string)

/-- An element of the reply, with the fields besides host and error in one object. -/
def HostResult.ofQueryDNS (r : QueryDNSResult) : HostResult where
  host := omitEmpty r.host
  error := omitEmpty r.error
  result := .object [("header", .object [("responseCode", .string r.rCode)]),
    ("responses", sliceJson r.responses), ("resolvers", sliceJson r.resolvers)]

/-- What `fetchQueryDNS` keeps of an element. -/
def HostResult.dnsOutput (r : HostResult) : Json :=
  .object [("error", (r.error.map Json.string).getD .null), ("header", r.result.field "header"),
    ("responses", r.result.field "responses"), ("resolvers", r.result.field "resolvers")]

/-! ## `QueryDNSResultsContent` -/

def getResponseCodeColor (rcode : String) : String :=
  if rcode = "NOERROR" ∨ rcode = "Success" ∨ Strings.contains rcode "Success" then "bg-green-600"
  else if rcode = "NXDOMAIN" then "bg-orange-600"
  else "bg-red-600"

/-- The texts on the panel, and the class of the badge with the response code. -/
structure DNSContent where
  error : Option String
  responseCode : Option (String × String)
  responses : List String
  resolvers : List String
  deriving DecidableEq

def shownText (v : Json) : Option String := if v.truthy then v.asString else none

def shownItems : Json → List String
  | .array elems => elems.filterMap Json.asString
  | _ => []

/-- Without a header nothing but the error is shown. -/
def queryDNSResultsContent (data : Json) : DNSContent where
  error := shownText (data.field "error")
  responseCode :=
    if (data.field "header").truthy then
      (shownText ((data.field "header").field "responseCode")).map fun rcode =>
        (rcode, getResponseCodeColor rcode)
    else none
  responses := if (data.field "header").truthy then shownItems (data.field "responses") else []
  resolvers := if (data.field "header").truthy then shownItems (data.field "resolvers") else []

theorem shownItems_sliceJson (elems : List String) : shownItems (sliceJson elems) = elems := by
  unfold sliceJson
  by_cases hempty : elems = []
  · rw [if_pos hempty, hempty]
    rfl
  · rw [if_neg hempty]
    unfold shownItems
    dsimp only
    rw [List.filterMap_map]
    exact List.filterMap_some

theorem shownText_string (text : String) :
    shownText (.string text) = if text = "" then none else some text := by
  unfold shownText Json.truthy
  by_cases hempty : text = ""
  · simp [hempty]
  · simp [hempty, Json.asString]

/-- The panel shows the fields of the element. -/
theorem content_ofQueryDNS (r : QueryDNSResult) :
    queryDNSResultsContent (HostResult.ofQueryDNS r).dnsOutput =
      { error := if r.error = "" then none else some r.error
        responseCode := if r.rCode = "" then none else some (r.rCode, getResponseCodeColor r.rCode)
        responses := r.responses
        resolvers := r.resolvers } := by
  have herror : (HostResult.ofQueryDNS r).dnsOutput.field "error" =
      ((omitEmpty r.error).map Json.string).getD .null := rfl
  have hheader : (HostResult.ofQueryDNS r).dnsOutput.field "header" =
      .object [("responseCode", .string r.rCode)] := rfl
  have hresponses : (HostResult.ofQueryDNS r).dnsOutput.field "responses" = sliceJson r.responses := rfl
  have hresolvers : (HostResult.ofQueryDNS r).dnsOutput.field "resolvers" = sliceJson r.resolvers := rfl
  have hcode : Json.field (.object [("responseCode", .string r.rCode)]) "responseCode" =
      .string r.rCode := rfl
  unfold queryDNSResultsContent
  rw [herror, hheader, hresponses, hresolvers, hcode, shownItems_sliceJson, shownItems_sliceJson,
    shownText_string]
  congr 1
  · unfold omitEmpty
    by_cases hempty : r.error = ""
    · rw [if_pos hempty]
      rfl
    · rw [if_neg hempty]
      exact (shownText_string r.error).trans (if_neg hempty)
  · by_cases hempty : r.rCode = ""
    · rw [if_pos hempty, if_pos hempty]
      rfl
    · rw [if_neg hempty, if_neg hempty]
      rfl

end TSymbiote.Frontend
