import TSymbiote.Shared.Response
import TSymbiote.Shared.Websocket

/-! # The adapter's DNS queries

`QueryDNS` hands the query to the local daemon, parses the message that comes
back and answers with a `QueryDNSResult`: the response code, one text for each
answer and the addresses of the resolvers. The message parser is a parameter.
-/

namespace TSymbiote.Shared

structure QueryDNSInput where
  name : String
  queryType : String
  deriving DecidableEq, Repr

structure QueryDNSResult where
  error : String := ""
  host : String := ""
  /-- The response code of the header. -/
  rCode : String := ""
  responses : List String := []
  resolvers : List String := []
  deriving DecidableEq, Repr

/-- What a body holds for a decoder of a `QueryDNSResult`. -/
inductive QueryDNSBody where
  | malformed (err : CallError)
  | result (r : QueryDNSResult)

end TSymbiote.Shared

namespace TSymbiote.Adapter.Server

open Shared

inductive RecordType where
  | a
  | aaaa
  | cname
  | mx
  | ns
  | opt
  | ptr
  | srv
  | txt
  | other
  deriving DecidableEq, Repr

/-- Addresses and names are the texts their `String` methods give. -/
inductive RecordBody where
  | a (addr : String)
  | aaaa (addr : String)
  | cname (name : String)
  | mx (name : String) (pref : Nat)
  | ns (name : String)
  | opt
  | ptr (name : String)
  | srv
  | txt
  | other
  deriving DecidableEq, Repr

/-- The type in the header and the dynamic type of the body are separate data. -/
structure Resource where
  type : RecordType
  body : RecordBody
  goString : String
  deriving DecidableEq, Repr

/-- What the parser finds in a message, at each of the calls `QueryDNS` makes. -/
structure DNSMessage where
  start : Except String (Nat × String)
  skipAllQuestions : Except String Unit
  allAnswers : Except String (List Resource)

/-- `dnsmessage.RCodeSuccess` -/
def rCodeSuccess : Nat := 0

def translateDNSRecordBody (resource : Resource) : String :=
  match resource.type, resource.body with
  | .a, .a addr => addr
  | .aaaa, .aaaa addr => addr
  | .cname, .cname name => name
  | .mx, .mx name pref => name ++ ", priority: " ++ toString pref
  | .ns, .ns name => name
  | .ptr, .ptr name => name
  | .opt, .opt | .srv, .srv | .txt, .txt | .other, _ => resource.goString
  | _, _ => ""

/-- `formatDNSResponseBody` cannot fail on strings. -/
def writeDNSResult (resp : QueryDNSResult) : Reply QueryDNSBody := Reply.write (.result resp)

def queryDNS (parse : Bytes → DNSMessage) (input : Except String QueryDNSInput)
    (queryDNS : QueryDNSInput → Except String (Bytes × List String)) : Reply QueryDNSBody :=
  match input with
  | .error _ => Reply.setStatusCode 500
  | .ok input =>
      match queryDNS input with
      | .error _ => Reply.setStatusCode 500
      | .ok (dnsResponse, resolvers) =>
          let dnsParser := parse dnsResponse
          match dnsParser.start, dnsParser.skipAllQuestions with
          | .ok (rCode, goString), .ok _ =>
              let resp : QueryDNSResult := { rCode := goString, resolvers }
              if rCode ≠ rCodeSuccess then
                writeDNSResult { resp with responses := ["No answer."] }
              else
                match dnsParser.allAnswers with
                | .error _ => Reply.setStatusCode 500
                | .ok [] => writeDNSResult { resp with responses := ["No answer."] }
                | .ok answers =>
                    writeDNSResult { resp with responses := answers.map translateDNSRecordBody }
          | _, _ => Reply.setStatusCode 500

/-- Neither a query nor a message that fails leaves a body behind. -/
theorem queryDNS_body {parse : Bytes → DNSMessage} {input : Except String QueryDNSInput}
    {query : QueryDNSInput → Except String (Bytes × List String)} {resp : Response QueryDNSBody}
    (h : queryDNS parse input query = some resp) :
    (resp.statusCode = 500 ∧ resp.body = none) ∨
      (resp.statusCode = 200 ∧ ∃ r, resp.body = some (.result r) ∧ r.error = "" ∧ r.host = "" ∧
        r.responses ≠ []) := by
  unfold queryDNS at h
  split at h
  · cases h
    exact .inl ⟨rfl, rfl⟩
  · split at h
    · cases h
      exact .inl ⟨rfl, rfl⟩
    · dsimp only at h
      split at h
      · split at h
        · cases h
          exact .inr ⟨rfl, _, rfl, rfl, rfl, List.cons_ne_nil _ _⟩
        · split at h
          · cases h
            exact .inl ⟨rfl, rfl⟩
          · cases h
            exact .inr ⟨rfl, _, rfl, rfl, rfl, List.cons_ne_nil _ _⟩
          · next answers hne _ =>
              cases h
              refine .inr ⟨rfl, _, rfl, rfl, rfl, ?_⟩
              intro hnil
              exact hne (List.map_eq_nil_iff.mp hnil)
      · cases h
        exact .inl ⟨rfl, rfl⟩

end TSymbiote.Adapter.Server
