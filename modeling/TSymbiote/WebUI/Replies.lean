import TSymbiote.WebUI.HostQueries
import TSymbiote.WebUI.Ping
import TSymbiote.WebUI.Pprof

/-! # Replies with one entry for each item

`Ping`, `QueryDNS`, `Goroutines` and `Pprof` each start one goroutine for every
item of the request, with a channel of its own, and append what the channels
give, in the order of the items. The goroutines run, fail and finish in any
order; the entry of an item should be made from its own outcome alone.
-/

namespace TSymbiote.WebUI

open Transition FanOut Shared

/-! ## The handlers -/

/-- What a handler does with a request: a status code alone, or goroutines and
the reply it makes of their results. -/
inductive Handled (R E : Type) where
  | status (code : Nat)
  | fanOut (workers : List (Go Unit R)) (reply : List R → List E)

def ping (parseDuration : String → Option Int) (input : Except String PingInput) :
    Handled PingResults PingResults :=
  match input with
  | .error _ => .status 400
  | .ok input =>
      match parseDuration input.delay with
      | none => .status 400
      | some _ => .fanOut (pingWorkers input) id

/-- A requested host with what `CallHost` returns for it. A document is one that
an adapter's handler has written. -/
structure QueryDNSCall where
  targetHost : String
  answer : Except CallError (Option QueryDNSBody)
  written : ∀ r, answer = .ok (some (.result r)) →
    ∃ parse input query resp, Adapter.Server.queryDNS parse input query = some resp ∧
      resp.body = some (.result r)

def queryDNS (input : Except String (List QueryDNSCall)) : Handled QueryDNSResult QueryDNSResult :=
  match input with
  | .error _ => .status 400
  | .ok calls => .fanOut (calls.map fun call => queryDNSWorker call.targetHost call.answer) id

/-- A requested host with what `CallHost` returns for it. -/
structure StreamCall where
  targetHost : String
  answer : Except CallError (Option Stream)

def goroutines (input : Except String (List StreamCall)) : Handled GoroutinesResult GoroutinesResult :=
  match input with
  | .error _ => .status 400
  | .ok calls => .fanOut (calls.map fun call => goroutinesWorker call.targetHost call.answer) id

/-- The handler's turn for one result. The entry is copied before the file is
written, so an error of the file stays in `res`. -/
def pprofTurn (res : Pprof.PprofResult) (written : Except String Unit) :
    Pprof.PprofResult × Pprof.PprofResult :=
  let tmpRes : Pprof.PprofResult := { error := res.error, host := res.host }
  if res.error = "" then
    match written with
    | .error err => (tmpRes, { res with error := err })
    | .ok _ => (tmpRes, res)
  else (tmpRes, res)

/-- `written i` is what becomes of the file of the `i`-th result. -/
def pprof (input : Pprof.PprofInput) (written : Nat → Except String Unit)
    (calls : Except String (List StreamCall)) : Handled Pprof.PprofResult Pprof.PprofResult :=
  match calls with
  | .error _ => .status 500
  | .ok calls =>
      .fanOut (calls.map fun call => Pprof.pprofWorker input call.targetHost call.answer) fun results =>
        results.mapIdx fun i res => (pprofTurn res (written i)).1

/-! ## Alignment -/

/-- Each goroutine sends one value and returns; none meets its channel closed;
and when nothing can move any more the reply has the entries of the items. -/
inductive Handled.Aligned {ι R E : Type} (items : List ι) (entry : ι → E) : Handled R E → Prop where
  | fanOut {workers : List (Go Unit R)} {reply : List R → List E}
      (sends : ∀ w ∈ workers, ∃ v, w.Does (some [v]))
      (replies : ∀ s, Reaches step (start workers ()) s → s.crashed = false ∧
        (Stuck step s → Complete s s.results ∧ reply s.results = items.map entry)) :
      Aligned items entry (.fanOut workers reply)

/-- One goroutine for each item, which sends the item's result. -/
theorem aligned_of_results {ι R E : Type} {items : List ι} {entry : ι → E} {result : ι → R}
    {workers : List (Go Unit R)} {reply : List R → List E}
    (hworkers : workers = items.map fun item => .send (result item) .ret)
    (hreply : reply (items.map result) = items.map entry) :
    (Handled.fanOut workers reply).Aligned items entry := by
  have hdo : List.Forall₂ Go.Does workers ((items.map result).map fun v => some [v]) := by
    rw [hworkers, List.map_map]
    exact bodies_do (fun item => by simp [Go.Does]) items
  constructor
  · intro w hw
    rw [hworkers] at hw
    rcases List.mem_map.mp hw with ⟨item, _, heq⟩
    subst heq
    exact ⟨result item, by simp [Go.Does]⟩
  · intro s hs
    obtain ⟨halive, hcomplete⟩ := reaches_alive () hdo hs
    refine ⟨halive, ?_⟩
    intro hstuck
    have hdone := hcomplete hstuck
    rw [hdone.results]
    exact ⟨hdone, hreply⟩

/-! ### The items and their entries -/

/-- A target of a ping request, with its host. -/
def PingInput.items (input : PingInput) : List (String × PingTarget) :=
  input.args.flatMap fun pingTarget => pingTarget.targets.map fun target => (pingTarget.host, target)

def pingEntry (item : String × PingTarget) : PingResults := pingResult item.1 item.2

theorem pingWorkers_eq (input : PingInput) :
    pingWorkers input = input.items.map fun item => .send (pingEntry item) .ret := by
  unfold pingWorkers PingInput.items
  rw [List.map_flatMap]
  congr 1
  funext pingTarget
  rw [List.map_map]
  rfl

theorem pingEntry_labelled (item : String × PingTarget) :
    (pingEntry item).host = item.1 ∧ (pingEntry item).target = item.2.target := by
  unfold pingEntry pingResult
  dsimp only
  split
  · exact ⟨rfl, rfl⟩
  · exact ⟨rfl, rfl⟩
  · split <;> exact ⟨rfl, rfl⟩

def queryDNSEntry (call : QueryDNSCall) : QueryDNSResult := queryDNSResult call.targetHost call.answer

/-- The adapter leaves the host out of its document, so the decoder keeps the one
that was there. -/
theorem queryDNSEntry_labelled (call : QueryDNSCall) : (queryDNSEntry call).host = call.targetHost := by
  unfold queryDNSEntry queryDNSResult
  split
  · rfl
  · rfl
  · rfl
  · next r hanswer =>
      rcases call.written r hanswer with ⟨parse, input, query, resp, hwrite, hbody⟩
      rcases Adapter.Server.queryDNS_body hwrite with ⟨_, hnone⟩ | ⟨_, r', hr', _, hhost, _⟩
      · rw [hbody] at hnone
        cases hnone
      · rw [hbody] at hr'
        cases hr'
        unfold QueryDNSResult.decode
        exact if_pos hhost

def goroutinesEntry (call : StreamCall) : GoroutinesResult :=
  goroutinesResult call.targetHost call.answer

theorem goroutinesEntry_labelled (call : StreamCall) :
    (goroutinesEntry call).host = call.targetHost := by
  unfold goroutinesEntry goroutinesResult
  split
  · rfl
  · split <;> rfl

def pprofEntry (input : Pprof.PprofInput) (call : StreamCall) : Pprof.PprofResult :=
  { error := (Pprof.pprofResult input call.targetHost call.answer).error, host := call.targetHost }

theorem pprofResult_host (input : Pprof.PprofInput) (targetHost : String)
    (answer : Except CallError (Option Stream)) :
    (Pprof.pprofResult input targetHost answer).host = targetHost := by
  unfold Pprof.pprofResult
  dsimp only
  split
  · rfl
  · split <;> rfl

/-- The entry is the same whatever becomes of the file. -/
theorem pprofTurn_entry (res : Pprof.PprofResult) (written : Except String Unit) :
    (pprofTurn res written).1 = { error := res.error, host := res.host } := by
  unfold pprofTurn
  dsimp only
  split
  · cases written <;> rfl
  · rfl

theorem pprof_aligned (input : Pprof.PprofInput) (written : Nat → Except String Unit)
    (calls : List StreamCall) : (pprof input written (.ok calls)).Aligned calls (pprofEntry input) := by
  refine aligned_of_results rfl (List.mapIdx_eq_iff.mpr ?_)
  intro i
  rw [List.getElem?_map, List.getElem?_map, Option.map_map]
  cases calls[i]? with
  | none => rfl
  | some call =>
      rw [Option.map_some, Option.map_some, Function.comp_apply, pprofTurn_entry, pprofResult_host]
      rfl

/-! ## Every request -/

/-- Each of the four handlers answers a decoded request with one entry for each
item, in order, labelled with the item and made from its outcome alone. -/
theorem replies_aligned :
    (∀ parseDuration input,
      (parseDuration input.delay = none ∧ ping parseDuration (.ok input) = .status 400 ∨
        (ping parseDuration (.ok input)).Aligned input.items pingEntry) ∧
      ∀ item, (pingEntry item).host = item.1 ∧ (pingEntry item).target = item.2.target) ∧
    (∀ calls, (queryDNS (.ok calls)).Aligned calls queryDNSEntry ∧
      ∀ call, (queryDNSEntry call).host = call.targetHost) ∧
    (∀ calls, (goroutines (.ok calls)).Aligned calls goroutinesEntry ∧
      ∀ call, (goroutinesEntry call).host = call.targetHost) ∧
    (∀ input written calls, (pprof input written (.ok calls)).Aligned calls (pprofEntry input) ∧
      ∀ call, (pprofEntry input call).host = call.targetHost) := by
  refine ⟨?_, ?_, ?_, ?_⟩
  · intro parseDuration input
    refine ⟨?_, pingEntry_labelled⟩
    unfold ping
    dsimp only
    cases parseDuration input.delay with
    | none => exact .inl ⟨rfl, rfl⟩
    | some delay => exact .inr (aligned_of_results (pingWorkers_eq input) rfl)
  · intro calls
    exact ⟨aligned_of_results rfl rfl, queryDNSEntry_labelled⟩
  · intro calls
    exact ⟨aligned_of_results rfl rfl, goroutinesEntry_labelled⟩
  · intro input written calls
    exact ⟨pprof_aligned input written calls, fun call => rfl⟩

end TSymbiote.WebUI
