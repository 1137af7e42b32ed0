import TSymbiote.Lib.FanOut.Schedule
import TSymbiote.WebUI.Replies

/-! # Profiles that are not written

The entry of a host in the reply is made before its profile is written to a
file, and the error of the file is stored in the result that it was made from.
-/

namespace TSymbiote.WebUI

open Shared Transition FanOut
open Pprof (PprofInput PprofResult pprofResult profile pprofResult_profile pprofResult_error)

/-- What the file system does with one profile; `room` is how many of its bytes
a write takes. -/
structure FileOps where
  mkdirAll : Option String := none
  create : Option String := none
  room : Nat
  writeErr : String := "no space left on device"

/-- The contents of the file, if it is opened, and the error. -/
def writePprofToFile (ops : FileOps) (data : Bytes) : Option Bytes × Except String Unit :=
  match ops.mkdirAll with
  | some err => (none, .error err)
  | none =>
      match ops.create with
      | some err => (none, .error err)
      | none =>
          -- A short write comes with an error.
          if data.length ≤ ops.room then (some data, .ok ())
          else (some (data.take ops.room), .error ops.writeErr)

/-- What arrived of the `i`-th profile. -/
def received (input : PprofInput) (calls : List StreamCall) (i : Nat) : Bytes :=
  match calls[i]? with
  | none => []
  | some call => (pprofResult input call.targetHost call.answer).pprof

/-- The handler, with a file system for each result. -/
def pprofToFiles (input : PprofInput) (disk : Nat → FileOps) (calls : List StreamCall) :
    Handled PprofResult PprofResult :=
  pprof input (fun i => (writePprofToFile (disk i) (received input calls i)).2) (.ok calls)

/-! ## What the reply should say -/

/-- The profile of the call arrived and its file holds all of it. -/
def Stored (ops : FileOps) (call : StreamCall) : Prop :=
  ∃ data, profile call.answer = some data ∧ (writePprofToFile ops data).1 = some data

/-- In every run of the goroutines to the end, the entry of each host has an
empty error just when its profile is stored. -/
def Honest (input : PprofInput) (disk : Nat → FileOps) (calls : List StreamCall) : Prop :=
  ∀ workers reply, pprofToFiles input disk calls = .fanOut workers reply →
    ∀ s, Reaches step (start workers ()) s → Stuck step s →
      ∀ i call, calls[i]? = some call → ∃ entry, (reply s.results)[i]? = some entry ∧
        entry.host = call.targetHost ∧ (entry.error = "" ↔ Stored (disk i) call)

/-- Directory and file can be made, and all bytes have room. -/
structure Takes (ops : FileOps) (data : Bytes) : Prop where
  mkdirAll : ops.mkdirAll = none
  create : ops.create = none
  room : data.length ≤ ops.room

theorem stored_iff_takes (ops : FileOps) (data : Bytes) :
    (writePprofToFile ops data).1 = some data ↔ Takes ops data := by
  unfold writePprofToFile
  split
  · next err hmkdir =>
      constructor
      · exact nofun
      · intro htakes
        rw [htakes.mkdirAll] at hmkdir
        cases hmkdir
  · next hmkdir =>
      split
      · next err hcreate =>
          constructor
          · exact nofun
          · intro htakes
            rw [htakes.create] at hcreate
            cases hcreate
      · next hcreate =>
          split
          · next hroom => exact ⟨fun _ => ⟨hmkdir, hcreate, hroom⟩, fun _ => rfl⟩
          · next hroom =>
              constructor
              · intro hcontents
                have hlength := congrArg List.length (Option.some.inj hcontents)
                rw [List.length_take] at hlength
                omega
              · intro htakes
                exact absurd htakes.room hroom

theorem entry_error_iff (input : PprofInput) (call : StreamCall) :
    (pprofEntry input call).error = "" ↔ ∃ data, profile call.answer = some data := by
  unfold pprofEntry
  cases hprofile : profile call.answer with
  | some data =>
      rw [pprofResult_profile hprofile]
      exact ⟨fun _ => ⟨data, rfl⟩, fun _ => rfl⟩
  | none =>
      obtain ⟨err, hresult⟩ := pprofResult_error input call.targetHost hprofile
      rw [hresult]
      exact ⟨fun hempty => absurd hempty err.nonempty, nofun⟩

/-- The entry does not depend on the file, and says that the profile arrived. -/
theorem honest_iff_stored (input : PprofInput) (disk : Nat → FileOps) (calls : List StreamCall) :
    Honest input disk calls ↔ ∀ i call, calls[i]? = some call →
      ((∃ data, profile call.answer = some data) ↔ Stored (disk i) call) := by
  have haligned := pprof_aligned input
    (fun i => (writePprofToFile (disk i) (received input calls i)).2) calls
  change (pprofToFiles input disk calls).Aligned calls (pprofEntry input) at haligned
  cases hhandled : pprofToFiles input disk calls with
  | status code =>
      rw [hhandled] at haligned
      cases haligned
  | fanOut workers reply =>
      rw [hhandled] at haligned
      cases haligned with
      | fanOut sends replies =>
          have hentry : ∀ s, Reaches step (start workers ()) s → Stuck step s →
              ∀ (i : Nat) call, calls[i]? = some call →
                (reply s.results)[i]? = some (pprofEntry input call) := by
            intro s hs hstuck i call hcall
            rw [((replies s hs).2 hstuck).2, List.getElem?_map, hcall, Option.map_some]
          constructor
          · intro hhonest i call hcall
            obtain ⟨s, hs, hstuck⟩ := exists_stuck step_wf (start workers ())
            obtain ⟨entry, hreply, _, herror⟩ := hhonest workers reply hhandled s hs hstuck i call hcall
            rw [hentry s hs hstuck i call hcall, Option.some.injEq] at hreply
            subst hreply
            rw [← herror, entry_error_iff]
          · intro hstored workers' reply' hhandled' s hs hstuck i call hcall
            rw [hhandled] at hhandled'
            cases hhandled'
            refine ⟨_, hentry s hs hstuck i call hcall, rfl, ?_⟩
            rw [entry_error_iff]
            exact hstored i call hcall

/-- The reply is honest exactly when the files take every profile that arrives. -/
theorem honest_iff (input : PprofInput) (disk : Nat → FileOps) (calls : List StreamCall) :
    Honest input disk calls ↔ ∀ i call data, calls[i]? = some call →
      profile call.answer = some data → Takes (disk i) data := by
  rw [honest_iff_stored]
  constructor
  · intro hstored i call data hcall hprofile
    obtain ⟨data', hprofile', hcontents⟩ := (hstored i call hcall).mp ⟨data, hprofile⟩
    rw [hprofile, Option.some.injEq] at hprofile'
    subst hprofile'
    exact (stored_iff_takes (disk i) data).mp hcontents
  · intro htakes i call hcall
    constructor
    · intro harrived
      rcases harrived with ⟨data, hprofile⟩
      exact ⟨data, hprofile, (stored_iff_takes _ _).mpr (htakes i call data hcall hprofile)⟩
    · intro hstored
      rcases hstored with ⟨data, hprofile, _⟩
      exact ⟨data, hprofile⟩

def heapCall : StreamCall := { targetHost := "node", answer := .ok (some { data := [1, 2] }) }

/-- The disk is full, and the reply reports no error. -/
theorem full_disk_unreported :
    (∃ s, execute step (start [Pprof.pprofWorker ⟨["node"], "heap"⟩ "node" heapCall.answer] ())
        [.spawn, .deliver, .close] = some s ∧ Replied s ∧
      s.results.mapIdx (fun i res =>
        (pprofTurn res (writePprofToFile { room := 0 } (received ⟨["node"], "heap"⟩ [heapCall] i)).2).1) =
        [{ error := "", host := "node" }]) ∧
    ¬ Honest ⟨["node"], "heap"⟩ (fun _ => { room := 0 }) [heapCall] := by
  constructor
  · exact ⟨_, rfl, ⟨rfl, rfl, rfl⟩, rfl⟩
  · intro hhonest
    obtain ⟨data, hprofile, hcontents⟩ :=
      ((honest_iff_stored _ _ _).mp hhonest 0 heapCall rfl).mp ⟨[1, 2], rfl⟩
    cases hprofile
    have htakes := (stored_iff_takes _ _).mp hcontents
    exact absurd htakes.room (by decide)

end TSymbiote.WebUI
