import TSymbiote.Lib.Percent
import TSymbiote.Lib.Replace
import TSymbiote.WebUI.CallHost

/-! # Debug pages of an adapter

`RemoteDebug` takes the host name out of the URI of a request and calls the
host's adapter with what is left. It replaces every occurrence of the name before
a slash, and looks for the name as it is decoded, not as the URI has it.
-/

namespace TSymbiote.WebUI

open Shared Percent

def slash : UInt8 := 47

/-- What the mux binds a wildcard to: a segment that cannot be decoded stays. -/
def pathValue (segment : Bytes) : Bytes := (pathUnescape segment).getD segment

def trimmedURI (hostname : String) (originalURI : Bytes) : Bytes :=
  replaceAll originalURI (bytes hostname ++ [slash]) []

/-- The answer to a call of an adapter, as the handler copies it. -/
def copyAnswer (answer : Except CallError (Option Stream)) : Reply Bytes :=
  match answer with
  | .error _ => .setStatusCode 500
  | .ok resp => some { body := resp.map Stream.data }

/-- `network` is what a `GET` of a URI at an adapter comes back with. -/
def remoteDebug (c : Client) (network : String → Bytes → Except CallError (Response Stream))
    (hostname : String) (originalURI : Bytes) : Reply Bytes :=
  copyAnswer (callHost c (fun adapter => network adapter (trimmedURI hostname originalURI)) hostname)

/-- A request on the route `/{host}/debug/pprof/` for a known host. The path is the
escaped one, which the mux matches and `RequestURI` returns. -/
structure DebugRequest (c : Client) where
  host : String
  adapter : String
  segment : Bytes
  /-- What follows `debug/pprof/` in the path. -/
  page : Bytes
  query : Option Bytes
  segment_free : slash ∉ segment
  host_ne : host ≠ ""
  value : pathValue segment = bytes host
  known : c.getAdapter host = some adapter
  adapter_ne : adapter ≠ ""

namespace DebugRequest

variable {c : Client}

/-- The rest of the path and the query. -/
def remainder (req : DebugRequest c) : Bytes :=
  bytes "debug/pprof/" ++ req.page ++ (req.query.map (bytes "?" ++ ·)).getD []

def requestURI (req : DebugRequest c) : Bytes := slash :: req.segment ++ slash :: req.remainder

/-- The host's adapter is called with the URI without the leading segment. -/
def Forwarded (req : DebugRequest c) : Prop :=
  ∀ network, remoteDebug c network req.host req.requestURI =
    copyAnswer (callAdapter (network req.adapter (slash :: req.remainder)))

theorem remoteDebug_known (req : DebugRequest c)
    (network : String → Bytes → Except CallError (Response Stream)) (originalURI : Bytes) :
    remoteDebug c network req.host originalURI =
      copyAnswer (callAdapter (network req.adapter (trimmedURI req.host originalURI))) := by
  unfold remoteDebug callHost
  rw [req.known]
  dsimp only
  rw [if_neg req.adapter_ne]

theorem forwarded_iff_trimmed (req : DebugRequest c) :
    req.Forwarded ↔ trimmedURI req.host req.requestURI = slash :: req.remainder := by
  unfold Forwarded
  constructor
  · intro h
    -- adapters that answer with the URI they are called with
    have hecho := h fun _ uri => .ok { body := some { data := uri } }
    rw [remoteDebug_known] at hecho
    simpa [callAdapter, copyAnswer] using hecho
  · intro h network
    rw [remoteDebug_known, h]

theorem bytes_ne_nil {s : String} (h : s ≠ "") : bytes s ≠ [] := by
  intro hnil
  unfold bytes at hnil
  have hsize : s.utf8ByteSize = 0 := congrArg List.length hnil
  exact h (String.utf8ByteSize_eq_zero_iff.mp hsize)

/-! ## The name as the segment has it -/

theorem trimmedURI_segment (req : DebugRequest c) (h : req.segment = bytes req.host) :
    trimmedURI req.host req.requestURI =
      slash :: replaceAll req.remainder (bytes req.host ++ [slash]) [] := by
  have hfree := req.segment_free
  rw [h] at hfree
  have hstart : ¬ bytes req.host ++ [slash] <+: slash :: (bytes req.host ++ slash :: req.remainder) := by
    cases hhost : bytes req.host with
    | nil => exact absurd hhost (bytes_ne_nil req.host_ne)
    | cons b bs =>
        intro hmatched
        have hb := (List.cons_prefix_cons.mp hmatched).1
        rw [hhost, hb] at hfree
        exact hfree List.mem_cons_self
  have hold : bytes req.host ++ [slash] ≠ [] := List.append_ne_nil_of_right_ne_nil _ (by decide)
  unfold trimmedURI requestURI
  rw [h, List.cons_append, replaceAll_cons hstart, List.append_cons,
    replaceAll_append hold, List.nil_append]

/-! ## A name that the segment encodes -/

theorem pathUnescape_of_ne {segment name : Bytes} (hvalue : pathValue segment = name)
    (hneq : segment ≠ name) : pathUnescape segment = some name ∧ name.length < segment.length := by
  unfold pathValue at hvalue
  cases hcode : pathUnescape segment with
  | none =>
      rw [hcode] at hvalue
      exact absurd hvalue hneq
  | some decoded =>
      rw [hcode] at hvalue
      cases hvalue
      rcases eq_or_length_lt hcode with heq | hlt
      · exact absurd heq.symm hneq
      · exact ⟨rfl, hlt⟩

/-- A name whose segment is `p ++ w` does not occur where `w` begins. -/
theorem not_prefix_of_pathUnescape {p w d rest : Bytes} (hpercent : percent ∉ p)
    (hp : slash ∉ p) (hne : p ≠ []) (hw : slash ∉ w) (hd : pathUnescape w = some d) :
    ¬ p ++ d ++ [slash] <+: w ++ slash :: rest := by
  intro hmatch
  rcases le_or_gt w.length (p ++ d).length with hle | hlt
  · have hwstart : w <+: p ++ d := List.prefix_of_prefix_length_le (List.prefix_append w _)
      ((List.prefix_append _ _).trans hmatch) hle
    rcases hwstart with ⟨z, hz⟩
    rw [← hz, List.append_assoc, List.prefix_append_right_inj] at hmatch
    refine append_ne_of_pathUnescape hpercent hp hne ?_ hw hd hz
    cases z with
    | nil => exact .inl rfl
    | cons y z => exact .inr ⟨z, by rw [(List.cons_prefix_cons.mp hmatch).1]⟩
  · exact hw (mem_of_prefix_append hmatch hlt)

/-- Where the replacement leaves the rest of the URI, the segment was the name. -/
theorem segment_eq_of_replaceAll {segment name : Bytes} (start rest : Bytes)
    (hfree : slash ∉ segment) (hvalue : pathValue segment = name) (hname : name ≠ [])
    (hpercent : percent ∉ start)
    (h : replaceAll (slash :: segment ++ slash :: (start ++ slash :: rest)) (name ++ [slash]) [] =
      slash :: (start ++ slash :: rest)) : segment = name := by
  by_contra hneq
  rcases pathUnescape_of_ne hvalue hneq with ⟨hdecoded, hshort⟩
  -- what is kept of the segment is a part of `start`, so that it has no code
  rcases prefix_replaceAll (name ++ [slash]) [] (slash :: segment) (slash :: (start ++ slash :: rest))
    with ⟨kept, w, hsplit, hkept, hw⟩
  rw [h] at hkept
  cases kept with
  | nil =>
      rw [List.nil_append] at hsplit
      rw [← hsplit] at hw
      rcases hw with hnil | hmatch
      · contradiction
      · cases name with
        | nil => exact hname rfl
        | cons b bs =>
            have hrest := (List.cons_prefix_cons.mp hmatch).2
            have hlt : bs.length < segment.length := Nat.lt_of_succ_lt hshort
            exact hfree (mem_of_prefix_append hrest hlt)
  | cons b p =>
      rw [List.cons_append, List.cons.injEq] at hsplit
      rcases hsplit with ⟨rfl, rfl⟩
      have hpfree : slash ∉ p := fun hmem => hfree (List.mem_append_left w hmem)
      have hwfree : slash ∉ w := fun hmem => hfree (List.mem_append_right p hmem)
      have hp := prefix_of_not_mem hpfree (List.cons_prefix_cons.mp hkept).2
      have hpplain : percent ∉ p := fun hmem => hpercent (hp.subset hmem)
      rw [pathUnescape_append hpplain] at hdecoded
      rcases Option.map_eq_some_iff.mp hdecoded with ⟨d, hd, rfl⟩
      rcases hw with rfl | hmatch
      · cases hd
        exact hneq rfl
      · by_cases hne : p = []
        · subst hne
          exact hfree (mem_of_prefix_append hmatch hshort)
        · exact not_prefix_of_pathUnescape hpplain hpfree hne hwfree hd hmatch

/-! ## Which requests arrive as they should -/

/-- A request is forwarded as it should be just when its URI has the name of the
host as it is and nowhere else before a slash. -/
theorem forwarded_iff (req : DebugRequest c) :
    req.Forwarded ↔ req.segment = bytes req.host ∧
      ¬ bytes req.host ++ [slash] <:+: req.remainder := by
  have hold : bytes req.host ++ [slash] ≠ [] := List.append_ne_nil_of_right_ne_nil _ (by decide)
  rw [forwarded_iff_trimmed]
  constructor
  · intro h
    have hsegment : req.segment = bytes req.host := by
      exact segment_eq_of_replaceAll (bytes "debug")
        (bytes "pprof/" ++ req.page ++ (req.query.map (bytes "?" ++ ·)).getD [])
        req.segment_free req.value (bytes_ne_nil req.host_ne) (by decide) h
    rw [trimmedURI_segment req hsegment, List.cons.injEq] at h
    exact ⟨hsegment, (replaceAll_eq_self hold).mp h.2⟩
  · intro h
    rcases h with ⟨hsegment, honce⟩
    rw [trimmedURI_segment req hsegment, replaceAll_of_not_infix honce]

/-- A host named like the first part of the path loses that part too. -/
theorem debug_host_cut : ∃ (c : Client) (req : DebugRequest c), req.host = "debug" ∧
    req.segment = bytes "debug" ∧ req.remainder = bytes "debug/pprof/heap" ∧
      trimmedURI req.host req.requestURI = bytes "/pprof/heap" ∧ ¬ req.Forwarded := by
  refine ⟨newClient.setKnownHost "debug" "10.0.0.7", ⟨"debug", "10.0.0.7", bytes "debug",
    bytes "heap", none, by decide, by decide, by decide, by decide, by decide⟩, rfl, rfl,
    by decide, by decide, ?_⟩
  rw [forwarded_iff_trimmed]
  decide

end DebugRequest

end TSymbiote.WebUI
