import TSymbiote.Shared.StructToMap

/-! # The adapter's status answer

`Status` passes the local daemon's status through `StructToMap`. `Status` and
`PeerStatus` have the fields the WebUI reads by name; `rest` stands for all the
others. A status without peers has a nil peer map, and both the entries of the
peer map and the own status are pointers.
-/

namespace TSymbiote.Adapter

open Shared

structure PeerStatus where
  hostName : String
  rest : List (Field × Value)
  fresh : ∀ f ∈ rest, f.1.name ≠ "HostName" ∧ f.1.jsonName ≠ "HostName"

structure Status where
  self : Option PeerStatus
  peer : Option (GoMap (Option PeerStatus))
  rest : List (Field × Value)
  fresh : ∀ f ∈ rest, f.1.name ≠ "Self" ∧ f.1.name ≠ "Peer"

def PeerStatus.value (p : PeerStatus) : Value :=
  .struct none (({ name := "HostName" }, .leaf (.string p.hostName)) :: p.rest)

def pointerTo : Option PeerStatus → Value
  | none => .nilPointer
  | some p => .pointer p.value

def peerEntries (peers : GoMap (Option PeerStatus)) : List (String × Value) :=
  peers.entries.map fun e => (e.1, pointerTo e.2)

def peerMap : Option (GoMap (Option PeerStatus)) → Value
  | none => .nilMap
  | some peers => .map (peerEntries peers)

def Status.value (st : Status) : Value :=
  .struct none
    (({ name := "Self" }, pointerTo st.self) :: ({ name := "Peer" }, peerMap st.peer) :: st.rest)

/-- What a caller of the handler gets: an error unless the daemon answered and
`StructToMap` returned. -/
def status (resp : Except String Status) : Except String Body :=
  match resp with
  | .error _ => .error "500 Internal Server Error"
  | .ok st =>
      match structToMap (.pointer st.value) with
      | none => .error "EOF"
      | some m => .ok (.document (Any.map m).json)

/-! ## The document of a status -/

theorem structFields_keys (fields : List (Field × Value)) (k : String)
    (h : k ∈ (jsonAnys (structFields fields)).map Prod.fst) : ∃ f ∈ fields, f.1.name = k := by
  induction fields with
  | nil => simp [structFields, jsonAnys] at h
  | cons e fields ih =>
      rcases e with ⟨f, v⟩
      simp only [structFields] at h
      split at h
      · simp only [jsonAnys, List.map_cons, List.mem_cons] at h
        rcases h with rfl | h
        · exact ⟨(f, v), List.mem_cons_self, rfl⟩
        · obtain ⟨g, hg, hk⟩ := ih h
          exact ⟨g, List.mem_cons_of_mem _ hg, hk⟩
      · obtain ⟨g, hg, hk⟩ := ih h
        exact ⟨g, List.mem_cons_of_mem _ hg, hk⟩

theorem jsonFields_keys (fields : List (Field × Value)) (k : String)
    (h : k ∈ (jsonFields fields).map Prod.fst) : ∃ f ∈ fields, f.1.jsonName = k := by
  induction fields with
  | nil => simp [jsonFields] at h
  | cons e fields ih =>
      rcases e with ⟨f, v⟩
      simp only [jsonFields] at h
      split at h
      · obtain ⟨g, hg, hk⟩ := ih h
        exact ⟨g, List.mem_cons_of_mem _ hg, hk⟩
      · simp only [List.map_cons, List.mem_cons] at h
        rcases h with rfl | h
        · exact ⟨(f, v), List.mem_cons_self, rfl⟩
        · obtain ⟨g, hg, hk⟩ := ih h
          exact ⟨g, List.mem_cons_of_mem _ hg, hk⟩

theorem jsonEntries_eq_map (entries : List (String × Value)) :
    jsonEntries entries = entries.map fun e => (e.1, e.2.json) := by
  induction entries with
  | nil => rfl
  | cons e entries ih =>
      rcases e with ⟨k, v⟩
      rw [jsonEntries, ih, List.map_cons]

/-- The own status, reflected field by field, still has its host name. -/
theorem hostName_reflected (p : PeerStatus) :
    Json.get (Json.lastWins (jsonAnys (structFields
      (({ name := "HostName" }, .leaf (.string p.hostName)) :: p.rest)))) "HostName" =
        .string p.hostName := by
  have hk : "HostName" ∉ (jsonAnys (structFields p.rest)).map Prod.fst := by
    intro h
    obtain ⟨f, hf, hname⟩ := structFields_keys _ _ h
    exact (p.fresh f hf).1 hname
  simp only [structFields, fieldAny, jsonAnys, Any.json, Value.json]
  rw [Json.lastWins_cons hk, Json.get_cons_self]

/-- A peer, encoded as a struct, still has its host name. -/
theorem hostName_encoded (p : PeerStatus) :
    Json.get (Json.lastWins (jsonFields
      (({ name := "HostName" }, .leaf (.string p.hostName)) :: p.rest))) "HostName" =
        .string p.hostName := by
  have hk : "HostName" ∉ (jsonFields p.rest).map Prod.fst := by
    intro h
    obtain ⟨f, hf, hname⟩ := jsonFields_keys _ _ h
    exact (p.fresh f hf).2 hname
  simp only [jsonFields, Field.jsonName, Value.json]
  rw [if_neg (by simp), Option.getD_none, Json.lastWins_cons hk, Json.get_cons_self]

end TSymbiote.Adapter
