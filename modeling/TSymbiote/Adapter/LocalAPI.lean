import TSymbiote.Adapter.Ping
import TSymbiote.Adapter.Simple
import TSymbiote.Shared.StructToMap.Reflect

/-! # What the local daemon returns

Every answer of the local daemon that a handler turns into a map is a struct or a
pointer to one, except for the list of drive shares. Here it is determined for
which answers `StructToMap` returns and the endpoint answers with JSON.
-/

namespace TSymbiote.Adapter

open Shared

structure StructValue where
  marshaled : Option Json
  fields : List (Field × Value)

def StructValue.value (s : StructValue) : Value := .struct s.marshaled s.fields

def StructValue.pointer : Option StructValue → Value
  | none => .nilPointer
  | some s => .pointer s.value

/-- What a call of the local daemon returned without an error; a pointer is none
where it is nil, as is the list of shares. -/
inductive Returned where
  | routeInfo (info : StructValue)
  | dnsOSConfig (config : StructValue)
  | prefs (prefs : Option StructValue)
  | serveConfig (config : Option StructValue)
  | status (status : Option Status)
  | pingResults (results : List (Option StructValue))
  | driveShares (shares : Option (List (Option StructValue)))

namespace Returned

/-- The values that `StructToMap` is called on. -/
def handed : Returned → List Value
  | routeInfo info => [info.value]
  | dnsOSConfig config => [.pointer config.value]
  | prefs p => [StructValue.pointer p]
  | serveConfig config => [StructValue.pointer config]
  | status none => [.nilPointer]
  | status (some st) => [.pointer st.value]
  | pingResults results => results.map StructValue.pointer
  | driveShares none => [.nilSlice]
  | driveShares (some shares) => [.slice (shares.map StructValue.pointer)]

/-- What the handler that called the daemon answers. -/
def answer : Returned → Reply Body
  | routeInfo info => Server.appConnRoutes [] (.ok info.value)
  | dnsOSConfig config => Server.dnsConfig (.ok (.pointer config.value))
  | prefs p => Server.prefs (.ok (StructValue.pointer p))
  | serveConfig config => Server.serveConfig (.ok (StructValue.pointer config))
  -- the peers of a nil status cannot be read
  | status none => none
  | status (some st) => Server.status (.ok st)
  | pingResults results => Server.writePings (results.map StructValue.pointer)
  | driveShares none => Server.driveShares (.ok .nilSlice)
  | driveShares (some shares) => Server.driveShares (.ok (.slice (shares.map StructValue.pointer)))

/-- A ping request that gets to its calls is answered with what they return. -/
theorem ping_answer {parseDuration : String → Option Int} {getIPByPeer : String → Option String}
    (hostPing : String → String → Nat → Except String (Option StructValue))
    {input : Server.PingInput} {delay : Int} {ip : String}
    (hdelay : parseDuration input.delay = some delay) (hip : getIPByPeer input.target = some ip) :
    Server.ping parseDuration getIPByPeer
        (fun ip type i => (hostPing ip type i).map StructValue.pointer) (.ok input) =
      (pingResults ((List.range input.count.toNat).filterMap fun i =>
        (hostPing ip input.pingType i).toOption)).answer := by
  unfold Server.ping
  simp only [hdelay, hip]
  change Server.writePings _ = Server.writePings _
  rw [List.map_filterMap]
  congr 2
  funext i
  cases hostPing ip input.pingType i <;> rfl

/-- `StructToMap` and all the calls it makes to itself return. -/
def ReturnsNormally (v : Value) : Prop :=
  ∃ n, ∀ depth, n ≤ depth → ∃ m, structToMapReflect depth v = .ok m

/-- The endpoint answers with JSON, and no call panics on the way. -/
def Answered (r : Returned) : Prop :=
  (∀ v ∈ r.handed, ReturnsNormally v) ∧ ∃ doc, r.answer = Reply.write (.document doc)

/-- Structs and pointers to them, none of which is nil. -/
def IsStruct : Returned → Prop
  | routeInfo _ | dnsOSConfig _ => True
  | prefs p | serveConfig p => p.isSome = true
  | status s => s.isSome = true
  | pingResults results => ∀ p ∈ results, p.isSome = true
  | driveShares _ => False

theorem returnsNormally_iff (v : Value) : ReturnsNormally v ↔ (structToMap v).isSome = true := by
  obtain ⟨n, hn⟩ := structToMapReflect_eq v
  constructor
  · intro h
    rcases h with ⟨n', hreturns⟩
    obtain ⟨m, hm⟩ := hreturns (max n n') (Nat.le_max_right n n')
    rw [hn _ (Nat.le_max_left n n')] at hm
    cases hmap : structToMap v with
    | none =>
        rw [hmap] at hm
        cases hm
    | some m => rfl
  · intro h
    obtain ⟨m, hm⟩ := Option.isSome_iff_exists.mp h
    refine ⟨n, fun depth hdepth => ⟨m, ?_⟩⟩
    rw [hn depth hdepth, hm]

theorem pointer_isSome (p : Option StructValue) :
    (structToMap (StructValue.pointer p)).isSome = p.isSome := by
  cases p <;> rfl

theorem writeUnstructuredJSON_answers (v : Value) :
    (∃ doc, Reply.writeUnstructuredJSON v = Reply.write (.document doc)) ↔
      (structToMap v).isSome = true := by
  unfold Reply.writeUnstructuredJSON
  cases structToMap v with
  | none => simp [Reply.write]
  | some m => exact ⟨fun _ => rfl, fun _ => ⟨_, rfl⟩⟩

theorem mapM_isSome (values : List Value) :
    (values.mapM structToMap).isSome = true ↔ ∀ v ∈ values, (structToMap v).isSome = true := by
  induction values with
  | nil => simp
  | cons v values ih =>
      rw [List.mapM_cons, List.forall_mem_cons, ← ih]
      cases structToMap v with
      | none => simp
      | some m => cases values.mapM structToMap <;> simp

theorem writePings_answers (allPings : List Value) :
    (∃ doc, Server.writePings allPings = Reply.write (.document doc)) ↔
      ∀ v ∈ allPings, (structToMap v).isSome = true := by
  rw [← mapM_isSome]
  unfold Server.writePings
  cases allPings.mapM structToMap with
  | none => simp [Reply.write]
  | some pingRes => exact ⟨fun _ => rfl, fun _ => ⟨_, rfl⟩⟩

/-- The calls return for just the values on which the endpoint answers. -/
theorem answered_of_answers {r : Returned}
    (h : (∃ doc, r.answer = Reply.write (.document doc)) ↔
      ∀ v ∈ r.handed, (structToMap v).isSome = true) :
    r.Answered ↔ ∀ v ∈ r.handed, (structToMap v).isSome = true := by
  unfold Answered
  rw [h]
  simp only [returnsNormally_iff, and_self]

/-- `StructToMap` returns and the endpoint answers just for structs. -/
theorem answered_iff (r : Returned) : r.Answered ↔ r.IsStruct := by
  have hone : ∀ {v : Value}, r.handed = [v] → r.answer = Reply.writeUnstructuredJSON v →
      (r.Answered ↔ (structToMap v).isSome = true) := by
    intro v hhanded hanswer
    rw [answered_of_answers, hhanded, List.forall_mem_singleton]
    rw [hhanded, hanswer, List.forall_mem_singleton]
    exact writeUnstructuredJSON_answers v
  cases r with
  | routeInfo info => exact (hone rfl rfl).trans ⟨fun _ => trivial, fun _ => rfl⟩
  | dnsOSConfig config => exact (hone rfl rfl).trans ⟨fun _ => trivial, fun _ => rfl⟩
  | prefs p => rw [hone rfl rfl, pointer_isSome, IsStruct]
  | serveConfig p => rw [hone rfl rfl, pointer_isSome, IsStruct]
  | status s =>
      cases s with
      | none => simp [Answered, answer, IsStruct, Reply.write]
      | some st => exact (hone rfl rfl).trans ⟨fun _ => rfl, fun _ => rfl⟩
  | pingResults results =>
      have hanswers := writePings_answers (results.map StructValue.pointer)
      rw [answered_of_answers (r := pingResults results) hanswers]
      simp [handed, pointer_isSome, IsStruct]
  | driveShares shares =>
      cases shares with
      | none => exact (hone rfl rfl).trans ⟨nofun, False.elim⟩
      | some shares => exact (hone rfl rfl).trans ⟨nofun, False.elim⟩

/-- A daemon that shares nothing is enough to have the handler panic. -/
theorem no_shares_panics :
    (driveShares (some [])).answer = none ∧
      ∀ depth, structToMapReflect (depth + 1) (.slice []) =
        .error "reflect: call of reflect.Value.NumField on slice Value" := by
  exact ⟨rfl, fun _ => rfl⟩

end Returned

end TSymbiote.Adapter
