import TSymbiote.Frontend.WebSocketStream
import TSymbiote.Lib.Base64
import TSymbiote.Shared.Websocket

/-! # The text of a stream message

The relay sends the bytes of a message as base64 in a JSON document; the browser
decodes them to a string with one character for each byte. Here it is determined
which texts arrive at the formatter as they were sent.
-/

namespace TSymbiote.Frontend.WebSocketStream

open Shared

/-- `json.Marshal`: a byte slice becomes a base64 string. -/
def marshal (m : WebsocketHostMessage) : Json :=
  .object [("Host", .string m.host), ("Message", .string (String.ofList (Base64.encode m.message)))]

/-- The string whose characters, one UTF-16 code unit each, are the bytes. -/
def binaryString (data : Bytes) : String := String.ofList (data.map fun b => Char.ofNat b.toNat)

/-- Throws where the string is no base64. -/
def atob (s : String) : Option String := (Base64.decode s.toList).map binaryString

/-- The string that a property is converted to. -/
def Runtime.string (runtime : Runtime) : Option Json → String
  | some v => runtime.text v
  | none => "undefined"

/-- What `ws.onmessage` reads in a parsed document. -/
def readMessage (runtime : Runtime) (wsMessage : Json) : EventData :=
  match member wsMessage "Host", member wsMessage "Message" with
  | .ok hostId, .ok encodedMessage =>
      match atob (runtime.string encodedMessage) with
      | some decodedMessage => .hostMessage (runtime.string hostId) decodedMessage
      | none => .malformed
  | _, _ => .malformed

/-- The host and the string that `messageFormatter` is called for. -/
def formatted : EventData → Option (String × String)
  | .hostMessage hostId decodedMessage =>
      if decodedMessage = "websocket closed" then none else some (hostId, decodedMessage)
  | _ => none

theorem onmessage_formatted {runtime : Runtime} {sock : Socket} {s : State} {now : Nat}
    {data : EventData} {hostId decodedMessage : String}
    (h : formatted data = some (hostId, decodedMessage)) :
    onmessage runtime sock s now data =
      match getMessageFormatter runtime sock.streamType decodedMessage with
      | some formattedMessage =>
          { s with streamData := s.streamData.append hostId formattedMessage }
      | none => s := by
  cases data with
  | pong => cases h
  | malformed => cases h
  | hostMessage hostId' decodedMessage' =>
      unfold formatted at h
      dsimp only at h
      split at h
      · contradiction
      · next hopen =>
          cases h
          unfold onmessage
          dsimp only
          cases getMessageFormatter runtime sock.streamType decodedMessage with
          | none => exact if_neg hopen
          | some formattedMessage => exact if_neg hopen

/-! ## Bytes and characters -/

theorem binaryString_toList (data : Bytes) :
    (binaryString data).toList = data.map fun b => Char.ofNat b.toNat := by
  unfold binaryString
  rw [String.toList_ofList]

/-- A character outside ASCII takes several bytes. -/
theorem flatMap_length_le (cs : List Char) :
    cs.length ≤ (cs.flatMap String.utf8EncodeChar).length := by
  induction cs with
  | nil => exact Nat.le_refl _
  | cons c cs ih =>
      have hc := Char.utf8Size_pos c
      rw [List.flatMap_cons, List.length_append, String.length_utf8EncodeChar, List.length_cons]
      omega

theorem ascii_of_flatMap_length {cs : List Char}
    (h : (cs.flatMap String.utf8EncodeChar).length = cs.length) : ∀ c ∈ cs, c.val ≤ 127 := by
  induction cs with
  | nil => exact List.forall_mem_nil _
  | cons c cs ih =>
      have hc := Char.utf8Size_pos c
      have hcs := flatMap_length_le cs
      rw [List.flatMap_cons, List.length_append, String.length_utf8EncodeChar, List.length_cons] at h
      rw [List.forall_mem_cons]
      constructor
      · exact Char.utf8Size_eq_one_iff.mp (by omega)
      · exact ih (by omega)

theorem utf8EncodeChar_ascii {c : Char} (h : c.val ≤ 127) :
    (String.utf8EncodeChar c).map (fun b => Char.ofNat b.toNat) = [c] := by
  have hlt : c.val.toNat < 256 := by
    have hle : c.val.toNat ≤ 127 := h
    omega
  rw [String.utf8EncodeChar_eq_singleton (Char.utf8Size_eq_one_iff.mpr h), List.map_singleton]
  have hbyte : c.val.toUInt8.toNat = c.toNat := by
    rw [UInt32.toNat_toUInt8]
    exact Nat.mod_eq_of_lt hlt
  rw [hbyte, Char.ofNat_toNat]

theorem flatMap_ascii {cs : List Char} (h : ∀ c ∈ cs, c.val ≤ 127) :
    (cs.flatMap String.utf8EncodeChar).map (fun b => Char.ofNat b.toNat) = cs := by
  induction cs with
  | nil => rfl
  | cons c cs ih =>
      obtain ⟨hc, hcs⟩ := List.forall_mem_cons.mp h
      rw [List.flatMap_cons, List.map_append, utf8EncodeChar_ascii hc, ih hcs, List.singleton_append]

theorem binaryString_bytes (s : String) :
    binaryString (bytes s) = s ↔ ∀ c ∈ s.toList, c.val ≤ 127 := by
  rw [← String.toList_inj, binaryString_toList, bytes_eq, Utf8.encode]
  constructor
  · intro h
    have hlength := congrArg List.length h
    rw [List.length_map] at hlength
    exact ascii_of_flatMap_length hlength
  · exact flatMap_ascii

/-! ## The message that arrives -/

theorem atob_encode (data : Bytes) :
    atob (String.ofList (Base64.encode data)) = some (binaryString data) := by
  unfold atob
  rw [String.toList_ofList, Base64.decode_encode]
  rfl

theorem readMessage_marshal (runtime : Runtime) (m : WebsocketHostMessage) :
    readMessage runtime (marshal m) = .hostMessage m.host (binaryString m.message) := by
  have hhost : member (marshal m) "Host" = .ok (some (.string m.host)) := by
    simp [marshal, member, Json.lastWins]
  have hmessage : member (marshal m) "Message" =
      .ok (some (.string (String.ofList (Base64.encode m.message)))) := by
    simp [marshal, member, Json.lastWins, List.lookup_cons]
  unfold readMessage
  rw [hhost, hmessage]
  simp only [Runtime.string, Runtime.text, atob_encode]

/-- The formatter gets the text of a message just when it is ASCII, and not the
text that stands for the end of a connection. -/
theorem text_kept_iff (runtime : Runtime) (host text : String) :
    formatted (readMessage runtime (marshal ⟨host, bytes text⟩)) = some (host, text) ↔
      (∀ c ∈ text.toList, c.val ≤ 127) ∧ text ≠ "websocket closed" := by
  rw [readMessage_marshal, ← binaryString_bytes]
  unfold formatted
  dsimp only
  constructor
  · intro h
    split at h
    · contradiction
    · next hopen =>
        have hsame := congrArg Prod.snd (Option.some.inj h)
        dsimp only at hsame
        rw [hsame] at hopen
        exact ⟨hsame, hopen⟩
  · intro h
    rcases h with ⟨hsame, hopen⟩
    rw [hsame, if_neg hopen]

/-- A letter of two bytes arrives as two letters. -/
theorem accent_garbled :
    ∃ runtime, formatted (readMessage runtime (marshal ⟨"node", bytes "é"⟩)) = some ("node", "Ã©") := by
  refine ⟨⟨fun _ => none, fun _ => false, fun _ => "", fun _ => ""⟩, ?_⟩
  rw [readMessage_marshal]
  decide

end TSymbiote.Frontend.WebSocketStream
