import TSymbiote.Lib.Utf8

/-! # Websocket messages

The payloads the adapter's streams and the relay exchange.
-/

namespace TSymbiote.Shared

abbrev Bytes := List UInt8

def bytes (s : String) : Bytes := s.toUTF8.data.toList

theorem bytes_eq (s : String) : bytes s = Utf8.encode s.toList := by
  unfold bytes Utf8.encode
  rw [String.toUTF8_eq_toByteArray, ← String.utf8Encode_toList, List.utf8Encode,
    List.toList_data_toByteArray]

theorem bytes_append (s t : String) : bytes (s ++ t) = bytes s ++ bytes t := by
  rw [bytes_eq, bytes_eq, bytes_eq, String.toList_append, Utf8.encode_append]

theorem bytes_inj {s t : String} : bytes s = bytes t ↔ s = t := by
  unfold bytes
  rw [Array.toList_inj, ← ByteArray.ext_iff, String.toUTF8_eq_toByteArray,
    String.toUTF8_eq_toByteArray, String.toByteArray_inj]

theorem code_mem_bytes {c : Char} (hc : Utf8.Ascii c) {s : String} :
    Utf8.code c ∈ bytes s ↔ c ∈ s.toList := by
  rw [bytes_eq]
  exact Utf8.code_mem hc

theorem splitOn_bytes {c : Char} (hc : Utf8.Ascii c) (s : String) :
    (bytes s).splitOn (Utf8.code c) = (Strings.split s c).map bytes := by
  have hparts : ∀ part : List Char, bytes (String.ofList part) = Utf8.encode part := by
    intro part
    rw [bytes_eq, String.toList_ofList]
  unfold Strings.split
  rw [bytes_eq, Utf8.splitOn_encode hc, List.map_map]
  exact List.map_congr_left fun part _ => (hparts part).symm

inductive MessageType where
  | text
  | binary
  deriving DecidableEq, Repr

structure WebsocketHostMessage where
  host : String
  message : Bytes
  deriving DecidableEq, Repr

/-- Bytes as they are, or the JSON document of a host message, which is never
one of the words the session compares with. -/
inductive Payload where
  | raw (b : Bytes)
  | document (m : WebsocketHostMessage)
  deriving DecidableEq, Repr

structure WebsocketMessage where
  type : MessageType
  message : Payload
  deriving DecidableEq, Repr

end TSymbiote.Shared
