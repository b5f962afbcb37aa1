import WidevineCdm.Lib.Text
import WidevineCdm.Model.Cdm

/-!
# Keys as text (`key.cpp`)

The hexadecimal forms of a key, and the lines in which the example client
prints the keys it was given.
-/

namespace WidevineCdm

open Lib

/-- `snprintf(hex, sizeof(hex), "%02x", byte)`. -/
def hexOf (byte : UInt8) : String := String.ofList (lowerHex byte)

/-- The loop of `kid_hex` and of `key_hex`: `result += hex` for every byte. -/
def hexString (bytes : Bytes) : String :=
  bytes.foldl (fun result byte => result ++ hexOf byte) ""

/-- `Key::kid_hex` (key.cpp:7–20). -/
def Key.kidHex (key : Key) : String :=
  -- If KID is empty, return all zeros
  if key.kid.isEmpty then "00000000000000000000000000000000" else hexString key.kid

/-- `Key::key_hex` (key.cpp:22–30). -/
def Key.keyHex (key : Key) : String := hexString key.key

/-- The line printed for a key (test_license_server.cpp:116), without its end. -/
def Key.line (key : Key) : String :=
  "[" ++ key.type ++ "] " ++ key.kidHex ++ ":" ++ key.keyHex

/-- The loop that prints the keys (test_license_server.cpp:115–117). -/
def listing (keys : List Key) : String :=
  keys.foldl (fun out key => out ++ key.line ++ "\n") ""

theorem hexString_toList (bytes : Bytes) : (hexString bytes).toList = bytes.flatMap lowerHex := by
  have hloop : ∀ result : String,
      (bytes.foldl (fun result byte => result ++ hexOf byte) result).toList
        = result.toList ++ bytes.flatMap lowerHex := by
    induction bytes with
    | nil => intro result; simp
    | cons byte rest ih =>
      intro result
      rw [List.foldl_cons, ih, String.toList_append, List.flatMap_cons, List.append_assoc, hexOf,
        String.toList_ofList]
  exact hloop ""

theorem listing_toList (keys : List Key) :
    (listing keys).toList = terminated '\n' (keys.map fun key => key.line.toList) := by
  have hloop : ∀ out : String,
      (keys.foldl (fun out key => out ++ key.line ++ "\n") out).toList
        = out.toList ++ terminated '\n' (keys.map fun key => key.line.toList) := by
    induction keys with
    | nil => intro out; simp
    | cons key rest ih =>
      intro out
      rw [List.foldl_cons, ih, List.map_cons, terminated_cons]
      simp [String.toList_append]
  exact hloop ""

end WidevineCdm
