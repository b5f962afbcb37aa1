import WidevineCdm.Model.Types

/-!
# Base64 decoding (`pssh.cpp`)

`base64_decode` reads its input character by character and keeps its
accumulator `val` and the bit position `valb` in `int`s, here `Int32`: sums and
left shifts wrap around, and `>>` is the arithmetic shift. Neither is masked
or reset between characters.
-/

namespace WidevineCdm

open Lib

/-- `base64_chars` (pssh.cpp:11–12). -/
def base64Chars : Bytes :=
  ascii "ABCDEFGHIJKLMNOPQRSTUVWXYZabcdefghijklmnopqrstuvwxyz0123456789+/"

/-- The table `T` (pssh.cpp:15–16). -/
def base64Table : Vector Int32 256 :=
  base64Chars.zipIdx.foldl (fun T (c, i) => T.set c.toNat (Int32.ofNat i) c.toNat_lt)
    (Vector.replicate 256 (-1))

/-- `T[c]`. -/
def base64Lookup (c : UInt8) : Int32 := base64Table.get c.toFin

/-- The local variables of the loop (pssh.cpp:14, 18). -/
structure Base64Locals where
  result : Bytes
  val : Int32
  valb : Int32
deriving DecidableEq, Repr

/-- The local variables before the loop. -/
def Base64Locals.initial : Base64Locals := { result := [], val := 0, valb := -8 }

/-- The body of the loop for a character of the alphabet (pssh.cpp:21–26). -/
def base64Body (locals : Base64Locals) (c : UInt8) : Base64Locals :=
  let val := (locals.val <<< 6) + base64Lookup c
  let valb := locals.valb + 6
  if valb ≥ 0 then
    { result := locals.result ++ [((val >>> valb) &&& 0xFF).toUInt32.toUInt8], val,
      valb := valb - 8 }
  else
    { locals with val, valb }

/-- `for (unsigned char c : input)` (pssh.cpp:19–27). -/
def base64Loop : Base64Locals → Bytes → Base64Locals
  | locals, [] => locals
  | locals, c :: input =>
    if base64Lookup c = -1 then locals else base64Loop (base64Body locals c) input

/-- `base64_decode` (pssh.cpp:10–29). -/
def base64Decode (input : Bytes) : Bytes := (base64Loop .initial input).result

end WidevineCdm
