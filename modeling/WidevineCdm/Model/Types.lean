import WidevineCdm.Lib.Bytes
import WidevineCdm.Lib.Effect

/-!
# Common types (`types.h`) and exceptions

The library throws `std::runtime_error`; the standard library throws the
other exceptions. An element access outside its vector, an iterator range that
is not one of its vector and an `int` sum that overflows have no defined
outcome in C++; the model ends such a run in `Exn.outOfBounds`, so "no byte
outside the buffer is read" is the statement that `outOfBounds` is never the
outcome. What libcrypto reads through the raw pointers it is given is not part
of that statement, and the library's own containers never run out of memory.

Vectors of bytes are `Bytes`. A `size_t` that becomes an `int` is taken modulo
`2 ^ 32` (`Int32.ofNat`) where libcrypto's cipher is given a length; the parse
calls of the generated protobuf classes are modelled with their conversion.
-/

namespace WidevineCdm

open Lib

/-- What a call can end in other than a return. -/
inductive Exn where
  | runtimeError (what : String)
  /-- An exception of the standard library, by its `what()`. -/
  | stdException (what : String)
  /-- An access or a range outside a vector, or an overflow. -/
  | outOfBounds
deriving DecidableEq, Repr

/-- `e.what()` of what a `catch (const std::exception& e)` block catches. -/
def Exn.what : Exn → Option String
  | .runtimeError what => some what
  | .stdException what => some what
  | .outOfBounds => none

/-- `throw std::runtime_error(prefix + e.what())` in such a block. -/
def Exn.rethrow (context : String) (e : Exn) : Exn :=
  match e.what with
  | some what => .runtimeError (context ++ what)
  | none => e

/-- `enum class DeviceType` (types.h:10–13). -/
inductive DeviceType where
  | CHROME
  | ANDROID
deriving DecidableEq, Repr

/-- `enum class LicenseType` (types.h:18–22). -/
inductive LicenseType where
  | STREAMING
  | OFFLINE
  | AUTOMATIC
deriving DecidableEq, Repr

section Access

variable {m : Type → Type} [Monad m] [MonadExceptOf Exn m]

/-- `data[i]`. -/
def element (data : Bytes) (i : Nat) : m UInt8 :=
  match readAt data i with
  | some b => pure b
  | none => throw .outOfBounds

/-- The vector built from the iterators `begin() + first` and `begin() + last`. -/
def slice (data : Bytes) (first last : Nat) : m Bytes :=
  match range data first last with
  | some b => pure b
  | none => throw .outOfBounds

theorem element_append (pre rest : Bytes) (b : UInt8) :
    (element (pre ++ b :: rest) pre.length : m UInt8) = pure b := by
  rw [element, readAt_append]

theorem slice_append (pre x rest : Bytes) :
    (slice (pre ++ (x ++ rest)) pre.length (pre.length + x.length) : m Bytes) = pure x := by
  rw [slice, range_append]

/-- The vector built from the `n` bytes that follow, when they are there. -/
theorem slice_take (pre rest : Bytes) {n : Nat} (h : n ≤ rest.length) :
    (slice (pre ++ rest) pre.length (pre.length + n) : m Bytes) = pure (rest.take n) := by
  have hs := slice_append (m := m) pre (rest.take n) (rest.drop n)
  rwa [List.take_append_drop, List.length_take, Nat.min_eq_left h] at hs

end Access

end WidevineCdm
