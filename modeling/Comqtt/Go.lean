import Mathlib.Algebra.Group.Int

/-! # The Go library pieces the modelled code calls

Conversions between Go's integer types, `strconv.Itoa`, `strconv.Atoi` and
`net.JoinHostPort`, each as the Go standard library defines it. A Go `int` is an
`Int` (the platform's `int` is 64 bits wide); a conversion to a narrower unsigned
type keeps the low bits, so it is a reduction modulo a power of two.
-/

namespace Comqtt.Go

/-- `uint32(i)` for a Go `int`: the low 32 bits. -/
def uint32OfInt (i : Int) : UInt32 := UInt32.ofNat (i % 2 ^ 32).toNat

/-- `int(u)` for a Go `uint32`: zero extension. -/
def intOfUint32 (u : UInt32) : Int := u.toNat

/-- `byte(i)` for a Go `int`: the low 8 bits. -/
def byteOfInt (i : Int) : UInt8 := UInt8.ofNat (i % 2 ^ 8).toNat

/-- `strconv.Itoa`: the decimal digits, after a minus sign when negative. -/
def itoa (i : Int) : String := toString i

/-- `net.JoinHostPort`. A host that contains a colon is taken for an IPv6
literal and put in brackets. -/
def joinHostPort (host port : String) : String :=
  if host.contains ':' then "[" ++ host ++ "]:" ++ port else host ++ ":" ++ port

/-- The value of a nonempty run of decimal digits. -/
def decimal (digits : List Char) : Option Nat :=
  if !digits.isEmpty && digits.all Char.isDigit then
    some (digits.foldl (fun n d => 10 * n + (d.toNat - '0'.toNat)) 0)
  else none

/-- `strconv.Atoi` for a 64-bit `int`: an optional sign and one or more decimal
digits (base 10 admits no underscores), whose value must fit an `int`; anything
else is an error. Go's fast path for short inputs and its `ParseInt` path agree
on every input, so one definition covers both. -/
def atoi (s : String) : Option Int :=
  let (negative, digits) : Bool × List Char :=
    match s.toList with
    | '-' :: rest => (true, rest)
    | '+' :: rest => (false, rest)
    | rest => (false, rest)
  match decimal digits with
  | none => none
  | some n =>
      let value : Int := if negative then -n else n
      if -2 ^ 63 ≤ value ∧ value < 2 ^ 63 then some value else none

/-- A `uint8` widened to `uint32` and narrowed back is unchanged. -/
@[simp] theorem toUInt8_toUInt32 (x : UInt8) : x.toUInt32.toUInt8 = x := by
  apply UInt8.toNat.inj
  simp [UInt32.toUInt8, UInt8.toUInt32, Nat.toUInt8, UInt8.ofNat, UInt32.toNat,
    UInt8.toNat, Fin.ofNat]

/-- An `int` in the range of `uint32` survives `int(uint32(i))`. -/
theorem intOfUint32_uint32OfInt {i : Int} (lower : 0 ≤ i) (upper : i < 2 ^ 32) :
    intOfUint32 (uint32OfInt i) = i := by
  rw [uint32OfInt, Int.emod_eq_of_lt lower upper]
  simp only [intOfUint32, UInt32.ofNat, UInt32.toNat]
  simp
  omega

/-- An `int` in the range of `byte` survives `byte(i)`. -/
theorem byteOfInt_of_lt {i : Int} (lower : 0 ≤ i) (upper : i < 256) :
    byteOfInt i = UInt8.ofNat i.toNat := by
  rw [byteOfInt, Int.emod_eq_of_lt lower (by simpa using upper)]

end Comqtt.Go
