import Mathlib.Algebra.Group.Int.Defs
import Mathlib.Algebra.Group.Nat.Defs
import Mathlib.Data.List.Basic

/-!
# Numbers in configuration values: `sscanf` with `%x` and `%d`, `atoi`

The three conversions share their first steps: blanks are skipped, a sign is taken, the longest
run of digits of the base is read (`scanNumeral`). They differ in what they do with the result:
`%d` and `atoi` go through `strtol`, `%x` through `strtoul`; both saturate at 64 bits and the value
is then stored in a 32-bit `int`. A text without a digit is a matching failure for `sscanf`, which
leaves the destination alone, and `0` for `atoi`. Text after the digits is ignored by all three.

For `%x` a `0x` without digits behind it is a matching failure, as ISO C has it: the input item is
then only a prefix of a matching sequence. There glibc stores `0`.
-/

set_option autoImplicit false

namespace SmartHome.Device

/-- `isspace` in the C locale. Source: none: infrastructure. Kind: D -/
def isSpace (c : Char) : Bool := c = ' ' || (9 ≤ c.toNat && c.toNat ≤ 13)

/-- The value of a digit in the given base. Source: none: infrastructure. Kind: D -/
def digitValue (base : ℕ) (c : Char) : Option ℕ :=
  let n := c.toNat
  let v := if 48 ≤ n ∧ n ≤ 57 then n - 48
    else if 97 ≤ n ∧ n ≤ 102 then n - 87
    else if 65 ≤ n ∧ n ≤ 70 then n - 55
    else base
  if v < base then some v else none

/-- The leading digits of a text. Source: none: infrastructure. Kind: D -/
def leadingDigits (base : ℕ) : List Char → List ℕ
  | [] => []
  | c :: cs => match digitValue base c with
    | some v => v :: leadingDigits base cs
    | none => []

/-- Blanks, then an optional sign: whether the sign is `-`, and what follows it.
Source: none: infrastructure. Kind: D -/
def skipSign (value : String) : Bool × List Char :=
  match value.toList.dropWhile isSpace with
  | '-' :: cs => (true, cs)
  | '+' :: cs => (false, cs)
  | cs => (false, cs)

/-- The optional `0x` or `0X` of a base-16 text. Source: none: infrastructure. Kind: D -/
def skipHexPrefix : List Char → List Char
  | '0' :: 'x' :: cs => cs
  | '0' :: 'X' :: cs => cs
  | cs => cs

/-- The number the leading digits spell, or `none` if there is no digit.
Source: none: infrastructure. Kind: D -/
def scanNumeral (base : ℕ) (cs : List Char) : Option ℕ :=
  match leadingDigits base cs with
  | [] => none
  | ds => some (ds.foldl (fun n d => n * base + d) 0)

/-- Storing a 64-bit value in an `int`. Source: none: infrastructure. Kind: D -/
def toInt32 (n : ℤ) : ℤ := n.bmod (2 ^ 32)

/-- `strtol` in base 10, saturated to a `long`. Source: none: infrastructure. Kind: D -/
def strtol (value : String) : Option ℤ :=
  let (negative, cs) := skipSign value
  (scanNumeral 10 cs).map fun n =>
    if negative then max (-n) (-2 ^ 63) else min n (2 ^ 63 - 1)

/-- What `%x` reads: `strtoul` in base 16, saturated to an `unsigned long`, its `0x` allowed; `none` for
a `0x` without digits, the matching failure of ISO C.
Source: none: infrastructure. Kind: D -/
def strtoulHex (value : String) : Option ℤ :=
  let (negative, cs) := skipSign value
  (scanNumeral 16 (skipHexPrefix cs)).map fun n =>
    if 2 ^ 64 ≤ n then 2 ^ 64 - 1 else if negative then -n else n

/-- `sscanf(value, "%d", &dst)`: the value stored, if one is.
Source: `receive_interface.c` `gdevice_ini_handler`
Kind: D -/
def sscanfD (value : String) : Option ℤ := (strtol value).map toInt32

/-- `sscanf(value, "%x", &dst)`: the value stored, if one is; after `0x` alone none is.
Source: `receive_interface.c` `gdevice_ini_handler`
Kind: D -/
def sscanfX (value : String) : Option ℤ := (strtoulHex value).map toInt32

/-- `atoi(value)`.
Source: `receive_interface.c` `gdevice_ini_handler`
Kind: D -/
def atoi (value : String) : ℤ := toInt32 ((strtol value).getD 0)

end SmartHome.Device
