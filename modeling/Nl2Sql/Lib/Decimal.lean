import Mathlib.Data.Nat.Log
import Mathlib.Algebra.Order.Field.Rat
import Nl2Sql.Lib.Str

/-!
# Decimal arithmetic

Finite decimals and the operations of the General Decimal Arithmetic Specification as Python's `decimal` module has them: a
number is a sign, a coefficient and an exponent, an operation computes its exact result and then fits it into the context
(`fix`), and a signal that the context traps is raised. Only the traps of Python's default context are set: an invalid
operation, a division by zero and an overflow raise; a result that is rounded or subnormal does not.

Infinities and NaNs are not values of this type: the code that uses it admits finite numbers alone.
-/

namespace Py

/-- A finite decimal: `(-1) ^ sign * coeff * 10 ^ exp`. The sign of a zero is kept. -/
structure Decimal where
  sign : Bool
  coeff : Nat
  exp : Int
  deriving DecidableEq, Repr

/-- A context: the precision and the range of the adjusted exponent. Its rounding mode is half-even. -/
structure DecimalContext where
  prec : Nat
  emin : Int
  emax : Int
  prec_pos : 1 ≤ prec
  emin_le : emin ≤ 0
  emax_ge : 0 ≤ emax
  deriving DecidableEq

/-- The signals that raise. -/
inductive DecimalSignal where
  | invalidOperation | divisionByZero | overflow
  deriving DecidableEq, Repr

/-- The rounding modes. -/
inductive Rounding where
  | halfUp | halfEven | halfDown | floor | ceiling
  deriving DecidableEq, Repr

namespace DecimalContext

/-- The least exponent of a subnormal number. -/
def etiny (c : DecimalContext) : Int := c.emin - c.prec + 1

/-- The greatest exponent of a number with a full coefficient. -/
def etop (c : DecimalContext) : Int := c.emax - c.prec + 1

end DecimalContext

namespace Decimal

/-- How many decimal digits a coefficient has; zero has one. -/
def numDigits (n : Nat) : Nat := Nat.log 10 n + 1

/-- The coefficient with its sign. -/
def signed (d : Decimal) : Int := if d.sign then -(d.coeff : Int) else d.coeff

/-- The number a decimal stands for. -/
def toRat (d : Decimal) : ℚ := (d.signed : ℚ) * (10 : ℚ) ^ d.exp

/-- The exponent of the leading digit. -/
def adjusted (d : Decimal) : Int := d.exp + numDigits d.coeff - 1

/-- `Decimal(n)` of an integer: exact, whatever the context. -/
def ofInt (n : Int) : Decimal := ⟨decide (n < 0), n.natAbs, 0⟩

/-- `-d`, with no rounding (`copy_negate`). -/
def neg (d : Decimal) : Decimal := { d with sign := !d.sign }

/-- The coefficient of `n / 10 ^ k` rounded to an integer; `negative` is the sign of the number it belongs to. -/
def roundCoeff (mode : Rounding) (negative : Bool) (n k : Nat) : Nat :=
  let q := n / 10 ^ k
  let r := n % 10 ^ k
  let up : Bool :=
    match mode with
    | .halfUp => decide (10 ^ k ≤ 2 * r)
    | .halfEven => decide (10 ^ k < 2 * r ∨ (10 ^ k = 2 * r ∧ q % 2 = 1))
    | .halfDown => decide (10 ^ k < 2 * r)
    | .floor => negative && decide (0 < r)
    | .ceiling => !negative && decide (0 < r)
  if up then q + 1 else q

/-- Fit an exact result into the context: clamp the exponent of a zero, round a coefficient that is too long or an exponent that
is too small, raise an overflow. -/
def fix (c : DecimalContext) (d : Decimal) : Except DecimalSignal Decimal :=
  if d.coeff = 0 then
    .ok { d with exp := min (max d.exp c.etiny) c.emax }
  else
    let expMin : Int := numDigits d.coeff + d.exp - c.prec
    if c.etop < expMin then
      .error .overflow
    else
      let expMin := max expMin c.etiny
      if d.exp < expMin then
        let q := roundCoeff .halfEven d.sign d.coeff (expMin - d.exp).toNat
        if c.prec < numDigits q then
          if c.etop < expMin + 1 then .error .overflow else .ok ⟨d.sign, q / 10, expMin + 1⟩
        else
          .ok ⟨d.sign, q, expMin⟩
      else
        .ok d

/-- The signed coefficient at an exponent that is at most the number's own. -/
def scaled (d : Decimal) (e : Int) : Int := d.signed * 10 ^ (d.exp - e).toNat

/-- `a + b`: exact at the smaller exponent, then fitted. A zero result is negative only when both operands are negative zeros. -/
def add (c : DecimalContext) (a b : Decimal) : Except DecimalSignal Decimal :=
  let e := min a.exp b.exp
  if a.coeff = 0 ∧ b.coeff = 0 then
    fix c ⟨a.sign && b.sign, 0, e⟩
  else
    let n := a.scaled e + b.scaled e
    fix c ⟨decide (n < 0), n.natAbs, e⟩

/-- `a - b`. -/
def sub (c : DecimalContext) (a b : Decimal) : Except DecimalSignal Decimal := add c a b.neg

/-- `a * b`. -/
def mul (c : DecimalContext) (a b : Decimal) : Except DecimalSignal Decimal :=
  fix c ⟨xor a.sign b.sign, a.coeff * b.coeff, a.exp + b.exp⟩

/-- Drop at most `k` trailing zeros of a coefficient; gives the coefficient and how many were dropped. -/
def stripZeros : Nat → Nat → Nat × Nat
  | 0, q => (q, 0)
  | k + 1, q =>
    if q % 10 = 0 then
      let (q', n) := stripZeros k (q / 10)
      (q', n + 1)
    else
      (q, 0)

/-- `a / b`: the quotient to one digit more than the precision. An exact quotient is brought towards the difference of the
exponents; an inexact one keeps a sticky last digit, so that fitting it rounds once. -/
def div (c : DecimalContext) (a b : Decimal) : Except DecimalSignal Decimal :=
  let sign := xor a.sign b.sign
  let ideal := a.exp - b.exp
  if b.coeff = 0 then
    if a.coeff = 0 then .error .invalidOperation else .error .divisionByZero
  else if a.coeff = 0 then
    fix c ⟨sign, 0, ideal⟩
  else
    let shift : Int := (numDigits b.coeff : Int) - numDigits a.coeff + c.prec + 1
    let num := a.coeff * 10 ^ shift.toNat
    let den := b.coeff * 10 ^ (-shift).toNat
    let q := num / den
    if num % den = 0 then
      let (q', n) := stripZeros shift.toNat q
      fix c ⟨sign, q', ideal - shift + n⟩
    else
      fix c ⟨sign, if q % 5 = 0 then q + 1 else q, ideal - shift⟩

/-- The number at the exponent `e`, rounded where digits are lost. -/
def rescale (mode : Rounding) (d : Decimal) (e : Int) : Decimal :=
  if d.coeff = 0 then
    ⟨d.sign, 0, e⟩
  else if e ≤ d.exp then
    ⟨d.sign, d.coeff * 10 ^ (d.exp - e).toNat, e⟩
  else
    ⟨d.sign, roundCoeff mode d.sign d.coeff (e - d.exp).toNat, e⟩

/-- `d.quantize(10 ** e, rounding=mode)`: an invalid operation where the result needs more digits than the precision. -/
def quantize (c : DecimalContext) (mode : Rounding) (d : Decimal) (e : Int) : Except DecimalSignal Decimal :=
  if e < c.etiny ∨ c.emax < e then
    .error .invalidOperation
  else if d.coeff = 0 then
    fix c ⟨d.sign, 0, e⟩
  else if c.emax < d.adjusted ∨ (c.prec : Int) < d.adjusted - e + 1 then
    .error .invalidOperation
  else
    let r := rescale mode d e
    if c.emax < r.adjusted ∨ c.prec < numDigits r.coeff then .error .invalidOperation else fix c r

/-- `a < b`: comparisons are exact, whatever the context. -/
def lt (a b : Decimal) : Bool :=
  let e := min a.exp b.exp
  decide (a.scaled e < b.scaled e)

/-- `a <= b`. -/
def le (a b : Decimal) : Bool :=
  let e := min a.exp b.exp
  decide (a.scaled e ≤ b.scaled e)

/-- `d == 0`. -/
def isZero (d : Decimal) : Bool := d.coeff == 0

/-- `d.normalize()`: fitted into the context, with no trailing zeros; a zero has the exponent zero. -/
def normalize (c : DecimalContext) (d : Decimal) : Except DecimalSignal Decimal := do
  let r ← fix c d
  if r.coeff = 0 then
    pure ⟨r.sign, 0, 0⟩
  else
    let (q, n) := stripZeros (min (numDigits r.coeff) (c.emax - r.exp).toNat) r.coeff
    pure ⟨r.sign, q, r.exp + n⟩

/-! ## Text -/

/-- The code points of the zeros of the decimal digits (Unicode category Nd): each block holds the ten digits in order. -/
def digitZeros : List Nat :=
  [0x30, 0x660, 0x6F0, 0x7C0, 0x966, 0x9E6, 0xA66, 0xAE6, 0xB66, 0xBE6, 0xC66, 0xCE6, 0xD66, 0xDE6, 0xE50, 0xED0, 0xF20,
    0x1040, 0x1090, 0x17E0, 0x1810, 0x1946, 0x19D0, 0x1A80, 0x1A90, 0x1B50, 0x1BB0, 0x1C40, 0x1C50, 0xA620, 0xA8D0, 0xA900,
    0xA9D0, 0xA9F0, 0xAA50, 0xABF0, 0xFF10, 0x104A0, 0x10D30, 0x11066, 0x110F0, 0x11136, 0x111D0, 0x112F0, 0x11450, 0x114D0,
    0x11650, 0x116C0, 0x11730, 0x118E0, 0x11950, 0x11C50, 0x11D50, 0x11DA0, 0x11F50, 0x16A60, 0x16AC0, 0x16B50, 0x1D7CE,
    0x1D7D8, 0x1D7E2, 0x1D7EC, 0x1D7F6, 0x1E140, 0x1E2F0, 0x1E4F0, 0x1E950, 0x1FBF0]

/-- The value of a decimal digit. -/
def digitValue (ch : Char) : Option Nat :=
  (digitZeros.find? fun z => decide (z ≤ ch.toNat ∧ ch.toNat < z + 10)).map (ch.toNat - ·)

/-- The decimal digits at the front of a text and what follows them. -/
def takeDigits : List Char → List Nat × List Char
  | [] => ([], [])
  | ch :: rest =>
    match digitValue ch with
    | none => ([], ch :: rest)
    | some v =>
      let (ds, tail) := takeDigits rest
      (v :: ds, tail)

/-- The number a list of digits spells. -/
def digitsToNat (ds : List Nat) : Nat := ds.foldl (fun n d => 10 * n + d) 0

/-- An optional sign at the front of a text; `true` for a minus. -/
def takeSign : List Char → Bool × List Char
  | '+' :: rest => (false, rest)
  | '-' :: rest => (true, rest)
  | cs => (false, cs)

/-- The exponent part of a numeric string, which must end the text. -/
def exponentPart : List Char → Option Int
  | [] => some 0
  | ch :: rest =>
    if ch = 'e' ∨ ch = 'E' then
      let (negative, cs) := takeSign rest
      match takeDigits cs with
      | ([], _) => none
      | (ds, []) => some (if negative then -(digitsToNat ds : Int) else digitsToNat ds)
      | (_, _ :: _) => none
    else
      none

/-- The exponents a decimal can be built with: the widest context the module offers. -/
def constructible (d : Decimal) : Bool :=
  decide (-1999999999999999997 ≤ d.exp ∧ (if d.coeff = 0 then d.exp else d.adjusted) ≤ 999999999999999999)

/-- `Decimal(text)`, where it is a finite number: an optional sign, digits with an optional point, an optional exponent;
underscores are dropped. None where the constructor raises and where it gives an infinity or a NaN. -/
def ofString? (text : String) : Option Decimal :=
  let (sign, cs) := takeSign ((strip text).toList.filter (· ≠ '_'))
  let (whole, rest) := takeDigits cs
  let (frac, rest) :=
    match rest with
    | '.' :: tail => takeDigits tail
    | tail => ([], tail)
  if whole = [] ∧ frac = [] then
    none
  else
    match exponentPart rest with
    | none => none
    | some e =>
      let d : Decimal := ⟨sign, digitsToNat (whole ++ frac), e - frac.length⟩
      if constructible d then some d else none

/-- `str(d)`: scientific notation where the exponent is positive or the number is small. -/
def toStr (d : Decimal) : String :=
  let digits := (Nat.repr d.coeff).toList
  let left : Int := d.exp + digits.length
  let dot : Int := if d.exp ≤ 0 ∧ -6 < left then left else 1
  let body :=
    if dot ≤ 0 then
      ['0', '.'] ++ List.replicate (-dot).toNat '0' ++ digits
    else if (digits.length : Int) ≤ dot then
      digits ++ List.replicate (dot - digits.length).toNat '0'
    else
      digits.take dot.toNat ++ ['.'] ++ digits.drop dot.toNat
  let exponent :=
    if left = dot then
      []
    else
      'E' :: (if left - dot < 0 then '-' else '+') :: (Nat.repr (left - dot).natAbs).toList
  String.ofList ((if d.sign then ['-'] else []) ++ body ++ exponent)

/-- `format(d, "f")`: all digits, with no exponent. -/
def formatF (d : Decimal) : String :=
  let digits := (Nat.repr d.coeff).toList
  let left : Int := (if d.coeff = 0 then min d.exp 0 else d.exp) + digits.length
  let body :=
    if left ≤ 0 then
      ['0', '.'] ++ List.replicate (-left).toNat '0' ++ digits
    else if (digits.length : Int) ≤ left then
      digits ++ List.replicate (left - digits.length).toNat '0'
    else
      digits.take left.toNat ++ ['.'] ++ digits.drop left.toNat
  String.ofList ((if d.sign then ['-'] else []) ++ body)

end Decimal

/-- The context a thread starts with: 28 digits. -/
def DecimalContext.default : DecimalContext := ⟨28, -999999, 999999, by decide, by decide, by decide⟩

end Py
