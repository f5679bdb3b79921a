import Tabular.Binary64.Shortest

/-!
# JSON numbers

A JSON number is a whole number or a finite double-precision number; the two
are kept apart, as `1` and `1.0` are different texts. A finite number is written
with its shortest digits: with a point among them while its size is moderate,
and otherwise with an exponent.
-/

namespace Tabular.Json

/-- A number of a JSON text. JSON has neither infinities nor NaN. -/
inductive Number where
  /-- A whole number, written without point and exponent. -/
  | integer (value : Int)
  /-- Any other number. -/
  | real (value : Binary64) (finite : value.isFinite = true)
  deriving DecidableEq, Repr

namespace Number

def toBinary64 : Number → Binary64
  | integer i => Binary64.ofInt i
  | real x _ => x

/-- Digits that stand behind "0." read as a number in `[1/10, 1)`, and the power
of ten to scale it with. -/
structure Scientific where
  /-- The digits, the first of which is not zero unless all are. -/
  digits : List Char
  /-- The number of places in front of the point. -/
  point : Int

/-- Takes the closing zeros off the digits of a numeral. -/
def Scientific.ofDecimal (d : Decimal) : Scientific :=
  let digits := Nat.toDigits 10 d.coefficient
  ⟨(digits.reverse.dropWhile (· = '0')).reverse, digits.length + d.exponent⟩

/-- The places in front of the point up to which a number is written without an
exponent. -/
def mostPlaces : Int := 16

/-- The zeros between the point and the first digit up to which a number is
written without an exponent. -/
def mostZeros : Int := 4

/-- The sign and digits of an exponent. -/
def exponentText (e : Int) : List Char :=
  'e' :: (if e < 0 then '-' else '+') :: Nat.toDigits 10 e.natAbs

/-- A positive number: `95.0`, `0.00001` and `1000000000000000.0` are written
positionally, `1e+16` and `1.5e-6` are not. There is always a digit on either
side of a point. -/
def Scientific.text (s : Scientific) : List Char :=
  if 0 < s.point ∧ s.point ≤ mostPlaces then
    let whole := s.digits.take s.point.toNat
    let fraction := s.digits.drop s.point.toNat
    (whole ++ List.replicate (s.point.toNat - whole.length) '0') ++ '.' ::
      (if fraction.isEmpty then ['0'] else fraction)
  else if -mostZeros ≤ s.point ∧ s.point ≤ 0 then
    '0' :: '.' :: (List.replicate (-s.point).toNat '0' ++ s.digits)
  else
    s.digits.take 1 ++ ((if s.digits.length ≤ 1 then [] else '.' :: s.digits.drop 1) ++
      exponentText (s.point - 1))

def magnitudeText (m : Nat) : List Char :=
  if m = 0 then ['0', '.', '0']
  else (Scientific.ofDecimal (Binary64.shortest m)).text

def intText (i : Int) : List Char :=
  if i < 0 then '-' :: Nat.toDigits 10 i.natAbs else Nat.toDigits 10 i.natAbs

def text : Number → List Char
  | integer i => intText i
  | real x _ => if x.negative then '-' :: magnitudeText x.magnitude else magnitudeText x.magnitude

end Number

end Tabular.Json
