/-!
# Double precision numbers

A double is kept as its 64 bits.  Rounding, products and quotients are computed exactly on
natural numbers and rounded once, to the nearest double and on a tie to the even one.
-/

namespace ReplicaClient

structure Double where
  bits : UInt64
  deriving DecidableEq, Repr, Inhabited

namespace Double

/-- The leading bit of a significand, which normal numbers do not store: 2^52. -/
def hiddenBit : Nat := 0x10000000000000

/-- The quotient rounded to the nearest whole number, a tie to the even one. -/
def roundDiv (num den : Nat) : Nat :=
  let q := num / den
  let twice := 2 * (num % den)
  if twice < den then q else if den < twice then q + 1 else q + q % 2

/-- `num / den` in units of `2 ^ e`, rounded. -/
def scaled (num den : Nat) (e : Int) : Nat :=
  if 0 ≤ e then roundDiv num (den * Nat.pow 2 e.toNat) else roundDiv (num * Nat.pow 2 (-e).toNat) den

/-- The exponent of the last place of a double near `num / den`. -/
def lastPlace (num den : Nat) : Int :=
  let e : Int := (num.log2 : Int) - (den.log2 : Int) - 52
  let e := if 0 ≤ e then (if num < den * Nat.pow 2 (e.toNat + 52) then e - 1 else e)
    else (if num * Nat.pow 2 (-e).toNat < den * hiddenBit then e - 1 else e)
  max e (-1074)

/-- The double nearest to `num / den`, not below zero; `none` beyond the largest double. -/
def ofRatio? (num den : Nat) : Option Double :=
  if num = 0 then some ⟨0⟩
  else
    let e := lastPlace num den
    let m := scaled num den e
    let bits := if m < hiddenBit then m else (e + 1074).toNat * hiddenBit + m
    if bits < 2047 * hiddenBit then some ⟨UInt64.ofNat bits⟩ else none

def isNegative (x : Double) : Bool :=
  0x8000000000000000 ≤ x.bits.toNat

def exponentBits (x : Double) : Nat :=
  x.bits.toNat / hiddenBit % 2048

/-- The absolute value is `significand * 2 ^ exponent`. -/
def significand (x : Double) : Nat :=
  let fraction := x.bits.toNat % hiddenBit
  if x.exponentBits = 0 then fraction else fraction + hiddenBit

def exponent (x : Double) : Int :=
  (max x.exponentBits 1 : Nat) - 1075

def num (x : Double) : Nat := x.significand * Nat.pow 2 x.exponent.toNat
def den (x : Double) : Nat := Nat.pow 2 (-x.exponent).toNat

def isZero (x : Double) : Bool :=
  x.significand = 0

def neg (x : Double) : Double :=
  ⟨x.bits ^^^ 0x8000000000000000⟩

def ofNat? (n : Nat) : Option Double :=
  ofRatio? n 1

def mul? (x y : Double) : Option Double :=
  ofRatio? (x.num * y.num) (x.den * y.den)

def div? (x y : Double) : Option Double :=
  ofRatio? (x.num * y.den) (x.den * y.num)

end Double
end ReplicaClient
