import ReplicaClient.Number.Double

/-!
# Shortest decimals

The decimal of a double has the fewest digits that read back as the same double, and among
those it is the nearest.  Its layout, positional or with an exponent, is a separate matter.
-/

namespace ReplicaClient

structure Decimal where
  digits : Nat
  exponent : Int
  deriving DecidableEq, Repr

namespace Decimal

/-- Four times the value and the ends of the interval of numbers that round to it, in units of
`2 ^ (exponent - 2)`.  Below a power of two the neighbour is only half as far away. -/
def quarters (x : Double) : Nat × Nat × Nat :=
  let m := x.significand
  (4 * m - (if m = Double.hiddenBit ∧ -1074 < x.exponent then 1 else 2), 4 * m, 4 * m + 2)

/-- `n * 10 ^ p` in units of `2 ^ q`, as a fraction. -/
def inUnits (n : Nat) (p q : Int) : Nat × Nat :=
  (n * Nat.pow 10 p.toNat * Nat.pow 2 (-q).toNat, Nat.pow 10 (-p).toNat * Nat.pow 2 q.toNat)

/-- `n * 10 ^ p` rounds to `x`. -/
def readsBack (x : Double) (n : Nat) (p : Int) : Bool :=
  let (low, _, high) := quarters x
  let (num, den) := inUnits n p (x.exponent - 2)
  if x.significand % 2 = 0 then low * den ≤ num && num ≤ high * den
  else low * den < num && num < high * den

/-- The whole number of times that `10 ^ p` goes into `x`. -/
def below (x : Double) (p : Int) : Nat :=
  x.num * Nat.pow 10 (-p).toNat / (x.den * Nat.pow 10 p.toNat)

/-- Compares the distances of `x` from `n * 10 ^ p` and from `(n + 1) * 10 ^ p`. -/
def nearer (x : Double) (n : Nat) (p : Int) : Ordering :=
  compare (2 * x.num * Nat.pow 10 (-p).toNat) ((2 * n + 1) * Nat.pow 10 p.toNat * x.den)

/-- The neighbour of `x` on the grid of multiples of `10 ^ p` that reads back, if there is one. -/
def onGrid? (x : Double) (p : Int) : Option Decimal :=
  let n := below x p
  match readsBack x n p, readsBack x (n + 1) p with
  | false, false => none
  | true, false => some ⟨n, p⟩
  | false, true => some ⟨n + 1, p⟩
  | true, true =>
      match nearer x n p with
      | .lt => some ⟨n, p⟩
      | .gt => some ⟨n + 1, p⟩
      | .eq => some ⟨n + n % 2, p⟩

/-- The position of the leading digit of a number that is not zero. -/
def leading (x : Double) : Int :=
  let guess : Int := if x.den = 1 then (Nat.toDigits 10 x.num).length - 1
    else (Nat.toDigits 10 x.num).length - (Nat.toDigits 10 x.den).length
  if below x guess = 0 then guess - 1 else guess

/-- Drops closing zeros; `room` bounds their number. -/
def trim : (room : Nat) → Decimal → Decimal
  | 0, d => d
  | room + 1, d =>
      if d.digits ≠ 0 ∧ d.digits % 10 = 0 then trim room ⟨d.digits / 10, d.exponent + 1⟩ else d

/-- The shortest decimal of the absolute value; seventeen digits always suffice. -/
def ofDouble (x : Double) : Decimal :=
  if x.isZero then ⟨0, 0⟩
  else
    let e := leading x
    let found := (List.range 17).findSome? fun (k : Nat) ↦ onGrid? x (e - k)
    trim 20 (found.getD ⟨below x (e - 17), e - 17⟩)

def digitChars (d : Decimal) : List Char :=
  Nat.toDigits 10 d.digits

def scientific (d : Decimal) : Int :=
  d.exponent + d.digitChars.length - 1

def positional (d : Decimal) : List Char :=
  let ds := d.digitChars
  if 0 ≤ d.exponent then ds ++ List.replicate d.exponent.toNat '0' ++ ['.', '0']
  else
    let decimals := (-d.exponent).toNat
    if decimals < ds.length then
      ds.take (ds.length - decimals) ++ '.' :: ds.drop (ds.length - decimals)
    else '0' :: '.' :: List.replicate (decimals - ds.length) '0' ++ ds

def exponential (d : Decimal) : List Char :=
  let fraction := d.digitChars.drop 1
  let e := d.scientific
  d.digitChars.take 1 ++ (if fraction.isEmpty then [] else '.' :: fraction) ++
    ['e', if e < 0 then '-' else '+'] ++ Nat.toDigits 10 e.natAbs

end Decimal

namespace Double

def sign (x : Double) : List Char :=
  if x.isNegative then ['-'] else []

/-- Positional notation from 10^-5 up to below 10^16, exponential notation outside. -/
def compact (x : Double) : String :=
  let d := Decimal.ofDouble x
  let body := if d.digits = 0 ∨ (-5 ≤ d.scientific ∧ d.scientific < 16) then d.positional
    else d.exponential
  String.ofList (x.sign ++ body)

end Double
end ReplicaClient
