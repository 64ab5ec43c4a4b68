/-!
# The shortest decimal of a binary floating-point number

A finite positive double is `m * 2 ^ q`; the reals that round to it form an interval around it, with
its ends included exactly if `m` is even.  Of all decimals `d * 10 ^ e` inside the interval
`Decimal.shortest` takes one with the largest `e`, hence with the fewest digits, and of two such the
one nearer to the number; of two equally near the one with the even last digit.
-/

namespace Tenancy

/-- The positive decimal `digits * 10 ^ exponent`. -/
structure Decimal where
  digits : Nat
  exponent : Int
  deriving DecidableEq

namespace Decimal

/-- A number and the ends of the interval of reals that round to it, all as multiples of
`2 ^ power`. -/
structure Rounding where
  value : Nat
  low : Nat
  high : Nat
  closed : Bool
  power : Int

/-- The rounding interval of the double with the given bits, the sign ignored.  The gap below a
power of two is half of the gap above it. -/
def Rounding.ofBits (bits : UInt64) : Rounding :=
  let fraction := bits.toNat % Nat.pow 2 52
  let biased := bits.toNat / Nat.pow 2 52 % Nat.pow 2 11
  let m := if biased = 0 then fraction else Nat.pow 2 52 + fraction
  let q : Int := if biased = 0 then -1074 else (biased : Int) - 1075
  let below : Nat := if fraction = 0 ∧ 1 < biased then 1 else 2
  { value := 4 * m, low := 4 * m - below, high := 4 * m + 2, closed := m % 2 = 0, power := q - 2 }

/-- The value of `base ^ e` as a fraction. -/
def powerOf (base : Nat) (e : Int) : Nat × Nat :=
  if 0 ≤ e then (Nat.pow base e.toNat, 1) else (1, Nat.pow base (-e).toNat)

/-- The best multiple of `10 ^ e` inside the interval, if there is one. -/
def Rounding.onGrid (r : Rounding) (e : Int) : Option Nat :=
  let (twos, twosDen) := powerOf 2 r.power
  let (tens, tensDen) := powerOf 10 e
  let unit := tens * twosDen
  let value := r.value * twos * tensDen
  let low := r.low * twos * tensDen
  let high := r.high * twos * tensDen
  let inside (k : Nat) : Bool :=
    if r.closed then low ≤ k * unit && k * unit ≤ high else low < k * unit && k * unit < high
  let below := value / unit
  let above := below + 1
  if inside below then
    if inside above then
      let left := value - below * unit
      let right := above * unit - value
      if left < right ∨ (left = right ∧ below % 2 = 0) then some below else some above
    else some below
  else if inside above then some above else none

/-- The first grid, from `10 ^ e` downwards through `fuel` grids, that meets the interval. -/
def Rounding.search (r : Rounding) : Nat → Int → Decimal
  | 0, e => ⟨0, e⟩
  | fuel + 1, e =>
    match r.onGrid e with
    | some digits => ⟨digits, e⟩
    | none => r.search fuel (e - 1)

/-- The shortest decimal that rounds to the positive finite double with the given bits.  The search
starts at a power of ten above the number and ends at the latest when the grid is finer than the
interval, some eighteen places below. -/
def shortest (bits : UInt64) : Decimal :=
  let r := Rounding.ofBits bits
  r.search 40 (((Nat.log2 r.value : Int) + r.power) * 30103 / 100000 + 2)

end Decimal

end Tenancy
