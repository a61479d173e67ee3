import DeviceModel.Number.Binary

namespace DeviceModel.Number

/-- `digits * 10 ^ exponent`. -/
structure Decimal where
  digits : Nat
  exponent : Int
  deriving DecidableEq, Repr

/-- Which neighbour wins when a number lies halfway between two. -/
inductive Tie where
  | up
  | even
  deriving DecidableEq

namespace Shortest

/-- Largest `e` with `10 ^ e ≤ num / den`, found from a guess that is at most two too large. -/
def descend (num den : Nat) : Nat → Int → Int
  | 0, e => e
  | n + 1, e =>
    if Nat.pow 10 e.toNat * den ≤ num * Nat.pow 10 (-e).toNat then e else descend num den n (e - 1)

def leadingExponent (num den : Nat) : Int :=
  let log : Int := (num.log2 : Int) - den.log2 + 1
  descend num den 4 (log * 30103 / 100000 + 1)

def strip : Nat → Nat → Int → Decimal
  | 0, digits, exponent => ⟨digits, exponent⟩
  | n + 1, digits, exponent =>
    if digits % 10 = 0 then strip n (digits / 10) (exponent + 1) else ⟨digits, exponent⟩

/-- What is tried on one grid. All lengths are in quarters of the last mantissa step. -/
structure Grid where
  value : Nat
  below : Nat
  above : Nat
  step : Nat
  closed : Bool

/-- The neighbour of the value on the grid that lies in its interval, the nearer one if both do. -/
def Grid.hit (g : Grid) (tie : Tie) : Option Nat :=
  let q := g.value / g.step
  let r := g.value % g.step
  let low : Bool := if g.closed then r ≤ g.below else r < g.below
  let high : Bool := if g.closed then g.step - r ≤ g.above else g.step - r < g.above
  let upper : Bool := match tie with
    | .up => decide (2 * r ≥ g.step)
    | .even => decide (2 * r > g.step) || (2 * r == g.step && q % 2 == 1)
  if low && high then some (if upper then q + 1 else q)
  else if low then some q
  else if high then some (q + 1)
  else none

/-- Tries grids of `count` digits and more, at most `n` of them. -/
def search (mantissa : Nat) (exponent : Int) (narrow : Bool) (lead : Int) (tie : Tie) :
    Nat → Nat → Option Decimal
  | 0, _ => none
  | n + 1, count =>
    let k := lead - count + 1
    let unit := Nat.pow 2 (exponent - 2).toNat * Nat.pow 10 (-k).toNat
    let grid : Grid :=
      ⟨4 * mantissa * unit, (if narrow then 1 else 2) * unit, 2 * unit,
        Nat.pow 10 k.toNat * Nat.pow 2 (2 - exponent).toNat, mantissa % 2 == 0⟩
    match grid.hit tie with
    | some digits => some (strip 20 digits k)
    | none => search mantissa exponent narrow lead tie n (count + 1)

end Shortest

/-- Digits of `mantissa * 2 ^ exponent`, a positive number of the width. -/
def shortest (w : Width) (tie : Tie) (mantissa : Nat) (exponent : Int) : Decimal :=
  let lead :=
    Shortest.leadingExponent (mantissa * Nat.pow 2 exponent.toNat) (Nat.pow 2 (-exponent).toNat)
  let narrow := mantissa == Nat.pow 2 (w.precision - 1) && exponent > w.minExp
  (Shortest.search mantissa exponent narrow lead tie 17 1).getD ⟨0, 0⟩

end DeviceModel.Number
