import DeviceModel.Number.Shortest

namespace DeviceModel.Number

/-- The parts of a decimal number. -/
structure Literal where
  negative : Bool
  whole : List Nat
  fraction : List Nat
  exponent : Int

namespace Literal

def natOf (digits : List Nat) : Nat := digits.foldl (fun n d => n * 10 + d) 0

def maxWord : Nat := Nat.pow 2 64 - 1

/-- Digits of the whole part taken into the word, and how many were left out after them. -/
def takeWhole : Nat → List Nat → Nat × Nat
  | n, [] => (n, 0)
  | n, d :: rest =>
    if n * 10 + d > maxWord then (n, (d :: rest).length) else takeWhole (n * 10 + d) rest

/-- Digits of the fraction taken into the word, and how many they are. -/
def takeFraction : Nat → List Nat → Nat × Nat
  | n, [] => (n, 0)
  | n, d :: rest =>
    if n * 10 + d > maxWord then (n, 0)
    else let (m, count) := takeFraction (n * 10 + d) rest; (m, count + 1)

/-- The leading digits that fit in a word, with their power of ten. -/
def word (l : Literal) : Decimal :=
  let (n, skipped) := takeWhole 0 l.whole
  let (n, taken) := takeFraction n l.fraction
  ⟨n, l.exponent + skipped - taken⟩

/-- The number with one rounding. -/
def nearest (l : Literal) : Binary :=
  let n := natOf (l.whole ++ l.fraction)
  let e := l.exponent - l.fraction.length
  let magnitude := (l.whole ++ l.fraction).length + e
  if n = 0 || magnitude < -400 then .finite l.negative 0 Width.double.minExp
  else if magnitude > 400 + (l.whole ++ l.fraction).length then .infinity l.negative
  else Width.double.round l.negative (n * Nat.pow 10 e.toNat) (Nat.pow 10 (-e).toNat)

/-- `x` times or over the double nearest to `10 ^ k`. -/
def scale (x : Binary) (k : Nat) (divide : Bool) : Binary :=
  match x, Width.double.round false (Nat.pow 10 k) 1 with
  | .finite s m e, .finite _ m' e' =>
    let up (e : Int) := Nat.pow 2 e.toNat
    if divide then Width.double.round s (m * up e * up (-e')) (m' * up e' * up (-e))
    else Width.double.round s (m * m' * up (e + e')) (up (-(e + e')))
  | x, _ => x

/-- A word brought to a power of ten far below one, at most 308 places at a time. -/
def lower : Nat → Binary → Nat → Binary
  | 0, x, _ => x
  | n + 1, x, k => if k ≤ 308 then scale x k true else lower n (scale x 308 true) (k - 308)

/-- The number with a rounding at each step. None if it is out of range. -/
def stepwise? (l : Literal) : Option Double :=
  let d := l.word
  let x := Width.double.round l.negative d.digits 1
  if d.digits = 0 then some x.toDouble
  else if d.exponent < 0 then some (lower 4 x (-d.exponent).toNat).toDouble
  else if d.exponent > 308 then none
  else match scale x d.exponent.toNat false with
    | .infinity _ => none
    | y => some y.toDouble

end Literal

end DeviceModel.Number
