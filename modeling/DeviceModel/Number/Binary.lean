namespace DeviceModel.Number

/-- A width: bits of the mantissa, bits of the exponent field, and the exponent of the smallest
step. -/
structure Width where
  precision : Nat
  fieldBits : Nat
  minExp : Int

namespace Width

def single : Width := ⟨24, 8, -149⟩

def double : Width := ⟨53, 11, -1074⟩

/-- Exponent of the step between the largest finite numbers. -/
def maxExp (w : Width) : Int := w.minExp + (Nat.pow 2 w.fieldBits - 3)

end Width

inductive Binary where
  | nan
  | infinity (negative : Bool)
  | finite (negative : Bool) (mantissa : Nat) (exponent : Int)
  deriving DecidableEq, Repr

/-- `num / den` to the nearest natural, a half to the even one. -/
def divRound (num den : Nat) : Nat :=
  let q := num / den
  let r := num % den
  if 2 * r > den || (2 * r == den && q % 2 == 1) then q + 1 else q

/-- `num / (den * 2 ^ e)` as a numerator and a denominator. -/
def scaleDown (num den : Nat) (e : Int) : Nat × Nat :=
  (num * Nat.pow 2 (-e).toNat, den * Nat.pow 2 e.toNat)

namespace Width

/-- The number of the width nearest to `num / den`; beyond the largest finite number it is
infinite. -/
def round (w : Width) (negative : Bool) (num den : Nat) : Binary :=
  if num = 0 then .finite negative 0 w.minExp else
  let guess := (num.log2 : Int) - den.log2 - w.precision
  let (n₀, d₀) := scaleDown num den guess
  let fit := if n₀ / d₀ ≥ Nat.pow 2 w.precision then guess + 1 else guess
  let exponent := max fit w.minExp
  let (n, d) := scaleDown num den exponent
  let mantissa := divRound n d
  let (mantissa, exponent) :=
    if mantissa = Nat.pow 2 w.precision then (Nat.pow 2 (w.precision - 1), exponent + 1)
    else (mantissa, exponent)
  if exponent > w.maxExp then .infinity negative else .finite negative mantissa exponent

def encode (w : Width) (b : Binary) : Nat :=
  let unit := Nat.pow 2 (w.precision - 1)
  let top := (Nat.pow 2 w.fieldBits - 1) * unit
  let sign (negative : Bool) := if negative then Nat.pow 2 w.fieldBits * unit else 0
  match b with
  | .nan => top + unit / 2
  | .infinity negative => sign negative + top
  | .finite negative mantissa exponent =>
    sign negative + (if mantissa < unit then mantissa
      else ((exponent - w.minExp).toNat + 1) * unit + (mantissa - unit))

def decode (w : Width) (bits : Nat) : Binary :=
  let unit := Nat.pow 2 (w.precision - 1)
  let negative := bits / (Nat.pow 2 w.fieldBits * unit) % 2 == 1
  let field := bits / unit % Nat.pow 2 w.fieldBits
  let fraction := bits % unit
  if field = Nat.pow 2 w.fieldBits - 1 then
    if fraction = 0 then .infinity negative else .nan
  else if field = 0 then .finite negative fraction w.minExp
  else .finite negative (unit + fraction) (w.minExp + (field - 1 : Nat))

end Width

/-- A number of 32 bits. -/
structure Single where
  bits : UInt32
  deriving DecidableEq, Repr

/-- A number of 64 bits. -/
structure Double where
  bits : UInt64
  deriving DecidableEq, Repr

namespace Binary

def toSingle (b : Binary) : Single := ⟨(Width.single.encode b).toUInt32⟩

def toDouble (b : Binary) : Double := ⟨(Width.double.encode b).toUInt64⟩

/-- The value in the width, rounded once. -/
def fit (w : Width) : Binary → Binary
  | .finite negative mantissa exponent =>
    w.round negative (mantissa * Nat.pow 2 exponent.toNat) (Nat.pow 2 (-exponent).toNat)
  | other => other

end Binary

namespace Double

def value (x : Double) : Binary := Width.double.decode x.bits.toNat

/-- The double nearest to an integer. -/
def ofInt (i : Int) : Double := (Width.double.round (i < 0) i.natAbs 1).toDouble

def toSingle (x : Double) : Single := (x.value.fit .single).toSingle

/-- Numerator and denominator of the magnitude of a finite double. -/
def ratio? (x : Double) : Option (Nat × Nat) :=
  match x.value with
  | .finite _ mantissa exponent =>
    some (mantissa * Nat.pow 2 exponent.toNat, Nat.pow 2 (-exponent).toNat)
  | _ => none

def isNegative (x : Double) : Bool := x.bits.toNat ≥ Nat.pow 2 63

end Double

namespace Single

def value (x : Single) : Binary := Width.single.decode x.bits.toNat

def zero : Single := ⟨0⟩

def one : Single := ⟨0x3f800000⟩

/-- The single nearest to an integer. -/
def ofInt (i : Int) : Single := (Width.single.round (i < 0) i.natAbs 1).toSingle

def magnitude (x : Single) : Nat := x.bits.toNat % Nat.pow 2 31

def isNaN (x : Single) : Bool := x.magnitude > 0x7f800000

/-- Place on the number line; the two zeros share theirs. -/
def rank (x : Single) : Int := if x.bits.toNat ≥ Nat.pow 2 31 then -x.magnitude else x.magnitude

/-- Order of the values. Nothing compares with NaN. -/
def lt (x y : Single) : Bool := !x.isNaN && !y.isNaN && x.rank < y.rank

end Single

end DeviceModel.Number
