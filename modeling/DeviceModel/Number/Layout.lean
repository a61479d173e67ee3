import DeviceModel.Number.Shortest

namespace DeviceModel.Number

/-- The decisions of one output: which numbers are written without an exponent, and how the rest
looks. -/
structure Layout where
  /-- Powers of ten, of the leading digit, that are written without an exponent. -/
  positional : Int → Bool
  /-- Whole numbers end in a point and a zero. -/
  pointZero : Bool
  /-- A positive exponent has a plus sign. -/
  plus : Bool
  tie : Tie

namespace Layout

def zeros (n : Nat) : String := String.ofList (List.replicate n '0')

/-- `digits` with the point after the digit that stands for ones. -/
def point (l : Layout) (digits : List Char) (lead : Int) : String :=
  if lead < 0 then "0." ++ zeros (-lead - 1).toNat ++ String.ofList digits
  else
    let whole := lead.toNat + 1
    if digits.length ≤ whole then
      String.ofList digits ++ zeros (whole - digits.length) ++ (if l.pointZero then ".0" else "")
    else String.ofList (digits.take whole) ++ "." ++ String.ofList (digits.drop whole)

def scientific (l : Layout) (digits : List Char) (lead : Int) : String :=
  let fraction := if digits.length ≤ 1 then "" else "." ++ String.ofList (digits.drop 1)
  let sign := if l.plus && lead ≥ 0 then "+" else ""
  String.ofList (digits.take 1) ++ fraction ++ "e" ++ sign ++ toString lead

def decimal (l : Layout) (d : Decimal) : String :=
  let digits := Nat.toDigits 10 d.digits
  let lead := d.exponent + digits.length - 1
  if l.positional lead then l.point digits lead else l.scientific digits lead

def text (l : Layout) (w : Width) : Binary → String
  | .nan => "NaN"
  | .infinity negative => if negative then "-inf" else "inf"
  | .finite negative mantissa exponent =>
    let sign := if negative then "-" else ""
    if mantissa = 0 then sign ++ (if l.pointZero then "0.0" else "0")
    else sign ++ l.decimal (shortest w l.tie mantissa exponent)

end Layout

/-- Numbers in messages never have an exponent. -/
def Single.plain (x : Single) : String :=
  (⟨fun _ => true, false, false, .up⟩ : Layout).text .single x.value

end DeviceModel.Number
