import DeviceModel.Document.Scalar

namespace DeviceModel.Toml

open DeviceModel.Document (digitIn? natIn? dropSign digitValues)
open DeviceModel.Number (Literal Binary)

/-- The digits that go on a row, without underscores, and what follows. -/
def moreDigits? (isDigit : Char → Bool) : List Char → Option (List Char × List Char)
  | [] => some ([], [])
  | '_' :: c :: rest =>
    if isDigit c then (moreDigits? isDigit rest).map fun (digits, rest) => (c :: digits, rest)
    else none
  | c :: rest =>
    if isDigit c then (moreDigits? isDigit rest).map fun (digits, rest) => (c :: digits, rest)
    else if c = '_' then none
    else some ([], c :: rest)

/-- A row of digits. -/
def digits? (isDigit : Char → Bool) : List Char → Option (List Char × List Char)
  | c :: rest => if isDigit c then moreDigits? isDigit (c :: rest) else none
  | [] => none

/-- The digits of a whole part; a zero stands alone. -/
def whole? : List Char → Option (List Char × List Char)
  | '0' :: rest => some (['0'], rest)
  | cs => digits? Char.isDigit cs

def fraction? : List Char → Option (Option (List Char) × List Char)
  | '.' :: rest => (digits? Char.isDigit rest).map fun (digits, rest) => (some digits, rest)
  | cs => some (none, cs)

def exponent? : List Char → Option (Option Int × List Char)
  | c :: rest =>
    if c = 'e' || c = 'E' then do
      let (negative, rest) := dropSign rest
      let (digits, rest) ← digits? Char.isDigit rest
      let n : Int := Literal.natOf (digitValues digits)
      some (some (if negative then -n else n), rest)
    else some (none, c :: rest)
  | [] => some (none, [])

/-- A number in a base other than ten, of at most 63 bits. -/
def based? (base : Nat) (cs : List Char) : Option (List Char) := do
  let (digits, rest) ← digits? (fun c => (digitIn? base c).isSome) cs
  if (← natIn? base digits) < Nat.pow 2 63 then some rest else none

/-- An integer of 64 bits, or a floating number that is not too large. -/
def decimal? (cs : List Char) : Option (List Char) := do
  let (negative, unsigned) := dropSign cs
  let (whole, rest) ← whole? unsigned
  let (fraction, rest) ← fraction? rest
  let (exponent, rest) ← exponent? rest
  let literal : Literal :=
    ⟨negative, digitValues whole, digitValues (fraction.getD []), exponent.getD 0⟩
  if fraction.isNone && exponent.isNone then
    let n := Literal.natOf literal.whole
    if n < Nat.pow 2 63 || (negative && n = Nat.pow 2 63) then some rest else none
  else if literal.nearest = .infinity false then none
  else some rest

def number? (cs : List Char) : Option (List Char) :=
  match cs with
  | '0' :: 'x' :: rest => based? 16 rest
  | '0' :: 'o' :: rest => based? 8 rest
  | '0' :: 'b' :: rest => based? 2 rest
  | _ =>
    match (dropSign cs).2 with
    | 'i' :: 'n' :: 'f' :: rest => some rest
    | 'n' :: 'a' :: 'n' :: rest => some rest
    | _ => decimal? cs

end DeviceModel.Toml
