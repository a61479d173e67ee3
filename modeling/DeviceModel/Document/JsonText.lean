import DeviceModel.Document.Spot

namespace DeviceModel.Document.JsonText

open Number

def isBlank (c : Char) : Bool := c = ' ' || c = '\n' || c = '\t' || c = '\r'

def skipBlank (cs : List Char) : List Char := cs.dropWhile isBlank

def simpleEscape? : Char → Option Nat
  | '"' => some 0x22
  | '\\' => some 0x5c
  | '/' => some 0x2f
  | 'b' => some 0x08
  | 'f' => some 0x0c
  | 'n' => some 0x0a
  | 'r' => some 0x0d
  | 't' => some 0x09
  | _ => none

/-- The code units of a string up to its closing quote, last one first, and what follows. -/
def units? (done : List Nat) : List Char → Option (List Nat × List Char)
  | [] => none
  | '"' :: rest => some (done, rest)
  | '\\' :: 'u' :: a :: b :: c :: d :: rest =>
    match natIn? 16 [a, b, c, d] with
    | some unit => units? (unit :: done) rest
    | none => none
  | '\\' :: c :: rest =>
    match simpleEscape? c with
    | some unit => units? (unit :: done) rest
    | none => none
  | c :: rest => if c.toNat < 0x20 || c = '\\' then none else units? (c.toNat :: done) rest

def isHigh (unit : Nat) : Bool := 0xd800 ≤ unit && unit < 0xdc00

def isLow (unit : Nat) : Bool := 0xdc00 ≤ unit && unit < 0xe000

/-- Characters from code units; a half that has no other half beside it has no character. -/
def chars? : List Nat → Option (List Char)
  | [] => some []
  | [unit] => if isHigh unit || isLow unit then none else some [Char.ofNat unit]
  | unit :: next :: rest =>
    if isHigh unit then
      if isLow next then
        (chars? rest).map (Char.ofNat (0x10000 + (unit - 0xd800) * 0x400 + (next - 0xdc00)) :: ·)
      else none
    else if isLow unit then none
    else (chars? (next :: rest)).map (Char.ofNat unit :: ·)

/-- A string after its opening quote. -/
def string? (cs : List Char) : Option (Node × List Char) :=
  (units? [] cs).map fun (units, rest) =>
    (match chars? units.reverse with
      | some chars => .text (String.ofList chars)
      | none => .unreadable, rest)

/-- Digits of a whole part: a zero stands alone. -/
def whole? (cs : List Char) : Option (List Char × List Char) :=
  match cs.span Char.isDigit with
  | (['0'], rest) => some (['0'], rest)
  | ('0' :: _, _) => none
  | ([], _) => none
  | found => some found

def fraction? : List Char → Option (Option (List Char) × List Char)
  | '.' :: rest =>
    match rest.span Char.isDigit with
    | ([], _) => none
    | (digits, rest) => some (some digits, rest)
  | cs => some (none, cs)

def exponent? : List Char → Option (Option Int × List Char)
  | c :: rest =>
    if c = 'e' || c = 'E' then
      let (negative, rest) := dropSign rest
      match rest.span Char.isDigit with
      | ([], _) => none
      | (digits, rest) =>
        let n : Int := Literal.natOf (digitValues digits)
        some (some (if negative then -n else n), rest)
    else some (none, c :: rest)
  | [] => some (none, [])

/-- Integers of 64 bits stay integers. Minus zero and larger ones are floating. -/
def numberNode (l : Literal) (integral : Bool) : Node :=
  let n := Literal.natOf l.whole
  if integral && !l.negative && n < Nat.pow 2 64 then .scalar (.atom (.int n))
  else if integral && l.negative && 0 < n && n ≤ Nat.pow 2 63 then .scalar (.atom (.int (-n)))
  else match l.stepwise? with
    | some x => .scalar (.atom (.float x))
    | none => .unreadable

def number? (negative : Bool) (cs : List Char) : Option (Node × List Char) := do
  let (whole, cs) ← whole? cs
  let (fraction, cs) ← fraction? cs
  let (exponent, cs) ← exponent? cs
  let literal : Literal :=
    ⟨negative, digitValues whole, digitValues (fraction.getD []), exponent.getD 0⟩
  some (numberNode literal (fraction.isNone && exponent.isNone), cs)

/-- Anything but a list or a map. -/
def scalar? : List Char → Option (Node × List Char)
  | 'n' :: 'u' :: 'l' :: 'l' :: rest => some (.scalar (.atom .null), rest)
  | 't' :: 'r' :: 'u' :: 'e' :: rest => some (.scalar (.atom (.bool true)), rest)
  | 'f' :: 'a' :: 'l' :: 's' :: 'e' :: rest => some (.scalar (.atom (.bool false)), rest)
  | '"' :: rest => string? rest
  | '-' :: rest => number? true rest
  | cs => number? false cs

mutual

/-- A value and what follows it. The number bounds the values still to come; a text has fewer values
than characters. -/
def value? : Nat → List Char → Option (Node × List Char)
  | 0, _ => none
  | n + 1, cs =>
    match skipBlank cs with
    | '[' :: rest =>
      match skipBlank rest with
      | ']' :: rest => some (.list [], rest)
      | rest => items? n [] rest
    | '{' :: rest =>
      match skipBlank rest with
      | '}' :: rest => some (.map [], rest)
      | rest => entries? n [] rest
    | cs => scalar? cs

/-- The items of a list from one of them on, after those already read. -/
def items? : Nat → List Node → List Char → Option (Node × List Char)
  | 0, _, _ => none
  | n + 1, done, cs =>
    match value? n cs with
    | none => none
    | some (item, rest) =>
      match skipBlank rest with
      | ',' :: rest => items? n (item :: done) rest
      | ']' :: rest => some (.list (item :: done).reverse, rest)
      | _ => none

def entries? : Nat → List (Node × Node) → List Char → Option (Node × List Char)
  | 0, _, _ => none
  | n + 1, done, cs =>
    match skipBlank cs with
    | '"' :: rest =>
      match string? rest with
      | none => none
      | some (key, rest) =>
        match skipBlank rest with
        | ':' :: rest =>
          match value? n rest with
          | none => none
          | some (v, rest) =>
            match skipBlank rest with
            | ',' :: rest => entries? n ((key, v) :: done) rest
            | '}' :: rest => some (.map ((key, v) :: done).reverse, rest)
            | _ => none
        | _ => none
    | _ => none

end

/-- The tree of a JSON text. -/
def read? (text : String) : Option Tree :=
  let cs := text.toList
  match value? (2 * cs.length + 2) cs with
  | some (root, rest) =>
    if (skipBlank rest).isEmpty then some { root, levels := 127, countsTags := true } else none
  | none => none

end DeviceModel.Document.JsonText
