import DeviceModel.Number.Decimal

namespace DeviceModel.Document

open Number

inductive Atom where
  | null
  | bool (b : Bool)
  | int (i : Int)
  | float (x : Double)
  | text (s : String)
  deriving DecidableEq, Repr

/-- Kinds that a tag can force on a scalar. -/
inductive Kind where
  | null
  | bool
  | int
  | float
  deriving DecidableEq, Repr

/-- A tag in front of a scalar: a kind, a name of the document's own, or one that means nothing. -/
inductive Tag where
  | kind (k : Kind)
  | own (name : String)
  | other
  deriving DecidableEq, Repr

/-- A plain scalar is written without quotes, on no lines of its own. -/
inductive Scalar where
  | atom (a : Atom)
  | written (text : String) (plain : Bool) (tag : Option Tag)
  deriving DecidableEq, Repr

def digitIn? (base : Nat) (c : Char) : Option Nat :=
  let value :=
    if c.isDigit then c.toNat - '0'.toNat
    else if 'a' ≤ c && c ≤ 'z' then c.toNat - 'a'.toNat + 10
    else if 'A' ≤ c && c ≤ 'Z' then c.toNat - 'A'.toNat + 10
    else base
  if value < base then some value else none

/-- A natural number in the base; at least one digit. -/
def natIn? (base : Nat) (cs : List Char) : Option Nat :=
  if cs.isEmpty then none
  else (cs.mapM (digitIn? base)).map fun digits => digits.foldl (fun n d => n * base + d) 0

/-- A natural number that may have a plus sign. -/
def unsigned? (base : Nat) : List Char → Option Nat
  | '+' :: cs => natIn? base cs
  | cs => natIn? base cs

def baseOf? : Char → Option Nat
  | 'x' => some 16
  | 'o' => some 8
  | 'b' => some 2
  | _ => none

/-- Integers such as `0x1F`, `+0o17` and `-0b1`, within 64 bits. -/
def based? : List Char → Option Int
  | '-' :: '0' :: mark :: cs => do
    let n ← natIn? (← baseOf? mark) cs
    if n ≤ Nat.pow 2 63 then some (-n) else none
  | '+' :: '0' :: mark :: cs | '0' :: mark :: cs => do
    let n ← unsigned? (← baseOf? mark) cs
    if n < Nat.pow 2 64 then some n else none
  | _ => none

/-- Decimal integers within 128 bits. -/
def integer? : List Char → Option Int
  | '-' :: cs => do
    let n ← natIn? 10 cs
    if n ≤ Nat.pow 2 127 then some (-n) else none
  | cs => do
    let n ← unsigned? 10 cs
    if n < Nat.pow 2 128 then some n else none

def dropSign : List Char → Bool × List Char
  | '-' :: cs => (true, cs)
  | '+' :: cs => (false, cs)
  | cs => (false, cs)

def digitValues (cs : List Char) : List Nat := cs.map fun c => c.toNat - '0'.toNat

/-- The exponent after the digits of a number, if what is left is one. -/
def exponent? : List Char → Option Int
  | [] => some 0
  | c :: cs =>
    if c = 'e' || c = 'E' then
      let (negative, digits) := dropSign cs
      (natIn? 10 digits).map fun n => if negative then -(n : Int) else n
    else none

/-- Decimal numbers such as `.5`, `1.` and `-2.5e3`. -/
def literal? (cs : List Char) : Option Literal := do
  let (negative, cs) := dropSign cs
  let (whole, cs) := cs.span Char.isDigit
  let (fraction, cs) := match cs with
    | '.' :: rest => rest.span Char.isDigit
    | _ => ([], cs)
  if whole.isEmpty && fraction.isEmpty then none
  else some ⟨negative, digitValues whole, digitValues fraction, ← exponent? cs⟩

/-- A digit row that starts with a zero is not a number. -/
def isPadded (cs : List Char) : Bool :=
  match (dropSign cs).2 with
  | '0' :: c :: rest => (c :: rest).all Char.isDigit
  | _ => false

def special? (s : String) : Option Binary :=
  if [".inf", ".Inf", ".INF"].contains (String.ofList (s.toList.dropWhile (· = '+'))) then
    some (.infinity false)
  else if ["-.inf", "-.Inf", "-.INF"].contains s then some (.infinity true)
  else if [".nan", ".NaN", ".NAN"].contains s then some .nan
  else none

def finite? (cs : List Char) : Option Double :=
  match (literal? cs).map Literal.nearest with
  | some (.finite s m e) => some (Binary.finite s m e).toDouble
  | _ => none

def isNullText (s : String) : Bool := s = "~" || s = "null"

/-- What a plain scalar is where no string is wanted. -/
def plainAtom (s : String) : Atom :=
  let cs := s.toList
  if isNullText s then .null
  else if s = "true" then .bool true
  else if s = "false" then .bool false
  else match based? cs with
    | some i => .int i
    | none =>
      if isPadded cs then .text s
      else match integer? cs, special? s, finite? cs with
        | some i, _, _ => .int i
        | none, some b, _ => .float b.toDouble
        | none, none, some x => .float x
        | none, none, none => .text s

/-- Words for numbers that are not finite, in letters of either case. -/
def notFinite? (cs : List Char) : Option Binary :=
  let (negative, word) := dropSign cs
  match String.ofList (word.map Char.toLower) with
  | "inf" | "infinity" => some (.infinity negative)
  | "nan" => some .nan
  | _ => none

/-- What a scalar with the tag of a kind is; none if its text is not of the kind. -/
def forcedAtom? (s : String) : Kind → Option Atom
  | .null => if isNullText s then some .null else none
  | .bool =>
    if s = "true" then some (.bool true) else if s = "false" then some (.bool false) else none
  | .int =>
    (integer? s.toList).bind fun i =>
      if -Nat.pow 2 63 ≤ i ∧ i < Nat.pow 2 63 then some (.int i) else none
  | .float =>
    (notFinite? s.toList <|> (literal? s.toList).map Literal.nearest).map fun b => .float b.toDouble

namespace Scalar

def atom? : Scalar → Option Atom
  | .atom a => some a
  | .written text _ (some (.kind k)) => forcedAtom? text k
  | .written text _ (some _) => some (.text text)
  | .written text true none => some (plainAtom text)
  | .written text false none => some (.text text)

/-- The scalar where a string is wanted. -/
def string? : Scalar → Option String
  | .atom (.text s) => some s
  | .atom _ => none
  | .written text _ _ => some text

/-- The name of the document's own that tags the scalar. -/
def ownTag? : Scalar → Option String
  | .written _ _ (some (.own name)) => some name
  | _ => none

/-- Whether the scalar says that something is missing. Quotes deny it; none if a plain text belies
its tag. -/
def isMissing? : Scalar → Option Bool
  | .atom a => some (a = .null)
  | .written text true none => some (isNullText text)
  | .written text true (some (.kind .null)) => if isNullText text then some true else none
  | .written _ _ _ => some false

/-- Written with a minus sign or a tag, so that as an integer it is no position. -/
def isSigned : Scalar → Bool
  | .written text _ tag => tag.isSome || text.toList.head? = some '-'
  | .atom _ => false

end Scalar

end DeviceModel.Document
