import DeviceModel.Number.Layout
import DeviceModel.Text.Split

namespace DeviceModel

open Number

/-- A JSON value. Objects keep the order of their members. -/
inductive Json where
  | null
  | bool (b : Bool)
  | int (i : Int)
  | float (x : Double)
  | string (s : String)
  | array (items : List Json)
  | object (members : List (String × Json))
  deriving Inhabited, Repr

namespace Json

/-- Numbers from 1e-5 up to 1e16 are written without an exponent. -/
def numbers : Layout := ⟨fun e => -5 ≤ e && e < 16, true, true, .even⟩

def hexDigit (n : Nat) : Char := (Nat.toDigits 16 n).headD '0'

def escape (c : Char) : List Char :=
  match c with
  | '"' => ['\\', '"']
  | '\\' => ['\\', '\\']
  | '\n' => ['\\', 'n']
  | '\r' => ['\\', 'r']
  | '\t' => ['\\', 't']
  | '\x08' => ['\\', 'b']
  | '\x0c' => ['\\', 'f']
  | c =>
    if c.toNat < 0x20 then ['\\', 'u', '0', '0', hexDigit (c.toNat / 16), hexDigit (c.toNat % 16)]
    else [c]

def quote (s : String) : String := String.ofList ('"' :: s.toList.flatMap escape ++ ['"'])

def scalarText : Json → String
  | .null => "null"
  | .bool b => if b then "true" else "false"
  | .int i => toString i
  | .float x => numbers.text .double x.value
  | .string s => quote s
  | .array _ => "[]"
  | .object _ => "\x7b\x7d"

mutual

def compact : Json → String
  | .array items => "[" ++ Text.join "," (compactItems items) ++ "]"
  | .object members => "\x7b" ++ Text.join "," (compactMembers members) ++ "\x7d"
  | scalar => scalar.scalarText

def compactItems : List Json → List String
  | [] => []
  | v :: rest => v.compact :: compactItems rest

def compactMembers : List (String × Json) → List String
  | [] => []
  | (key, v) :: rest => (quote key ++ ":" ++ v.compact) :: compactMembers rest

end

def indent (depth : Nat) : String := String.ofList (List.replicate (2 * depth) ' ')

/-- Lines between an opening and a closing bracket. -/
def block (depth : Nat) (opening closing : String) (lines : List String) : String :=
  opening ++ "\n" ++ Text.join ",\n" (lines.map (indent (depth + 1) ++ ·)) ++ "\n" ++
    indent depth ++ closing

mutual

def prettyAt (depth : Nat) : Json → String
  | .array (v :: rest) => block depth "[" "]" (prettyItems (depth + 1) (v :: rest))
  | .object (m :: rest) => block depth "\x7b" "\x7d" (prettyMembers (depth + 1) (m :: rest))
  | scalar => scalar.scalarText

def prettyItems (depth : Nat) : List Json → List String
  | [] => []
  | v :: rest => v.prettyAt depth :: prettyItems depth rest

def prettyMembers (depth : Nat) : List (String × Json) → List String
  | [] => []
  | (key, v) :: rest => (quote key ++ ": " ++ v.prettyAt depth) :: prettyMembers depth rest

end

def pretty (v : Json) : String := v.prettyAt 0

def get? (v : Json) (key : String) : Option Json :=
  match v with
  | .object members => members.lookup key
  | _ => none

/-- Sets a member: a key that is there keeps its place. -/
def setMember (members : List (String × Json)) (key : String) (v : Json) : List (String × Json) :=
  if members.any (·.1 == key) then members.map fun m => if m.1 = key then (key, v) else m
  else members ++ [(key, v)]

def ofOption (f : α → Json) : Option α → Json
  | none => .null
  | some a => f a

def strings (items : List String) : Json := .array (items.map .string)

end Json

end DeviceModel
