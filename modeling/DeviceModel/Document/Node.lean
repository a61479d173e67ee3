import DeviceModel.Document.Scalar
import DeviceModel.Json

namespace DeviceModel.Document

open Number

/-- A part of a document, before it is known what it describes. Maps keep repeated keys. A part that
has the right form but no value (a number out of range, half of a character) is unreadable: it does
no harm where it is skipped. -/
inductive Node where
  | scalar (s : Scalar)
  | list (items : List Node)
  | map (entries : List (Node × Node))
  | reference (number : Nat)
  | unreadable
  deriving Repr

namespace Node

def text (s : String) : Node := .scalar (.atom (.text s))

def atom? : Node → Option Atom
  | .scalar s => s.atom?
  | _ => none

def string? : Node → Option String
  | .scalar s => s.string?
  | _ => none

def isNull (n : Node) : Bool := n.atom? == some .null

mutual

/-- Scalars and references, and both ends of every list and map. -/
def parts : Node → Nat
  | .list items => partsOfItems items + 2
  | .map entries => partsOfEntries entries + 2
  | _ => 1

def partsOfItems : List Node → Nat
  | [] => 0
  | n :: rest => parts n + partsOfItems rest

def partsOfEntries : List (Node × Node) → Nat
  | [] => 0
  | (k, v) :: rest => parts k + parts v + partsOfEntries rest

end

end Node

namespace Atom

/-- Integers of more than 64 bits have no place in a JSON value. -/
def isWide : Atom → Bool
  | .int i => i < -Nat.pow 2 63 || Nat.pow 2 64 ≤ i
  | _ => false

def toJson? (a : Atom) : Option Json :=
  if a.isWide then none
  else match a with
    | .null => some .null
    | .bool b => some (.bool b)
    | .int i => some (.int i)
    | .float x => match x.value with
      | .finite _ _ _ => some (.float x)
      | _ => some .null
    | .text s => some (.string s)

end Atom

end DeviceModel.Document
