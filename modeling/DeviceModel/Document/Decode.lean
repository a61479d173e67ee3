import DeviceModel.Entries
import DeviceModel.Document.Spot

namespace DeviceModel.Document

open Number

/-- How to read a value at a spot. -/
abbrev Decoder (α : Type) := Spot → Read α

namespace Decode

def string : Decoder String := fun p => do (← p.follow).node.string?

def bool : Decoder Bool := fun p => do
  let some (.bool b) := (← p.follow).node.atom? | failure
  return b

/-- An integer from `low` up to `high`. -/
def integer (low high : Int) : Decoder Int := fun p => do
  let some (.int i) := (← p.follow).node.atom? | failure
  if low ≤ i ∧ i ≤ high then return i else failure

def int32 : Decoder Int32 := fun p => Int32.ofInt <$> integer (-Nat.pow 2 31) (Nat.pow 2 31 - 1) p

def uint32 : Decoder UInt32 := fun p => (·.toNat.toUInt32) <$> integer 0 (Nat.pow 2 32 - 1) p

/-- A number of 32 bits; an integer is rounded once, a double a second time. -/
def single : Decoder Single := fun p => do
  match (← p.follow).node.atom? with
  | some (.int i) => if (Atom.int i).isWide then failure else return .ofInt i
  | some (.float x) => return x.toSingle
  | _ => failure

def list (item : Decoder α) : Decoder (List α) := fun p => do
  let p ← p.follow
  let .list items := p.node | failure
  let below ← p.below?
  items.mapM fun n => item (below.move n)

/-- Entries of a map, each read with its key. -/
def named (item : String → Decoder α) : Decoder (List α) := fun p => do
  let p ← p.follow
  let .map pairs := p.node | failure
  let below ← p.below?
  pairs.mapM fun (k, v) => do item (← string (below.move k)) (below.move v)

def entries (value : Decoder α) : Decoder (Entries α) := named fun k p => do return (k, ← value p)

def polyglot : Decoder Polyglot := entries string

/-- Nothing, or something. -/
def nullable (value : Decoder α) : Decoder (Option α) := fun p => do
  let p ← p.follow
  let isMissing ← match p.node with
    | .scalar s => s.isMissing?
    | _ => some false
  if isMissing then return none else some <$> value p

/-- A field that must be there. -/
def required (value : Decoder α) : Option Spot → Read α
  | none => failure
  | some p => value p

def withDefault (default : α) (value : Decoder α) : Option Spot → Read α
  | none => return default
  | some p => value p

/-- A field that may be missing. -/
def optional (value : Decoder α) : Option Spot → Read (Option α) :=
  withDefault none (nullable value)

/-- Which of the named things a key means, if any. A number counts them from zero. None if the key
cannot be a name. -/
def position? (names : List (List String)) (key : Node) : Option (Option Nat) :=
  match key with
  | .scalar (.atom (.int i)) =>
    if 0 ≤ i then some (if i < names.length then some i.toNat else none) else none
  | _ => key.string?.map fun s => names.findIdx? (·.contains s)

def place? (slots : List (Option Spot)) (i : Nat) (p : Spot) : Option (List (Option Spot)) :=
  match slots[i]? with
  | some none => some (slots.set i (some p))
  | _ => none

/-- The slots with one entry more, if its key names one. -/
def fill (names : List (List String)) (below : Spot) (slots : List (Option Spot))
    (entry : Node × Node) :
    Read (List (Option Spot)) := do
  match ← position? names (← (below.move entry.1).follow).node with
  | none => return slots
  | some i => place? slots i (below.move entry.2)

/-- The fields of a record, each under one of its spellings. -/
def record (names : List (List String)) (p : Spot) : Read (List (Option Spot)) := do
  let p ← p.follow
  let below ← p.below?
  match p.node with
  | .map pairs => pairs.foldlM (fill names below) (names.map fun _ => none)
  | .list items =>
    if items.length ≤ names.length then
      return items.map (fun n => some (below.move n)) ++
        List.replicate (names.length - items.length) none
    else failure
  | _ => failure

/-- A record whose fields have one spelling each. -/
def fields (names : List String) (p : Spot) : Read (List (Option Spot)) :=
  record (names.map ([·])) p

/-- The inside of a map that only tags a value. -/
def insideTag? (p : Spot) : Option Spot := if p.tree.countsTags then p.below? else some p

/-- Which of the named things this is, and what it holds: the name is the only key of a map, or the
tag of a scalar, or stands alone. The key has to be there itself, not a reference to it. -/
def variant (names : List String) (p : Spot) : Read (Nat × Option Spot) := do
  let p ← p.follow
  match p.node with
  | .map [(k, v)] =>
    let some i ← position? (names.map ([·])) k | failure
    return (i, some ((← insideTag? p).move v))
  | .scalar s =>
    match s.ownTag?.bind names.idxOf? with
    | some i => return (i, some p)
    | none => return (← names.idxOf? (← s.string?), none)
  | _ => failure

/-- A named thing that holds something. -/
def tagged (names : List String) (p : Spot) : Read (Nat × Spot) := do
  let (i, some inside) ← variant names p | failure
  return (i, inside)

end Decode

end DeviceModel.Document
