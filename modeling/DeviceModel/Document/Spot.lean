import DeviceModel.Document.Node

namespace DeviceModel.Document

/-- A document, the nodes that its references stand for, and the limits to reading it. -/
structure Tree where
  root : Node
  numbered : Array Node := #[]
  /-- Lists and maps that may lie within one another. -/
  levels : Nat
  /-- A map that only tags a value is a level too. -/
  countsTags : Bool

namespace Tree

/-- References that may be followed: a hundred for each part of the document. -/
def references (t : Tree) : Nat := 100 * t.root.parts

end Tree

/-- A reading; the number is that of the references which may still be followed. -/
abbrev Read := StateT Nat Option

/-- A node of a document, and the levels left for what lies in it. -/
structure Spot where
  tree : Tree
  node : Node
  levels : Nat

namespace Spot

def top (t : Tree) : Spot := ⟨t, t.root, t.levels⟩

def move (p : Spot) (n : Node) : Spot := { p with node := n }

/-- The spot with one level less. -/
def below? (p : Spot) : Option Spot :=
  match p.levels with
  | 0 => none
  | levels + 1 => some { p with levels }

/-- The spot that a reference leads to; any other is itself. -/
def follow (p : Spot) : Read Spot :=
  match p.node with
  | .reference number => do
    let left + 1 ← get | failure
    set left
    return p.move (← p.tree.numbered[number]?)
  | _ => return p

end Spot

namespace Tree

/-- What a reference stands for; any other node is itself. -/
def follow (t : Tree) (n : Node) : Read Node := do return (← Spot.follow ⟨t, n, 0⟩).node

def settledScalar? (s : Scalar) : Option Node := do
  let a ← s.atom?
  if a.isWide then none else some (.scalar (.atom a))

/-- An integer that is no position names nothing as a key. -/
def settledKey (written settled : Node) : Node :=
  match written, settled with
  | .scalar s, .scalar (.atom (.int _)) => if s.isSigned then .unreadable else settled
  | _, _ => settled

/-- The node, read in full: the kind of every scalar is settled, and no reference is left. -/
def settle (t : Tree) : Nat → Node → Read Node
  | 0, n => do
    let .scalar s ← t.follow n | failure
    settledScalar? s
  | levels + 1, n => do
    match ← t.follow n with
    | .scalar s => settledScalar? s
    | .list items => return .list (← items.mapM (settle t levels))
    | .map entries =>
      return .map (← entries.mapM fun (k, v) => do
        let k ← t.follow k
        return (settledKey k (← settle t levels k), ← settle t levels v))
    | _ => failure

/-- The node as a JSON value. A repeated key keeps its first place and its last value. -/
def toJson (t : Tree) : Nat → Node → Read Json
  | 0, n => do (← t.follow n).atom?.bind Atom.toJson?
  | levels + 1, n => do
    match ← t.follow n with
    | .scalar s => s.atom?.bind Atom.toJson?
    | .list items => return .array (← items.mapM (toJson t levels))
    | .map entries =>
      return .object (← entries.foldlM (fun members (k, v) => do
        return Json.setMember members (← (← t.follow k).string?) (← toJson t levels v)) [])
    | _ => failure

/-- The document as a JSON value. -/
def toJson? (t : Tree) : Option Json := (t.toJson t.levels t.root).run' t.references

end Tree

namespace Spot

/-- What lies here, read in full. -/
def settle (p : Spot) : Read Spot := do return p.move (← p.tree.settle p.levels p.node)

end Spot

end DeviceModel.Document
