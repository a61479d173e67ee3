import DeviceModel.Description.Device
import DeviceModel.Device.Constraint
import DeviceModel.Path
import DeviceModel.Text.Identifier

namespace DeviceModel

/-- The two forests of parameters. -/
inductive Realm where
  | params
  | commands
  deriving DecidableEq, Repr

namespace Realm

def name : Realm → String
  | .params => "params"
  | .commands => "commands"

end Realm

structure Param where
  id : ParamId
  oid : String
  fqoid : String
  parent : Option ParamId
  realm : Realm
  isCommand : Bool
  declared : TypeCode
  type : ValueType := .empty
  declares : Option TypeId := none
  container : Option TypeId := none
  template : Option ParamId := none
  constraint : Option ConstraintId := none
  value : Option Initializer := none
  children : Entries ParamId := []
  name : Polyglot
  oidAliases : List String
  widget : Option String
  accessScope : Option String
  readOnly : Bool
  deriving Repr

namespace Param

def identOf (realm : Realm) (fqoid : String) : String :=
  match realm with
  | .params => Text.flatten fqoid
  | .commands => "_cmd" ++ Text.flatten fqoid

/-- The stem of every name that is generated for the parameter. -/
def ident (p : Param) : String := identOf p.realm p.fqoid

end Param

/-- An oid with the slash it starts with when it is complete. -/
def completeOid (oid : String) : String := if Path.startsAtRoot oid then oid else "/" ++ oid

/-- Finished parameters by their full oid. -/
structure Registry where
  entries : Entries ParamId := []
  deriving Repr

namespace Registry

def insert (r : Registry) (fqoid : String) (id : ParamId) : Registry :=
  ⟨r.entries.filter (·.1 != fqoid) ++ [(fqoid, id)]⟩

def get? (r : Registry) (oid : String) : Option ParamId := r.entries.get? (completeOid oid)

def size (r : Registry) : Nat := r.entries.length

def isEmpty (r : Registry) : Bool := r.entries.isEmpty

end Registry

/-- Three arenas of parameters, constraints and declared types, which refer to one another by index,
and the names under which the outermost of them are found. -/
structure Device where
  ns : String
  settings : Settings
  languagePacks : List LanguagePack := []
  sharedConstraints : Entries ConstraintId := []
  params : Entries ParamId := []
  commands : Entries ParamId := []
  menuGroups : List MenuGroup := []
  nodes : Array Param := #[]
  constraints : Array Constraint := #[]
  types : Array TypeDecl := #[]
  deriving Repr

namespace Device

def param? (d : Device) (id : ParamId) : Option Param := d.nodes[id.index]?

def constraint? (d : Device) (id : ConstraintId) : Option Constraint := d.constraints[id.index]?

def typeDecl? (d : Device) (id : TypeId) : Option TypeDecl := d.types[id.index]?

def roots (d : Device) : Realm → Entries ParamId
  | .params => d.params
  | .commands => d.commands

def children (d : Device) (id : ParamId) : List Param :=
  match d.param? id with
  | some p => p.children.filterMap fun (_, c) => d.param? c
  | none => []

/-- The children of a parameter, if it is there and all of them are. -/
def children? (d : Device) (id : ParamId) : Option (List Param) := do
  (← d.param? id).children.mapM fun e => d.param? e.2

/-- The parameter that the names lead to, from the given one. -/
def descend (d : Device) (start : ParamId) : List String → Option ParamId
  | [] => some start
  | name :: rest => do d.descend (← (← d.param? start).children.get? name) rest

/-- The parameter with a full oid. Slashes at its start are not looked at. -/
def find? (d : Device) (realm : Realm) (fqoid : String) : Option ParamId :=
  match (Text.fields '/' (fqoid.toList.dropWhile (· = '/'))).map String.ofList with
  | [] => none
  | root :: rest => do d.descend (← (d.roots realm).get? root) rest

/-- Where the names lead, from the given parameter. Nothing comes of it if a parameter on the way is
not there; a name that leads nowhere is a different matter. -/
def descend? (d : Device) (start : ParamId) : List String → Option (Option ParamId)
  | [] => some (some start)
  | name :: rest => do
    match (← d.param? start).children.get? name with
    | some child => d.descend? child rest
    | none => some none

/-- Where a full oid leads, if all parameters on the way are there. -/
def locate? (d : Device) (realm : Realm) (fqoid : String) : Option (Option ParamId) :=
  match (Text.fields '/' (fqoid.toList.dropWhile (· = '/'))).map String.ofList with
  | [] => some none
  | root :: rest =>
    match (d.roots realm).get? root with
    | some id => d.descend? id rest
    | none => some none

/-- Parameters of the tree below one, itself first, no deeper than given. -/
def subtreeWithin (d : Device) : Nat → ParamId → List ParamId
  | 0, id => [id]
  | depth + 1, id =>
    match d.param? id with
    | some p => id :: p.children.flatMap fun (_, c) => d.subtreeWithin depth c
    | none => [id]

/-- Parameters of the tree below one, parents before children. No tree is deeper than the arena is
long. -/
def subtree (d : Device) (id : ParamId) : List ParamId := d.subtreeWithin d.nodes.size id

end Device

end DeviceModel
