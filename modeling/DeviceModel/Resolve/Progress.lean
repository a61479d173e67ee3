import DeviceModel.Log
import DeviceModel.Resolve.Error

namespace DeviceModel

/-- A resolution under way: the device as far as it is built, the parameters that are finished,
those whose constraint is settled, the names that are taken, and what happened. All of it is kept
when resolution fails. -/
structure Progress where
  device : Device
  registry : Registry := {}
  constrained : List (ParamId × ConstraintId) := []
  idents : Entries String := []
  log : Array Log.Record := #[]
  deriving Repr

abbrev Resolve := EStateM ResolveError Progress

namespace Resolve

def lift : Except ResolveError α → Resolve α
  | .ok a => pure a
  | .error e => throw e

def note (level : Log.Level) (target text : String) : Resolve Unit :=
  modify fun s => { s with log := s.log.push ⟨level, target, text⟩ }

def device : Resolve Device := return (← get).device

def updateDevice (f : Device → Device) : Resolve Unit :=
  modify fun s => { s with device := f s.device }

/-- What is found in the device; `oid` is what asks for it. -/
def lookUp (oid : String) (find : Device → Option α) : Resolve α := do
  match find (← device) with
  | some a => return a
  | none => throw (.dangling oid)

def param (oid : String) (id : ParamId) : Resolve Param := lookUp oid (·.param? id)

def constraint (oid : String) (id : ConstraintId) : Resolve Constraint :=
  lookUp oid (·.constraint? id)

def childrenOf (oid : String) (id : ParamId) : Resolve (List Param) :=
  lookUp oid (·.children? id)

/-- A new parameter, under the next id. -/
def addParam (p : Param) : Resolve ParamId := do
  let id : ParamId := ⟨(← device).nodes.size⟩
  updateDevice fun d => { d with nodes := d.nodes.push { p with id } }
  return id

def updateParam (oid : String) (id : ParamId) (f : Param → Param) : Resolve Unit := do
  let p ← param oid id
  updateDevice fun d => { d with nodes := d.nodes.setIfInBounds id.index (f p) }

def addConstraint (c : Constraint) : Resolve ConstraintId := do
  let id : ConstraintId := ⟨(← device).constraints.size⟩
  updateDevice fun d => { d with constraints := d.constraints.push c }
  return id

def addType (t : TypeDecl) : Resolve TypeId := do
  let id : TypeId := ⟨(← device).types.size⟩
  updateDevice fun d => { d with types := d.types.push t }
  return id

/-- Takes the stem of generated names for a parameter. Different oids may have the same stem; the
second of them is refused. -/
def claimIdent (id : ParamId) : Resolve Unit := do
  let p ← param "" id
  match (← get).idents.get? p.ident with
  | some other => throw (.nameClash p.fqoid p.ident other)
  | none => modify fun s => { s with idents := (p.ident, p.fqoid) :: s.idents }

/-- Enters a new parameter in the arena, with the stem of its names. -/
def enterParam (p : Param) : Resolve ParamId := do
  let id ← addParam p
  claimIdent id
  return id

/-- Makes a finished parameter a template for later ones. Commands are never templates. -/
def register (id : ParamId) : Resolve Unit := do
  let p ← param "" id
  match p.realm with
  | .params => modify fun s => { s with registry := s.registry.insert p.fqoid id }
  | .commands => pure ()

def checkDistinct (scope : String) (entries : Entries α) : Resolve Unit :=
  match entries.duplicate? with
  | some oid => throw (.duplicateOid scope oid)
  | none => pure ()

end Resolve

end DeviceModel
