import DeviceModel.Resolve.Progress

namespace DeviceModel.Resolve

/-- What a parameter takes from an earlier one, its template. -/
structure Binding where
  template : ParamId
  type : ValueType
  overElements : Bool
  constraint : Option ConstraintId
  value : Option Initializer
  deriving Repr

/-- The template of a parameter and what comes from it. Only finished parameters are found. -/
def bindTemplate (fqoid : String) (declared : TypeCode) (templateOid : String) :
    Resolve Binding := do
  match (← get).registry.get? templateOid with
  | none => throw (.missingTemplate fqoid templateOid)
  | some id =>
    let template ← param fqoid id
    match ValueType.ofTemplate? declared template.type with
    | none => throw (.templateMismatch fqoid declared template.fqoid template.type.code)
    | some (type, overElements) =>
      note .debug "catena_core::template" (fqoid ++ " uses template " ++ template.fqoid)
      return { template := id, type, overElements
               constraint := template.constraint
               value := if overElements then none else template.value }

/-- A parameter at a new place in the tree, without children. It shares types and constraints with
the one it is a copy of. -/
def placed (source parent : Param) : Param :=
  { source with
    fqoid := parent.fqoid ++ "/" ++ source.oid
    parent := some parent.id
    realm := parent.realm
    isCommand := false
    declares := none
    children := [] }

/-- A copy of one child; `below` copies what is below it. -/
def copyChild (below : ParamId → ParamId → Resolve Unit) (target child : ParamId) :
    Resolve (String × ParamId) := do
  let parent ← param "" target
  let source ← param parent.fqoid child
  let id ← enterParam (placed source parent)
  below id child
  register id
  return ((← param parent.fqoid id).oid, id)

/-- Copies the tree below `template` to below `target`; `depth` bounds how deep it is. -/
def copyChildren : Nat → ParamId → ParamId → Resolve Unit
  | 0, _, _ => throw (.dangling "")
  | depth + 1, target, template => do
    let source ← param "" template
    let children ← source.children.mapM fun e => copyChild (copyChildren depth) target e.2
    updateParam "" target fun p => { p with children }

/-- No tree is deeper than the arena is long. -/
def instantiate (target template : ParamId) : Resolve Unit := do
  copyChildren (← device).nodes.size target template

end DeviceModel.Resolve
