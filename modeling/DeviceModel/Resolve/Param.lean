import DeviceModel.Resolve.Rule
import DeviceModel.Resolve.Template
import DeviceModel.Resolve.Value

namespace DeviceModel.Resolve

open Description (Declaration Import)

/-- Where in the tree parameters stand: their parent, the scope that their types are declared in,
and the folder that their imports are read from. -/
structure Slot where
  parent : Option ParamId
  realm : Realm
  scope : List String
  folder : Path
  outermost : parent = none → scope = []
  deriving Repr

/-- A place in the tree with the oid of the parent, as it is in the arena. -/
structure Site extends Slot where
  path : String
  deriving Repr

namespace Slot

def root (realm : Realm) (folder : Path) : Slot := ⟨none, realm, [], folder, fun _ => rfl⟩

/-- Only commands themselves are commands, not what is below them. -/
def isCommand (slot : Slot) : Bool := slot.realm = .commands && slot.parent.isNone

/-- Looks up the parent. -/
def locate (slot : Slot) : Resolve Site :=
  match slot.parent with
  | some id => do return { slot with path := (← param "" id).fqoid }
  | none => return { slot with path := "" }

end Slot

namespace Site

def fqoid (site : Site) (oid : String) : String := site.path ++ "/" ++ oid

/-- Where the children of a parameter stand. -/
def inner (site : Site) (oid : String) (id : ParamId) (scope : String) : Slot where
  parent := some id
  realm := site.realm
  scope := site.scope ++ [scope]
  folder := site.folder.join oid
  outermost := fun h => by cases h

end Site

def declaredType (site : Site) (oid : String) (d : Declaration) : Except ResolveError TypeCode :=
  let fqoid := site.fqoid oid
  if site.isCommand then
    if d.template.isSome then .error (.invalidCommand fqoid .template)
    else if d.value.isSome then .error (.invalidCommand fqoid .value)
    else .ok .empty
  else
    let code := d.type.getD ""
    match TypeCode.ofText? code with
    | some t => .ok t
    | none => .error (.unknownType fqoid code)

/-- A parameter of which only the declaration is known. -/
def blank (site : Site) (oid : String) (declared : TypeCode) (d : Declaration) : Param :=
  { id := ⟨0⟩
    oid
    fqoid := site.fqoid oid
    parent := site.parent
    realm := site.realm
    isCommand := site.isCommand
    declared
    name := d.name
    oidAliases := d.oidAliases
    widget := d.widget
    accessScope := d.accessScope
    readOnly := d.readOnly }

/-- The constraint that a parameter declares: a shared one, or one of its own. -/
def declaredConstraint (p : Param) (id : ParamId) (c : Description.Constraint) :
    Resolve ConstraintId := do
  match c.reference with
  | some reference =>
    match c.type with
    | some code => throw (.invalidConstraint p.fqoid code .referenceWithType)
    | none =>
      match (← device).sharedConstraints.get? reference with
      | some shared => return shared
      | none => throw (.missingConstraint p.fqoid reference)
  | none =>
    let rule ← lift (Rule.classify p.fqoid c)
    addConstraint { oid := p.fqoid, ident := p.ident, owner := some id, rule }

/-- Settles the constraint of a parameter, unless that was done before. -/
def ownConstraint (id : ParamId) (c : Description.Constraint) : Resolve ConstraintId := do
  match (← get).constrained.lookup id with
  | some settled => return settled
  | none =>
    let constraint ← declaredConstraint (← param "" id) id c
    modify fun s => { s with constrained := (id, constraint) :: s.constrained }
    return constraint

/-- A type inside a struct may not have the name of the struct. -/
def checkNested (site : Site) (oid name : String) : Resolve Unit :=
  match site.scope.getLast?, site.parent with
  | some enclosing, some parent => do
    if enclosing = name then
      let other ← param (site.fqoid oid) parent
      throw (.nameClash (site.fqoid oid) name other.fqoid)
  | _, _ => pure ()

/-- The type of a parameter, with the types declared for it. -/
structure Typing where
  type : ValueType
  declares : Option TypeId := none
  container : Option TypeId := none
  deriving Repr

/-- Names the array of an element type. -/
def declareContainer (site : Site) (oid : String) (id : ParamId) (element : ValueType) :
    Resolve TypeId :=
  addType { name := Text.capitalize oid, scope := site.scope, owner := id, shape := .array element }

/-- The type of a parameter with a template. An array over a struct or variant has a container of
its own. -/
def inherit (site : Site) (oid : String) (id : ParamId) (bare : Bool) (b : Binding) :
    Resolve Typing := do
  unless bare do throw (.paramsBesideTemplate (site.fqoid oid))
  instantiate id b.template
  if b.overElements then
    if b.type.element.declared?.isSome then
      checkNested site oid (Text.capitalize oid)
      return { type := b.type, container := some (← declareContainer site oid id b.type.element) }
    else return { type := b.type }
  else return { type := b.type, container := (← param (site.fqoid oid) b.template).container }

def elementName (oid : String) (declared : TypeCode) : String :=
  if declared.isArray then Text.capitalize oid ++ "_elem" else Text.capitalize oid

/-- What holds the types declared below a variant or a command. No alternative can have the name of
something beside the variant. -/
def holderName (oid : String) : String := "_" ++ oid

def structShape (children : List Param) : Shape :=
  .struct (children.map fun c => ⟨c.oid, c.type, c.value⟩)

def variantShape (children : List Param) : Shape :=
  .variant (children.map fun c => ⟨c.oid, c.type⟩)

/-- Whether what a code declares is a struct; else it is a variant. -/
def makesStruct (declared : TypeCode) : Bool := declared.element = .single .struct

/-- The scope that the children of a declared type are in: the struct itself, or a holder. -/
def innerName (oid : String) (declared : TypeCode) : String :=
  if makesStruct declared then elementName oid declared else holderName oid

/-- The struct or variant that the children make. -/
def elementShape (declared : TypeCode) (children : List Param) : Shape :=
  if makesStruct declared then structShape children else variantShape children

def elementType (declared : TypeCode) (type : TypeId) : ValueType :=
  if makesStruct declared then .struct type else .variant type

/-- Resolves the children at a place. -/
abbrev Block := Slot → Resolve (Entries ParamId)

def resolveChildren (block : Block) (fqoid : String) (id : ParamId) (slot : Slot) :
    Resolve (List Param) := do
  let children ← block slot
  updateParam fqoid id fun p => { p with children }
  childrenOf fqoid id

/-- Neither the element nor the array may have the name of the struct around them. -/
def checkNames (site : Site) (oid : String) (declared : TypeCode) : Resolve Unit := do
  checkNested site oid (elementName oid declared)
  if declared.isArray then checkNested site oid (Text.capitalize oid)

def checkAlternatives (fqoid : String) (declared : TypeCode) (bare : Bool) : Resolve Unit :=
  if !makesStruct declared && bare then throw (.emptyVariant fqoid) else pure ()

/-- Declares the struct or variant that the children make, and for an array its container. -/
def declare (block : Block) (site : Site) (oid : String) (id : ParamId) (bare : Bool)
    (declared : TypeCode) : Resolve Typing := do
  let fqoid := site.fqoid oid
  checkNames site oid declared
  let children ← resolveChildren block fqoid id (site.inner oid id (innerName oid declared))
  checkAlternatives fqoid declared bare
  let type ← addType
    { name := elementName oid declared
      scope := site.scope
      owner := id
      shape := elementShape declared children }
  let element := elementType declared type
  if declared.isArray then
    let container ← declareContainer site oid id element
    return { type := .array element, declares := some type, container := some container }
  else return { type := element, declares := some type }

/-- The type of a parameter that declares none. Only commands may have children then. -/
def undeclared (block : Block) (site : Site) (oid : String) (id : ParamId) (bare : Bool)
    (declared : TypeCode) : Resolve Typing := do
  let fqoid := site.fqoid oid
  unless bare do
    unless site.isCommand do throw (.unexpectedParams fqoid declared)
    let _ ← resolveChildren block fqoid id (site.inner oid id (holderName oid))
  return { type := (ValueType.ofCode? declared).getD .empty }

def checkConstraint (fqoid : String) (type : ValueType) (id : ConstraintId) : Resolve Unit := do
  let rule := (← constraint fqoid id).rule
  unless type.element.code = .single rule.kind do
    throw (.constraintMismatch fqoid rule.code type.code)

/-- The type of a parameter, from its template or from what it declares. -/
def settleType (block : Block) (bare : Bool) (site : Site) (oid : String) (id : ParamId)
    (declared : TypeCode) : Option Binding → Resolve Typing
  | some b => inherit site oid id bare b
  | none =>
    if declared.declaresType then declare block site oid id bare declared
    else undeclared block site oid id bare declared

/-- The value that is given, or else the one from the template. -/
def settleValue (fqoid : String) (type : ValueType) (inherited : Option Initializer) :
    Option Description.Value → Resolve (Option Initializer)
  | some v => do return some (← lift (value (← device).types v fqoid type))
  | none => pure inherited

/-- Resolves a parameter that is written out. `block` resolves its children; `bare` says that it has
none. -/
def resolveDeclared (block : Block) (bare : Bool) (site : Site) (oid : String) (d : Declaration) :
    Resolve ParamId := do
  let fqoid := site.fqoid oid
  let declared ← lift (declaredType site oid d)
  note .debug "catena_core::param" ("resolving " ++ fqoid ++ " (" ++ declared.text ++ ")")
  let id ← enterParam (blank site oid declared d)
  let own ← d.constraint.mapM (ownConstraint id)
  let binding ← d.template.mapM (bindTemplate fqoid declared)
  let typing ← settleType block bare site oid id declared binding
  let constraint := own <|> binding.bind Binding.constraint
  constraint.forM (checkConstraint fqoid typing.type)
  let value ← settleValue fqoid typing.type (binding.bind Binding.value) d.value
  updateParam fqoid id fun p =>
    { p with
      type := typing.type
      declares := typing.declares
      container := typing.container
      template := binding.map Binding.template
      constraint
      value }
  register id
  return id

/-- Resolves a parameter whose description is elsewhere. -/
abbrev Importer := Site → String → Import → Resolve ParamId

mutual

/-- Resolves a parameter and all below it. It is entered in the arena before its children and
finished after them. -/
def resolveParam (importer : Importer) (site : Site) (oid : String) :
    Description.Param → Resolve ParamId
  | ⟨d, params⟩ =>
    match d.source with
    | some source => importer site oid source
    | none =>
      resolveDeclared (fun inner => do
          checkDistinct (site.fqoid oid) params
          resolveEach importer inner params)
        params.isEmpty site oid d

/-- Resolves parameters in order. The parent is looked up for each of them. -/
def resolveEach (importer : Importer) (slot : Slot) :
    List (String × Description.Param) → Resolve (Entries ParamId)
  | [] => pure []
  | (oid, p) :: rest => do
    let id ← resolveParam importer (← slot.locate) oid p
    return (oid, id) :: (← resolveEach importer slot rest)

end

end DeviceModel.Resolve
