import DeviceModel.Resolve.Error

namespace DeviceModel.Resolve

open Description (Value)

abbrev Valued := Except ResolveError Initializer

/-- The declaration that a type stands for; `oid` is what asks for it. -/
def declaration (types : Array TypeDecl) (oid : String) (t : TypeId) :
    Except ResolveError TypeDecl :=
  match types[t.index]? with
  | some decl => .ok decl
  | none => .error (.dangling oid)

/-- Only declared fields are given, and none twice. -/
def checkFields (oid : String) (declared : List Field) (given : List String) :
    Except ResolveError Unit :=
  match firstRepeat? [] given with
  | some name => .error (.duplicateOid ("value of " ++ oid) name)
  | none =>
    match given.find? fun name => !declared.any (·.name == name) with
    | some name => .error (.unknownField oid name)
    | none => .ok ()

def findAlternative (oid name : String) (alternatives : List Alternative) :
    Except ResolveError (Nat × Alternative) :=
  match alternatives.zipIdx.find? (·.1.name == name) with
  | some (alternative, index) => .ok (index, alternative)
  | none => .error (.unknownAlternative oid name (alternatives.map (·.name)))

/-- The fields that `valueOf` knows, in order of declaration. -/
def collectFields (valueOf : Field → Option Valued) :
    List Field → Except ResolveError (List (String × Initializer))
  | [] => .ok []
  | f :: rest =>
    match valueOf f with
    | none => collectFields valueOf rest
    | some v => do return (f.name, ← v) :: (← collectFields valueOf rest)

/-- The initializer of a struct from the fields given for it. `valueOf` is the value of a field by
its name. -/
def structValue (types : Array TypeDecl) (given : List String)
    (valueOf : String → String → ValueType → Option Valued) (oid : String) (t : TypeId) :
    Valued := do
  let declared := (← declaration types oid t).fields
  checkFields oid declared given
  return .struct (← collectFields (fun f => valueOf f.name (oid ++ "/" ++ f.name) f.type) declared)

mutual

/-- The initializer of a value at a type. -/
def value (types : Array TypeDecl) : Value → String → ValueType → Valued
  | .string s, _, .string => .ok (.string s)
  | .int32 i, _, .int32 => .ok (.int32 i)
  | .float32 x, _, .float32 => .ok (.float32 x)
  | .strings items, _, .array .string => .ok (.list (items.map .string))
  | .int32s items, _, .array .int32 => .ok (.list (items.map .int32))
  | .float32s items, _, .array .float32 => .ok (.list (items.map .float32))
  | .struct fields, oid, .struct t =>
    structValue types (fields.map Prod.fst) (fieldValue types fields) oid t
  | .structs items, oid, .array (.struct t) => return .list (← structItems types items oid 0 t)
  | .variant name v, oid, .variant t => do
    let (index, alternative) ← findAlternative oid name (← declaration types oid t).alternatives
    return .variant t index alternative.name alternative.type
      (← value types v (oid ++ "/" ++ alternative.name) alternative.type)
  | .variants items, oid, .array (.variant t) => return .list (← variantItems types items oid 0 t)
  | v, oid, t => .error (.valueMismatch oid t.expectedTag v.tag)

/-- The value given for a field. -/
def fieldValue (types : Array TypeDecl) :
    List (String × Value) → String → String → ValueType → Option Valued
  | [], _, _, _ => none
  | (key, v) :: rest, name, oid, t =>
    if key == name then some (value types v oid t) else fieldValue types rest name oid t

def structItems (types : Array TypeDecl) :
    List (List (String × Value)) → String → Nat → TypeId → Except ResolveError (List Initializer)
  | [], _, _, _ => .ok []
  | fields :: rest, oid, i, t => do
    let label := oid ++ "[" ++ toString i ++ "]"
    return (← structValue types (fields.map Prod.fst) (fieldValue types fields) label t) ::
      (← structItems types rest oid (i + 1) t)

def variantItems (types : Array TypeDecl) :
    List (String × Value) → String → Nat → TypeId → Except ResolveError (List Initializer)
  | [], _, _, _ => .ok []
  | (name, v) :: rest, oid, i, t => do
    let label := oid ++ "[" ++ toString i ++ "]"
    let (index, alternative) ← findAlternative label name (← declaration types label t).alternatives
    let inner ← value types v (label ++ "/" ++ alternative.name) alternative.type
    return .variant t index alternative.name alternative.type inner ::
      (← variantItems types rest oid (i + 1) t)

end

end DeviceModel.Resolve
