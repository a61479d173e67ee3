import DeviceModel.Document.Format
import DeviceModel.Entries
import DeviceModel.Schema.Basic

namespace DeviceModel.Schema

/-- What one keyword says. -/
inductive Part where
  | demand (s : Schema)
  | known (schemas : List (String × Schema))
  | others (s : Schema)
  | remark
  deriving Repr

def knownOf (parts : List Part) : List (String × Schema) :=
  (parts.findSome? fun
    | .known schemas => some schemas
    | _ => none).getD []

def restrictsOthers : Part → Bool
  | .others .always => false
  | .others _ => true
  | _ => false

/-- The demands of a schema, in order. What it says of known members and of all others is one
demand. -/
def assemble (parts : List Part) : Schema :=
  .all (parts.flatMap fun
    | .demand s => [s]
    | .known schemas => if parts.any restrictsOthers then [] else [.properties schemas]
    | .others .always => []
    | .others .never => [.closed (knownOf parts)]
    | .others s => [.members (knownOf parts) s]
    | .remark => [])

def typeNamed? (name : String) : Option JsonType := JsonType.all.find? (·.name == name)

def text? : Json → Option String
  | .string s => some s
  | _ => none

def texts? : Json → Option (List String)
  | .array a => a.mapM text?
  | _ => none

/-- One type, or a list of different ones. -/
def types? : Json → Option Schema
  | .string name => (typeNamed? name).map fun t => .types [t]
  | v => do
    let names ← texts? v
    let options ← names.mapM typeNamed?
    if options.isEmpty || (firstRepeat? [] names).isSome then none
    else some (.types (JsonType.all.filter options.contains))

def count? (v : Json) : Option Nat :=
  match v.ratio? with
  | some (n, d) => if n % d = 0 ∧ 0 ≤ n then some (n / d).toNat else none
  | none => none

/-- Keywords that hold no schemas. -/
def plainPart? (key : String) (v : Json) : Option Part :=
  match key with
  | "type" => .demand <$> types? v
  | "enum" => match v with
    | .array options => some (.demand (.oneOf options))
    | _ => none
  | "minimum" => if v.isNumber then some (.demand (.minimum v)) else none
  | "minProperties" => (.demand ∘ .minProperties) <$> count? v
  | "maxProperties" => (.demand ∘ .maxProperties) <$> count? v
  | "required" => do
    let names ← texts? v
    if (firstRepeat? [] names).isSome then none else some (.demand (.required names))
  | "title" => (fun _ => .remark) <$> text? v
  | "description" => (fun _ => .remark) <$> text? v
  | "$schema" => (fun _ => .remark) <$> text? v
  | "$id" => (fun _ => .remark) <$> text? v
  | "$comment" => (fun _ => .remark) <$> text? v
  | _ => some .remark

mutual

/-- The schema that a JSON value states; none if it states none. -/
def ofJson? : Json → Option Schema
  | .bool true => some .always
  | .bool false => some .never
  | .object keywords => assemble <$> parts? keywords
  | _ => none

def parts? : List (String × Json) → Option (List Part)
  | [] => some []
  | (key, v) :: rest => do return (← part? key v) :: (← parts? rest)

def part? (key : String) (v : Json) : Option Part :=
  if key = "items" then (.demand ∘ .items) <$> ofJson? v
  else if key = "propertyNames" then (.demand ∘ .propertyNames) <$> ofJson? v
  else if key = "additionalProperties" then .others <$> ofJson? v
  else match v with
    | .object inner =>
      if key = "properties" then .known <$> schemas? inner else plainPart? key (.object inner)
    | .array options =>
      if key = "anyOf" then
        if options.isEmpty then none else (.demand ∘ .anyOf) <$> options? options
      else if key = "properties" then none
      else plainPart? key (.array options)
    | v => if key = "properties" || key = "anyOf" then none else plainPart? key v

def schemas? : List (String × Json) → Option (List (String × Schema))
  | [] => some []
  | (name, v) :: rest => do return (name, ← ofJson? v) :: (← schemas? rest)

def options? : List Json → Option (List Schema)
  | [] => some []
  | v :: rest => do return (← ofJson? v) :: (← options? rest)

end

/-- The check that a schema in JSON stands for, as far as its keywords are known here: the others
are passed over. -/
def compile (v : Json) : Except String (Json → List String) :=
  match ofJson? v with
  | some s => .ok fun doc => (violations [] s doc).map Violation.message
  | none => .error Document.parseFailure

end DeviceModel.Schema
