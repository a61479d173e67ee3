import DeviceModel.Entries
import DeviceModel.Number.Binary
import DeviceModel.Text.Split

namespace DeviceModel

open Number

structure ParamId where
  index : Nat
  deriving DecidableEq, Repr

structure ConstraintId where
  index : Nat
  deriving DecidableEq, Repr

structure TypeId where
  index : Nat
  deriving DecidableEq, Repr

inductive Kind where
  | string
  | int32
  | float32
  | struct
  | variant
  deriving DecidableEq, Repr

namespace Kind

def code : Kind → String
  | .string => "STRING"
  | .int32 => "INT32"
  | .float32 => "FLOAT32"
  | .struct => "STRUCT"
  | .variant => "STRUCT_VARIANT"

def arrayCode : Kind → String
  | .string => "STRING_ARRAY"
  | .int32 => "INT32_ARRAY"
  | .float32 => "FLOAT32_ARRAY"
  | .struct => "STRUCT_ARRAY"
  | .variant => "STRUCT_VARIANT_ARRAY"

/-- Whether parameters of the kind declare a type of their own. -/
def declaresType : Kind → Bool
  | .struct => true
  | .variant => true
  | _ => false

end Kind

/-- What a document declares the type of a parameter to be. -/
inductive TypeCode where
  | empty
  | single (kind : Kind)
  | array (kind : Kind)
  deriving DecidableEq, Repr

namespace TypeCode

def text : TypeCode → String
  | .empty => "EMPTY"
  | .single k => k.code
  | .array k => k.arrayCode

def ofText? : String → Option TypeCode
  | "EMPTY" => some .empty
  | "STRING" => some (.single .string)
  | "INT32" => some (.single .int32)
  | "FLOAT32" => some (.single .float32)
  | "STRUCT" => some (.single .struct)
  | "STRUCT_VARIANT" => some (.single .variant)
  | "STRING_ARRAY" => some (.array .string)
  | "INT32_ARRAY" => some (.array .int32)
  | "FLOAT32_ARRAY" => some (.array .float32)
  | "STRUCT_ARRAY" => some (.array .struct)
  | "STRUCT_VARIANT_ARRAY" => some (.array .variant)
  | _ => none

def isArray : TypeCode → Bool
  | .array _ => true
  | _ => false

/-- The code of one element. What is no array is its own element. -/
def element : TypeCode → TypeCode
  | .array k => .single k
  | other => other

def declaresType : TypeCode → Bool
  | .empty => false
  | .single k => k.declaresType
  | .array k => k.declaresType

end TypeCode

/-- What a declared type comes to, with the struct or variant that is meant. -/
inductive ValueType where
  | empty
  | string
  | int32
  | float32
  | struct (type : TypeId)
  | variant (type : TypeId)
  | array (element : ValueType)
  deriving DecidableEq, Inhabited, Repr

namespace ValueType

def element : ValueType → ValueType
  | .array t => t
  | t => t

def isArray : ValueType → Bool
  | .array _ => true
  | _ => false

/-- The code a parameter of the type is declared with. -/
def code : ValueType → TypeCode
  | .empty => .empty
  | .string => .single .string
  | .int32 => .single .int32
  | .float32 => .single .float32
  | .struct _ => .single .struct
  | .variant _ => .single .variant
  | .array t => match t.code with
    | .single k => .array k
    | other => other

/-- The struct or variant that the type is. -/
def declared? : ValueType → Option TypeId
  | .struct t => some t
  | .variant t => some t
  | _ => none

/-- The type of a kind that needs no declaration. -/
def scalar? : Kind → Option ValueType
  | .string => some .string
  | .int32 => some .int32
  | .float32 => some .float32
  | _ => none

/-- The type of a code that needs no declaration. -/
def ofCode? : TypeCode → Option ValueType
  | .empty => some .empty
  | .single k => scalar? k
  | .array k => (scalar? k).map .array

/-- The tag that values of the type are written with. -/
def expectedTag : ValueType → String
  | .empty => "no value"
  | .string => "string_value"
  | .int32 => "int32_value"
  | .float32 => "float32_value"
  | .struct _ => "struct_value"
  | .variant _ => "struct_variant_value"
  | .array .string => "string_array_values"
  | .array .int32 => "int32_array_values"
  | .array .float32 => "float32_array_values"
  | .array (.struct _) => "struct_array_values"
  | .array (.variant _) => "struct_variant_array_values"
  | .array _ => "no value"

/-- The type that a code has when its template has the given one, and whether the template is one
element of it. -/
def ofTemplate? (declared : TypeCode) (template : ValueType) : Option (ValueType × Bool) :=
  if declared = template.code then some (template, false)
  else if declared.isArray && !template.isArray && declared.element = template.code then
    some (.array template, true)
  else none

end ValueType

/-- A value of a type. A struct has the fields that were given, in the order of their declaration; a
variant says which alternative it holds. -/
inductive Initializer where
  | string (s : String)
  | int32 (i : Int32)
  | float32 (x : Single)
  | list (items : List Initializer)
  | struct (fields : List (String × Initializer))
  | variant (type : TypeId) (index : Nat) (alternative : String) (valueType : ValueType)
      (value : Initializer)
  deriving Repr

structure Field where
  name : String
  type : ValueType
  default : Option Initializer
  deriving Repr

structure Alternative where
  name : String
  type : ValueType
  deriving DecidableEq, Repr

inductive Shape where
  | struct (fields : List Field)
  | variant (alternatives : List Alternative)
  | array (element : ValueType)
  deriving Repr

/-- A type declared for a parameter. Its scope is the way to it, outermost first. -/
structure TypeDecl where
  name : String
  scope : List String
  owner : ParamId
  shape : Shape
  deriving Repr

namespace TypeDecl

def qualifiedName (t : TypeDecl) : String := Text.join "::" (t.scope ++ [t.name])

def shapeName (t : TypeDecl) : String :=
  match t.shape with
  | .struct _ => "struct"
  | .variant _ => "variant"
  | .array _ => "array"

def fields (t : TypeDecl) : List Field :=
  match t.shape with
  | .struct fields => fields
  | _ => []

def alternatives (t : TypeDecl) : List Alternative :=
  match t.shape with
  | .variant alternatives => alternatives
  | _ => []

end TypeDecl

end DeviceModel
