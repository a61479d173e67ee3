import DeviceModel.Cpp.Literal
import DeviceModel.Device.Basic

namespace DeviceModel.Cpp

/-- The namespace of what generated code is built on. -/
def runtime : String := "catena::common"

/-- Inside the namespace of the device a name starts at its outermost scope; elsewhere it starts
with the namespace. -/
inductive Position where
  | inside
  | outside
  deriving DecidableEq, Repr

/-- The name of a declared type. -/
def declName (d : Device) (position : Position) (t : TypeId) : String :=
  match d.typeDecl? t with
  | none => ""
  | some decl =>
    match position with
    | .inside => decl.qualifiedName
    | .outside => d.ns ++ "::" ++ decl.qualifiedName

def typeName (d : Device) (position : Position) : ValueType → String
  | .empty => runtime ++ "::EmptyValue"
  | .string => "std::string"
  | .int32 => "int32_t"
  | .float32 => "float"
  | .struct t => declName d position t
  | .variant t => declName d position t
  | .array t => "std::vector<" ++ typeName d position t ++ ">"

/-- The type of a parameter's value, by the name of its container if it has one. -/
def paramType (d : Device) (position : Position) (p : Param) : String :=
  match p.container with
  | some t => declName d position t
  | none => typeName d position p.type

/-- Whether an alternative's value is written with its type in front. -/
def needsType : Initializer → Bool
  | .list _ => true
  | .struct _ => true
  | _ => false

mutual

def initializer (d : Device) (position : Position) : Initializer → String
  | .string s => quote s
  | .int32 i => int i
  | .float32 x => float x
  | .list items => braced (initializers d position items)
  | .struct fields => braced (designators d position fields)
  | .variant t index _ type value =>
    declName d position t ++ braced [
      "std::in_place_index<" ++ toString index ++ ">",
      (if needsType value then typeName d position type else "") ++ initializer d position value]

def initializers (d : Device) (position : Position) : List Initializer → List String
  | [] => []
  | v :: rest => initializer d position v :: initializers d position rest

def designators (d : Device) (position : Position) : List (String × Initializer) → List String
  | [] => []
  | (name, v) :: rest =>
    ("." ++ name ++ " = " ++ initializer d position v) :: designators d position rest

end

end DeviceModel.Cpp
