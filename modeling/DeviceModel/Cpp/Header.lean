import DeviceModel.Cpp.Line
import DeviceModel.Cpp.Name

namespace DeviceModel.Cpp

/-- A declaration inside the namespace of the device. A holder has no meaning of its own; it keeps
the names in it apart from those outside. -/
inductive Decl where
  | struct (type : TypeId) (name : String) (inner : List Decl) (members : List Param)
  | variant (type : TypeId) (name : String) (alternatives : List Param)
  | container (type : TypeId) (name : String) (element : ValueType)
  | holder (name : String) (inStruct : Bool) (inner : List Decl)
  deriving Repr

/-- The container that a parameter declares. One that it has from its template is not its own. -/
def ownContainer (d : Device) (p : Param) : List Decl :=
  match p.container with
  | none => []
  | some t =>
    match d.typeDecl? t with
    | some { name, owner, shape := .array element, .. } =>
      if owner = p.id then [.container t name element] else []
    | _ => []

/-- Whether a parameter declares a type of its own. -/
def declaresAnything (d : Device) (p : Param) : Bool :=
  p.declares.isSome || !(ownContainer d p).isEmpty

/-- A holder of what children declare. There is none if no child declares anything itself. -/
def holder (d : Device) (p : Param) (inStruct : Bool) (inner : List Decl) : List Decl :=
  if (d.children p.id).any (declaresAnything d) then [.holder ("_" ++ p.oid) inStruct inner] else []

/-- What a parameter and those below it declare; `depth` bounds how deep they go. -/
def declarations (d : Device) : Nat → Bool → Param → List Decl
  | 0, _, _ => []
  | depth + 1, inStruct, p =>
    let children := d.children p.id
    let own := match p.declares.bind fun t => (d.typeDecl? t).map fun decl => (t, decl) with
      | some (t, { name, shape := .struct _, .. }) =>
        [.struct t name (children.flatMap (declarations d depth true)) children]
      | some (t, { name, shape := .variant _, .. }) =>
        holder d p inStruct (children.flatMap (declarations d depth inStruct)) ++
          [.variant t name children]
      | some _ => []
      | none =>
        if p.isCommand then holder d p inStruct (children.flatMap (declarations d depth inStruct))
        else []
    own ++ ownContainer d p

/-- What the whole device declares. -/
def types (d : Device) : List Decl :=
  (d.params ++ d.commands).flatMap fun (_, id) =>
    match d.param? id with
    | some p => declarations d (d.nodes.size + 1) false p
    | none => []

def member (d : Device) (p : Param) : String :=
  paramType d .inside p ++ " " ++ p.oid ++
    match p.value with
    | some v => " = " ++ initializer d .inside v ++ ";"
    | none => "\x7b\x7d;"

def usingLine (name type : String) : String := "using " ++ name ++ " = " ++ type ++ ";"

def tuple (types : List String) : String := "std::tuple<" ++ Text.join ", " types ++ ">"

mutual

def Decl.lines (d : Device) (depth : Nat) : Decl → List Line
  | .struct _ name inner members =>
    block depth ("struct " ++ name)
      (declLines d (depth + 1) inner
        ++ members.map (fun p => ⟨depth + 1, member d p⟩)
        ++ [⟨depth + 1, usingLine "isCatenaStruct" "void"⟩])
      "\x7d;"
  | .variant _ name alternatives =>
    [⟨depth, usingLine name
      ("std::variant<" ++ Text.join ", " (alternatives.map (paramType d .inside)) ++ ">")⟩]
  | .container _ name element => [⟨depth, usingLine name (typeName d .inside (.array element))⟩]
  | .holder name inStruct inner =>
    if inStruct then block depth ("struct " ++ name) (declLines d (depth + 1) inner) "\x7d;"
    else block depth ("namespace " ++ name) (declLines d (depth + 1) inner)
      ("\x7d // namespace " ++ name)

def declLines (d : Device) (depth : Nat) : List Decl → List Line
  | [] => []
  | decl :: rest => decl.lines d depth ++ declLines d depth rest

end

/-- What is known of a type at run time, under a template specialised for it. -/
def info (template type : String) (lines : List String) : List Line :=
  [.blank, ⟨0, "template<>"⟩]
    ++ block 0 ("struct " ++ runtime ++ "::" ++ template ++ "<" ++ type ++ ">")
      (lines.map (⟨1, ·⟩)) "\x7d;"

def reflection (d : Device) (t : TypeDecl) : List Line :=
  let full := d.ns ++ "::" ++ t.qualifiedName
  let children := d.children t.owner
  match t.shape with
  | .struct fields =>
    info "StructInfo" full [
      usingLine "T" full,
      usingLine "Type" (tuple (children.map fun c =>
        runtime ++ "::FieldInfo<" ++ paramType d .outside c ++ ", T>")),
      "static constexpr Type fields = "
        ++ braced (fields.map fun f => braced [quote f.name, "&T::" ++ f.name]) ++ ";"]
  | .variant alternatives =>
    info "VariantInfo" full [
      usingLine "Type" (tuple (children.map fun c =>
        runtime ++ "::AlternativeInfo<" ++ paramType d .outside c ++ ">")),
      "static constexpr Type alternatives = "
        ++ braced (alternatives.map fun a => braced [quote a.name]) ++ ";"]
  | .array _ => []

def includes (names : List String) : List Line :=
  names.map fun name => ⟨0, "#include <" ++ name ++ ">"⟩

def banner (sourceName : String) : List Line :=
  [⟨0, "// This file was auto-generated by catena-codegen. Do not modify by hand."⟩,
    ⟨0, "// Source: " ++ sourceName⟩,
    .blank]

def header (d : Device) (sourceName : String) : List Line :=
  [⟨0, "#pragma once"⟩, .blank]
    ++ banner sourceName
    ++ includes ["Device.h", "StructInfo.h", "cstdint", "string", "tuple", "variant", "vector"]
    ++ [.blank, ⟨0, "extern " ++ runtime ++ "::Device dm;"⟩, .blank]
    ++ block 0 ("namespace " ++ d.ns) (declLines d 1 (types d)) ("\x7d // namespace " ++ d.ns)
    ++ d.types.toList.flatMap (reflection d)

end DeviceModel.Cpp
