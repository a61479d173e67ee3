import DeviceModel.Cpp.Generate

namespace DeviceModel.Cpp

open Number

inductive Piece where
  | plain (text : String)
  | name (text : String)
  | float (x : Single)
  deriving DecidableEq, Repr

def Piece.text : Piece → String
  | .plain text => text
  | .name text => text
  | .float x => Cpp.float x

def Piece.name? : Piece → Option String
  | .name text => some text
  | _ => none

def Piece.float? : Piece → Option Single
  | .float x => some x
  | _ => none

/-- A text in pieces. -/
abbrev Marked := List Piece

namespace Marked

/-- What the pieces spell. -/
def text : Marked → String
  | [] => ""
  | piece :: rest => piece.text ++ text rest

def names (m : Marked) : List String := m.filterMap Piece.name?

def floats (m : Marked) : List Single := m.filterMap Piece.float?

def plain (text : String) : Marked := [.plain text]

def name (text : String) : Marked := [.name text]

def float (x : Single) : Marked := [.float x]

def joined (separator : String) : List Marked → Marked
  | [] => []
  | [m] => m
  | m :: next :: rest => m ++ plain separator ++ joined separator (next :: rest)

def braced (items : List Marked) : Marked := plain "\x7b" ++ joined ", " items ++ plain "\x7d"

/-- Names that lead into one another. -/
def path (parts : List String) : Marked := joined "::" (parts.map name)

@[simp] theorem text_nil : text [] = "" := rfl

@[simp] theorem text_append (m m' : Marked) : (m ++ m').text = m.text ++ m'.text := by
  induction m with
  | nil => simp
  | cons piece rest ih => rw [List.cons_append, text, text, ih, String.append_assoc]

@[simp] theorem text_plain (s : String) : (plain s).text = s := String.append_empty

@[simp] theorem text_name (s : String) : (name s).text = s := String.append_empty

@[simp] theorem text_float (x : Single) : (float x).text = Cpp.float x := String.append_empty

@[simp] theorem text_joined (separator : String) (ms : List Marked) :
    (joined separator ms).text = Text.join separator (ms.map text) := by
  induction ms with
  | nil => rfl
  | cons m rest ih =>
    cases rest with
    | nil => simp [joined, Text.join]
    | cons next rest =>
      rw [joined, text_append, text_append, ih]
      simp [Text.join, String.intercalate_cons_cons]

@[simp] theorem text_braced (items : List Marked) :
    (braced items).text = Cpp.braced (items.map text) := by
  simp [braced, Cpp.braced, String.append_assoc]

@[simp] theorem text_path (parts : List String) : (path parts).text = Text.join "::" parts := by
  simp [path, Function.comp_def]

@[simp] theorem text_map_plain (items : List String) : (items.map plain).map text = items := by
  simp [Function.comp_def]

/-- Nothing but plain text stands between what is joined. -/
theorem filterMap_joined {α : Type} (f : Piece → Option α) {separator : String}
    (hplain : f (.plain separator) = none) (ms : List Marked) :
    (joined separator ms).filterMap f = ms.flatMap fun m => m.filterMap f := by
  induction ms with
  | nil => rfl
  | cons m rest ih =>
    cases rest with
    | nil => simp [joined]
    | cons next rest =>
      rw [joined, List.filterMap_append, List.filterMap_append, ih]
      simp [plain, hplain]

section Names

@[simp] theorem names_nil : names [] = [] := rfl

@[simp] theorem names_append (m m' : Marked) : (m ++ m').names = m.names ++ m'.names :=
  List.filterMap_append ..

@[simp] theorem names_plain (s : String) : (plain s).names = [] := rfl

@[simp] theorem names_name (s : String) : (name s).names = [s] := rfl

@[simp] theorem names_float (x : Single) : (float x).names = [] := rfl

@[simp] theorem names_joined (separator : String) (ms : List Marked) :
    (joined separator ms).names = ms.flatMap names :=
  filterMap_joined Piece.name? rfl ms

@[simp] theorem names_braced (items : List Marked) :
    (braced items).names = items.flatMap names := by
  simp [braced]

@[simp] theorem names_path (parts : List String) : (path parts).names = parts := by
  simp [path, List.flatMap_map]

theorem names_map_plain (items : List String) : (items.map plain).flatMap names = [] := by
  simp [List.flatMap_map]

end Names

section Floats

@[simp] theorem floats_nil : floats [] = [] := rfl

@[simp] theorem floats_append (m m' : Marked) : (m ++ m').floats = m.floats ++ m'.floats :=
  List.filterMap_append ..

@[simp] theorem floats_plain (s : String) : (plain s).floats = [] := rfl

@[simp] theorem floats_name (s : String) : (name s).floats = [] := rfl

@[simp] theorem floats_float (x : Single) : (float x).floats = [x] := rfl

@[simp] theorem floats_joined (separator : String) (ms : List Marked) :
    (joined separator ms).floats = ms.flatMap floats :=
  filterMap_joined Piece.float? rfl ms

@[simp] theorem floats_braced (items : List Marked) :
    (braced items).floats = items.flatMap floats := by
  simp [braced]

end Floats

section Types

variable (d : Device) (position : Position)

def qualified (t : TypeDecl) : Marked :=
  match position with
  | .inside => path (t.scope ++ [t.name])
  | .outside => name d.ns ++ plain "::" ++ path (t.scope ++ [t.name])

def declName (t : TypeId) : Marked :=
  match d.typeDecl? t with
  | none => []
  | some decl => qualified d position decl

def typeName : ValueType → Marked
  | .struct t => declName d position t
  | .variant t => declName d position t
  | .array t => plain "std::vector<" ++ typeName t ++ plain ">"
  | t => plain (Cpp.typeName d position t)

def paramType (p : Param) : Marked :=
  match p.container with
  | some t => declName d position t
  | none => typeName d position p.type

mutual

def initializer : Initializer → Marked
  | .list items => braced (initializers items)
  | .struct fields => braced (designators fields)
  | .variant t index _ type value =>
    declName d position t ++ braced [
      plain ("std::in_place_index<" ++ toString index ++ ">"),
      (if needsType value then typeName d position type else []) ++ initializer value]
  | .float32 x => float x
  | scalar => plain (Cpp.initializer d position scalar)

def initializers : List Initializer → List Marked
  | [] => []
  | v :: rest => initializer v :: initializers rest

def designators : List (String × Initializer) → List Marked
  | [] => []
  | (field, v) :: rest =>
    (plain "." ++ name field ++ plain " = " ++ initializer v) :: designators rest

end

theorem initializers_eq (items : List Initializer) :
    initializers d position items = items.map (initializer d position) := by
  induction items with
  | nil => rfl
  | cons v rest ih => rw [initializers, ih, List.map_cons]

theorem designators_eq (fields : List (String × Initializer)) :
    designators d position fields =
      fields.map fun e => plain "." ++ name e.1 ++ plain " = " ++ initializer d position e.2 := by
  induction fields with
  | nil => rfl
  | cons e rest ih => rw [designators, ih, List.map_cons]

theorem text_qualified (t : TypeDecl) :
    (qualified d position t).text =
      match position with
      | .inside => t.qualifiedName
      | .outside => d.ns ++ "::" ++ t.qualifiedName := by
  cases position <;> simp [qualified, TypeDecl.qualifiedName, String.append_assoc]

@[simp] theorem text_declName (t : TypeId) :
    (declName d position t).text = Cpp.declName d position t := by
  unfold declName Cpp.declName
  cases d.typeDecl? t with
  | none => rfl
  | some decl => exact text_qualified d position decl

@[simp] theorem text_typeName (t : ValueType) :
    (typeName d position t).text = Cpp.typeName d position t := by
  induction t with
  | struct t | variant t => exact text_declName d position t
  | array t ih => simp [typeName, Cpp.typeName, ih, String.append_assoc]
  | _ => exact text_plain _

@[simp] theorem text_paramType (p : Param) :
    (paramType d position p).text = Cpp.paramType d position p := by
  unfold paramType Cpp.paramType
  cases p.container <;> simp

mutual

theorem text_initializer : ∀ v, (initializer d position v).text = Cpp.initializer d position v
  | .list items => by rw [initializer, text_braced, text_initializers items, Cpp.initializer]
  | .struct fields => by rw [initializer, text_braced, text_designators fields, Cpp.initializer]
  | .variant t index alternative type v => by
    have htype : (if needsType v then typeName d position type else []).text =
        if needsType v then Cpp.typeName d position type else "" := by
      split <;> simp
    simp only [initializer, text_append, text_declName, text_braced, List.map_cons, List.map_nil,
      text_plain, htype, text_initializer v, Cpp.initializer]
  | .float32 _ => text_float _
  | .string _ | .int32 _ => text_plain _

theorem text_initializers :
    ∀ items, (initializers d position items).map text = Cpp.initializers d position items
  | [] => rfl
  | v :: rest =>
    by
      rw [initializers, List.map_cons, text_initializer v, text_initializers rest, Cpp.initializers]

theorem text_designators :
    ∀ fields, (designators d position fields).map text = Cpp.designators d position fields
  | [] => rfl
  | (field, v) :: rest => by
    rw [designators, List.map_cons, text_designators rest, Cpp.designators]
    simp only [text_append, text_plain, text_name, text_initializer v]

end

/-- A variable or member for a parameter, with its value. -/
def binding (p : Param) : Marked :=
  paramType d position p ++ plain " " ++ name p.oid ++
    match p.value with
    | some v => plain " = " ++ initializer d position v ++ plain ";"
    | none => plain "\x7b\x7d;"

theorem text_binding (p : Param) :
    (binding d position p).text = Cpp.paramType d position p ++ " " ++ p.oid ++
      match p.value with
      | some v => " = " ++ Cpp.initializer d position v ++ ";"
      | none => "\x7b\x7d;" := by
  unfold binding
  cases p.value <;> simp [text_initializer, String.append_assoc]

end Types

section Header

variable (d : Device)

/-- Lines in pieces, each with how far it stands in. -/
abbrev Lines := List (Nat × Marked)

def Lines.spelled (lines : Lines) : List Line := lines.map fun l => ⟨l.1, l.2.text⟩

def Lines.names (lines : Lines) : List String := lines.flatMap fun l => l.2.names

def Lines.floats (lines : Lines) : List Single := lines.flatMap fun l => l.2.floats

theorem names_lines_append (lines lines' : Lines) :
    Lines.names (lines ++ lines') = lines.names ++ lines'.names :=
  List.flatMap_append ..

/-- Lines in which nothing is marked. -/
def unmarked (lines : List Line) : Lines := lines.map fun l => (l.depth, plain l.text)

theorem spelled_append (lines lines' : Lines) :
    Lines.spelled (lines ++ lines') = lines.spelled ++ lines'.spelled := List.map_append ..

theorem spelled_unmarked (lines : List Line) : (unmarked lines).spelled = lines := by
  simp [unmarked, Lines.spelled, Function.comp_def]

theorem names_unmarked (lines : List Line) : (unmarked lines).names = [] := by
  simp [unmarked, Lines.names, List.flatMap_map]

theorem spelled_flatMap {α : Type} {f : α → Lines} {g : α → List Line}
    (h : ∀ a, (f a).spelled = g a) (as : List α) :
    Lines.spelled (as.flatMap f) = as.flatMap g := by
  induction as with
  | nil => rfl
  | cons a rest ih => rw [List.flatMap_cons, spelled_append, h, ih, List.flatMap_cons]

def block (depth : Nat) (opening : Marked) (inner : Lines) (closing : String) : Lines :=
  (depth, opening ++ plain " \x7b") :: inner ++ [(depth, plain closing)]

theorem spelled_block (depth : Nat) (opening : Marked) (inner : Lines) (closing : String) :
    (block depth opening inner closing).spelled =
      Cpp.block depth opening.text inner.spelled closing := by
  simp [block, Cpp.block, Lines.spelled]

theorem names_block (depth : Nat) (opening : Marked) (inner : Lines) (closing : String) :
    (block depth opening inner closing).names = opening.names ++ inner.names := by
  simp [block, Lines.names]

def usingLine (title type : Marked) : Marked :=
  plain "using " ++ title ++ plain " = " ++ type ++ plain ";"

theorem text_usingLine (title type : Marked) :
    (usingLine title type).text = Cpp.usingLine title.text type.text := by
  simp [usingLine, Cpp.usingLine, String.append_assoc]

theorem names_usingLine (title type : Marked) :
    (usingLine title type).names = title.names ++ type.names := by
  simp [usingLine]

mutual

def lines (depth : Nat) : Decl → Lines
  | .struct _ title inner members =>
    block depth (plain "struct " ++ name title)
      (declLines (depth + 1) inner
        ++ members.map (fun p => (depth + 1, binding d .inside p))
        ++ [(depth + 1, plain (Cpp.usingLine "isCatenaStruct" "void"))])
      "\x7d;"
  | .variant _ title alternatives =>
    [(depth, usingLine (name title)
      (plain "std::variant<" ++ joined ", " (alternatives.map (paramType d .inside)) ++ plain ">"))]
  | .container _ title element =>
    [(depth, usingLine (name title) (typeName d .inside (.array element)))]
  | .holder title inStruct inner =>
    if inStruct then block depth (plain "struct " ++ name title)
      (declLines (depth + 1) inner) "\x7d;"
    else block depth (plain "namespace " ++ name title) (declLines (depth + 1) inner)
      ("\x7d // namespace " ++ title)

def declLines (depth : Nat) : List Decl → Lines
  | [] => []
  | decl :: rest => lines depth decl ++ declLines depth rest

end

theorem spelled_members (depth : Nat) (members : List Param) :
    Lines.spelled (members.map fun p => (depth, binding d .inside p)) = members.map fun p =>
      ⟨depth, member d p⟩ := by
  simp only [Lines.spelled, List.map_map, Function.comp_def, text_binding]
  rfl

mutual

theorem spelled_lines :
    ∀ (depth : Nat) (decl : Decl), (lines d depth decl).spelled = decl.lines d depth
  | depth, .struct _ title inner members => by
    rw [lines, spelled_block, spelled_append, spelled_append, spelled_declLines (depth + 1) inner,
      spelled_members, Decl.lines]
    simp [Lines.spelled]
  | depth, .variant _ title alternatives => by
    simp [lines, Lines.spelled, text_usingLine, Decl.lines, Function.comp_def, String.append_assoc]
  | depth, .container _ title element => by simp [lines, Lines.spelled, text_usingLine, Decl.lines]
  | depth, .holder title inStruct inner => by
    rw [lines, Decl.lines]
    split <;> rw [spelled_block, spelled_declLines (depth + 1) inner] <;> simp

theorem spelled_declLines :
    ∀ (depth : Nat) (decls : List Decl), (declLines d depth decls).spelled =
      Cpp.declLines d depth decls
  | _, [] => rfl
  | depth, decl :: rest => by
    rw [declLines, spelled_append, spelled_lines depth decl, spelled_declLines depth rest,
      Cpp.declLines]

end

def info (template : String) (type : Marked) (lines : List Marked) : Lines :=
  [(0, []), (0, plain "template<>")]
    ++ block 0 (plain ("struct " ++ runtime ++ "::" ++ template ++ "<") ++ type ++ plain ">")
      (lines.map (1, ·)) "\x7d;"

theorem spelled_info (template : String) (type : Marked) (lines : List Marked) :
    (info template type lines).spelled = Cpp.info template type.text (lines.map text) := by
  rw [info, spelled_append, spelled_block, Cpp.info]
  simp [Lines.spelled, Line.blank, Function.comp_def, String.append_assoc]

theorem names_info (template : String) (type : Marked) (lines : List Marked) :
    (info template type lines).names = type.names ++ lines.flatMap Marked.names := by
  rw [info, names_lines_append, names_block]
  simp [Lines.names, List.flatMap_map]

def reflection (t : TypeDecl) : Lines :=
  let full := qualified d .outside t
  let types := (d.children t.owner).map (paramType d .outside)
  match t.shape with
  | .struct fields =>
    info "StructInfo" full [
      usingLine (plain "T") full,
      usingLine (plain "Type") (plain "std::tuple<"
        ++ joined ", " (types.map fun type => plain (runtime ++ "::FieldInfo<") ++ type ++
          plain ", T>") ++ plain ">"),
      plain "static constexpr Type fields = "
        ++
          braced (fields.map fun f => braced [plain (quote f.name), plain "&T::" ++ name f.name]) ++
          plain ";"]
  | .variant alternatives =>
    info "VariantInfo" full [
      usingLine (plain "Type") (plain "std::tuple<"
        ++ joined ", " (types.map fun type => plain (runtime ++ "::AlternativeInfo<") ++ type ++
          plain ">") ++ plain ">"),
      plain ("static constexpr Type alternatives = "
        ++ Cpp.braced (alternatives.map fun a => Cpp.braced [quote a.name]) ++ ";")]
  | .array _ => []

theorem spelled_reflection (t : TypeDecl) : (reflection d t).spelled = Cpp.reflection d t := by
  unfold reflection Cpp.reflection
  cases t.shape with
  | struct fields =>
    simp only [spelled_info, text_qualified]
    simp [text_usingLine, text_qualified, tuple, Function.comp_def, String.append_assoc]
  | variant alternatives =>
    simp only [spelled_info, text_qualified]
    simp [text_usingLine, tuple, Function.comp_def, String.append_assoc]
  | array => rfl

def header (sourceName : String) : Lines :=
  unmarked ([⟨0, "#pragma once"⟩, .blank]
    ++ banner sourceName
    ++ includes ["Device.h", "StructInfo.h", "cstdint", "string", "tuple", "variant", "vector"]
    ++ [.blank, ⟨0, "extern " ++ runtime ++ "::Device dm;"⟩, .blank])
    ++ block 0 (plain "namespace " ++ name d.ns) (declLines d 1 (types d))
      ("\x7d // namespace " ++ d.ns)
    ++ d.types.toList.flatMap (reflection d)

theorem spelled_header (sourceName : String) :
    (header d sourceName).spelled = Cpp.header d sourceName := by
  rw [header, spelled_append, spelled_append, spelled_unmarked, spelled_block, spelled_declLines,
    spelled_flatMap (spelled_reflection d), Cpp.header]
  simp

end Header

section Body

variable (d : Device)

def define (type : Marked) (defined : String) (arguments : List Marked) : Marked :=
  plain (runtime ++ "::") ++ type ++ plain " " ++ name defined ++ plain " " ++
    braced arguments ++ plain ";"

theorem text_define (type : Marked) (defined : String) (arguments : List Marked) :
    (define type defined arguments).text = Cpp.define type.text defined (arguments.map text) := by
  simp [define, Cpp.define, String.append_assoc]

theorem names_define (type : Marked) (defined : String) (arguments : List Marked) :
    (define type defined arguments).names = type.names ++ defined :: arguments.flatMap names := by
  simp [define]

/-- A constraint says nothing but its own name that is a name. -/
def constraint (c : Constraint) : Marked :=
  match c.rule with
  | .intRange r => range "int32_t" (fun i => plain (int i)) r
  | .floatRange r => range "float" float r
  | .intChoice choices => choice "int32_t" int choices
  | .stringChoice choices => choice "std::string" quote choices
  | .picklist p =>
    define (plain "PicklistConstraint") (constraintName c)
      ([strings p.choices, bool p.strict, quote c.oid, bool c.isShared, "dm"].map plain)
where
  range {α : Type} (type : String) (literal : α → Marked) (r : Range α) : Marked :=
    define (plain ("RangeConstraint<" ++ type ++ ">")) (constraintName c)
      ([literal r.min, literal r.max, literal r.step, literal r.displayMin, literal r.displayMax]
        ++ [quote c.oid, bool c.isShared, "dm"].map plain)
  choice {α : Type} (type : String) (literal : α → String)
      (choices : Choices (Choice α)) : Marked :=
    define (plain ("NamedChoiceConstraint<" ++ type ++ ">")) (constraintName c)
      ([Cpp.braced (choices.choices.map fun ch => Cpp.braced [literal ch.value, pairs ch.name]),
        bool choices.strict, quote c.oid, bool c.isShared, "dm"].map plain)

theorem text_constraint (c : Constraint) : (constraint c).text = constraintText c := by
  unfold constraint constraintText
  cases c.rule <;> simp only [constraint.range, constraint.choice, text_define,
    text_plain, text_float, List.map_append, List.map_cons, List.map_nil] <;> rfl

def reference : Option String → Marked
  | some target => plain "&" ++ name target
  | none => plain "nullptr"

theorem text_reference (target : Option String) :
    (reference target).text = Cpp.reference target := by
  cases target <;> simp [reference, Cpp.reference]

def descriptor (p : Param) : Marked :=
  define (plain "ParamDescriptor") (descriptorName p) (
    ["catena::ParamType::" ++ p.type.code.text, strings p.oidAliases, pairs p.name,
      optional p.widget, optional p.accessScope, bool p.readOnly, quote p.oid].map plain
    ++ [reference ((p.constraint.bind d.constraint?).map constraintName),
      reference ((p.parent.bind d.param?).map descriptorName)]
    ++ ["dm", bool p.isCommand].map plain)

theorem text_descriptor (p : Param) : (descriptor d p).text = descriptorText d p := by
  rw [descriptor, text_define, descriptorText]
  simp only [List.map_append, List.map_cons, List.map_nil, text_reference, text_plain]
  rfl

def param (type value : Marked) (isCommand : Bool) (p : Param) : Marked :=
  define (plain "ParamWithValue<" ++ type ++ plain ">") (p.ident ++ "Param")
    [value, name (descriptorName p), plain "dm", plain (bool isCommand)]

theorem text_param (type value : Marked) (isCommand : Bool) (p : Param) :
    (param type value isCommand p).text = paramText type.text value.text isCommand p := by
  simp [param, text_define, paramText, String.append_assoc]

def menu (group : String) (m : Menu) : Marked :=
  define (plain "Menu") ("_" ++ group ++ "_" ++ m.oid ++ "Menu")
    ([pairs m.name, bool m.hidden, bool m.disabled, strings m.params, strings m.commands,
      pairs m.clientHints, quote m.oid].map plain ++ [name (menuGroupName group)])

theorem text_menu (group : String) (m : Menu) : (menu group m).text = menuText group m := by
  rw [menu, text_define, menuText]
  simp

def item : Item → Marked
  | .languagePack p =>
    define (plain "LanguagePack") ("_" ++ p.id ++ "LanguagePack")
      ([quote p.name, pairs p.words, "dm"].map plain)
  | .constraint id => ((d.constraint? id).map constraint).getD []
  | .value id => ((d.param? id).map (binding d .outside)).getD []
  | .descriptor id => ((d.param? id).map (descriptor d)).getD []
  | .param id =>
    ((d.param? id).map fun p => param (paramType d .outside p) (name p.oid) false p).getD []
  | .command id =>
    ((d.param? id).map
      (param (plain (runtime ++ "::EmptyValue")) (plain (runtime ++ "::emptyValue")) true)).getD []
  | .menuGroup g =>
    define (plain "MenuGroup") (menuGroupName g.oid) ([quote g.oid, pairs g.name, "dm"].map plain)
  | .menu group m => menu group m
  | i => plain (i.text d)

theorem text_item (i : Item) : (item d i).text = i.text d := by
  cases i with
  | languagePack p | menuGroup g => rw [item, text_define, text_map_plain, text_plain, Item.text]
  | constraint id => cases hc : d.constraint? id <;> simp [item, Item.text, hc, text_constraint]
  | value id =>
    cases hp : d.param? id with
    | none => simp [item, Item.text, hp]
    | some p =>
      simp only [item, Item.text, hp, Option.map_some, Option.getD_some, text_binding]
      rfl
  | descriptor id => cases hp : d.param? id <;> simp [item, Item.text, hp, text_descriptor]
  | param id | command id => cases hp : d.param? id <;> simp [item, Item.text, hp, text_param]
  | menu group m => exact text_menu group m
  | blank | device => exact text_plain _

def body (headerName sourceName : String) : Lines :=
  unmarked (preamble headerName sourceName) ++ (items d).map fun i => (0, item d i)

theorem spelled_body (headerName sourceName : String) :
    (body d headerName sourceName).spelled = Cpp.body d headerName sourceName := by
  rw [body, spelled_append, spelled_unmarked, Cpp.body]
  simp [Lines.spelled, Function.comp_def, text_item]

end Body

end Marked

/-- What is generated is spelled by the marked code. -/
theorem generate_spelled (d : Device) (sourceName : String) :
    generate d sourceName =
      { headerName := sourceName ++ ".h"
        header := render (Marked.header d sourceName).spelled
        bodyName := sourceName ++ ".cpp"
        body := render (Marked.body d (sourceName ++ ".h") sourceName).spelled } := by
  rw [Marked.spelled_header, Marked.spelled_body]
  rfl

end DeviceModel.Cpp
