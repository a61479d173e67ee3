import DeviceModel.Cpp.Header

namespace DeviceModel.Cpp

/-- What the body is made of: definitions, and blanks between them. -/
inductive Item where
  | blank
  | device
  | languagePack (p : LanguagePack)
  | constraint (id : ConstraintId)
  | value (id : ParamId)
  | descriptor (id : ParamId)
  | param (id : ParamId)
  | command (id : ParamId)
  | menuGroup (g : MenuGroup)
  | menu (group : String) (m : Menu)
  deriving Repr

/-- The constraint that belongs to a parameter alone. -/
def ownedConstraint (d : Device) (p : Param) : List Item :=
  match p.constraint with
  | none => []
  | some id =>
    match d.constraint? id with
    | some c => if c.owner = some p.id then [.constraint id] else []
    | none => []

/-- Descriptors of a tree, each after the constraint that belongs to it. -/
def descriptors (d : Device) (root : ParamId) : List Item :=
  (d.subtree root).flatMap fun id =>
    match d.param? id with
    | some p => ownedConstraint d p ++ [.descriptor id]
    | none => []

def paramItems (d : Device) (id : ParamId) : List Item :=
  [.blank, .value id] ++ descriptors d id ++ [.param id]

def commandItems (d : Device) (id : ParamId) : List Item :=
  [.blank] ++ descriptors d id ++ [.command id]

def menuItems (g : MenuGroup) : List Item :=
  [.blank, .menuGroup g] ++ g.menus.map (.menu g.oid)

/-- Items after a blank, if there are any. -/
def paragraph (items : List Item) : List Item := if items.isEmpty then [] else .blank :: items

/-- Items without the constraints that were written before. -/
def unrepeated (written : List ConstraintId) : List Item → List Item
  | [] => []
  | .constraint id :: rest =>
    if written.contains id then unrepeated written rest
    else .constraint id :: unrepeated (id :: written) rest
  | i :: rest => i :: unrepeated written rest

/-- Parameters with what they need, and then commands. -/
def trees (d : Device) : List Item :=
  d.params.flatMap (fun (_, id) => paramItems d id)
    ++ d.commands.flatMap (fun (_, id) => commandItems d id)

/-- Everything that the body defines, in a fixed order. -/
def items (d : Device) : List Item :=
  [.device]
    ++ paragraph (d.languagePacks.map .languagePack)
    ++ paragraph (d.sharedConstraints.map fun (_, id) => .constraint id)
    ++ unrepeated [] (trees d)
    ++ d.menuGroups.flatMap menuItems

/-- The definition of a variable of a type of the runtime. -/
def define (type name : String) (arguments : List String) : String :=
  runtime ++ "::" ++ type ++ " " ++ name ++ " " ++ braced arguments ++ ";"

def constraintName (c : Constraint) : String :=
  c.ident ++ (if c.isShared then "Constraint" else "ParamConstraint")

def descriptorName (p : Param) : String := p.ident ++ "Descriptor"

def menuGroupName (group : String) : String := "_" ++ group ++ "MenuGroup"

def scope (s : String) : String := "Scope(" ++ quote s ++ ")()"

def deviceText (s : Settings) : String :=
  "Device dm " ++ braced [
    toString s.slot.toNat,
    "DetailLevel(" ++ quote s.detailLevel.name ++ ")()",
    braced (s.accessScopes.map scope),
    (s.defaultScope.map scope).getD "\x7b\x7d",
    bool s.multiSet,
    bool s.subscriptions] ++ ";"

def rangeText (c : Constraint) (type : String) (literal : α → String) (r : Range α) : String :=
  define ("RangeConstraint<" ++ type ++ ">") (constraintName c)
    [literal r.min, literal r.max, literal r.step, literal r.displayMin, literal r.displayMax,
      quote c.oid, bool c.isShared, "dm"]

def choicesText (c : Constraint) (type : String) (literal : α → String)
    (choices : Choices (Choice α)) : String :=
  define ("NamedChoiceConstraint<" ++ type ++ ">") (constraintName c)
    [braced (choices.choices.map fun ch => braced [literal ch.value, pairs ch.name]),
      bool choices.strict, quote c.oid, bool c.isShared, "dm"]

def constraintText (c : Constraint) : String :=
  match c.rule with
  | .intRange r => rangeText c "int32_t" int r
  | .floatRange r => rangeText c "float" float r
  | .intChoice choices => choicesText c "int32_t" int choices
  | .stringChoice choices => choicesText c "std::string" quote choices
  | .picklist p =>
    define "PicklistConstraint" (constraintName c)
      [strings p.choices, bool p.strict, quote c.oid, bool c.isShared, "dm"]

def valueText (d : Device) (p : Param) : String :=
  paramType d .outside p ++ " " ++ p.oid ++
    match p.value with
    | some v => " = " ++ initializer d .outside v ++ ";"
    | none => "\x7b\x7d;"

def reference (name : Option String) : String :=
  match name with
  | some name => "&" ++ name
  | none => "nullptr"

def descriptorText (d : Device) (p : Param) : String :=
  define "ParamDescriptor" (descriptorName p) [
    "catena::ParamType::" ++ p.type.code.text,
    strings p.oidAliases,
    pairs p.name,
    optional p.widget,
    optional p.accessScope,
    bool p.readOnly,
    quote p.oid,
    reference ((p.constraint.bind d.constraint?).map constraintName),
    reference ((p.parent.bind d.param?).map descriptorName),
    "dm",
    bool p.isCommand]

def paramText (type value : String) (isCommand : Bool) (p : Param) : String :=
  define ("ParamWithValue<" ++ type ++ ">") (p.ident ++ "Param")
    [value, descriptorName p, "dm", bool isCommand]

def menuText (group : String) (m : Menu) : String :=
  define "Menu" ("_" ++ group ++ "_" ++ m.oid ++ "Menu") [
    pairs m.name,
    bool m.hidden,
    bool m.disabled,
    strings m.params,
    strings m.commands,
    pairs m.clientHints,
    quote m.oid,
    menuGroupName group]

def Item.text (d : Device) : Item → String
  | .blank => ""
  | .device => deviceText d.settings
  | .languagePack p =>
    define "LanguagePack" ("_" ++ p.id ++ "LanguagePack") [quote p.name, pairs p.words, "dm"]
  | .constraint id => ((d.constraint? id).map constraintText).getD ""
  | .value id => ((d.param? id).map (valueText d)).getD ""
  | .descriptor id => ((d.param? id).map (descriptorText d)).getD ""
  | .param id =>
    ((d.param? id).map fun p => paramText (paramType d .outside p) p.oid false p).getD ""
  | .command id =>
    ((d.param? id).map
      (paramText (runtime ++ "::EmptyValue") (runtime ++ "::emptyValue") true)).getD ""
  | .menuGroup g => define "MenuGroup" (menuGroupName g.oid) [quote g.oid, pairs g.name, "dm"]
  | .menu group m => menuText group m

/-- What stands before the first definition. -/
def preamble (headerName sourceName : String) : List Line :=
  banner sourceName
    ++ [⟨0, "#include \"" ++ headerName ++ "\""⟩, .blank]
    ++ includes ["Device.h", "LanguagePack.h", "Menu.h", "MenuGroup.h", "NamedChoiceConstraint.h",
      "ParamDescriptor.h", "ParamWithValue.h", "PicklistConstraint.h", "RangeConstraint.h"]
    ++ [.blank]
    ++ includes ["functional"]
    ++ [.blank,
      ⟨0, "using " ++ runtime ++ "::Device;"⟩,
      ⟨0, usingLine "DetailLevel" (runtime ++ "::DetailLevel")⟩,
      ⟨0, "using " ++ runtime ++ "::Scopes_e;"⟩,
      ⟨0, usingLine "Scope" "typename catena::patterns::EnumDecorator<Scopes_e>"⟩,
      .blank]

def body (d : Device) (headerName sourceName : String) : List Line :=
  preamble headerName sourceName ++ (items d).map fun i => ⟨0, i.text d⟩

end DeviceModel.Cpp
