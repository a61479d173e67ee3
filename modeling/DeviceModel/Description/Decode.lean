import DeviceModel.Description.Device
import DeviceModel.Document.Decode
import DeviceModel.Document.Format

namespace DeviceModel.Description

open Document Document.Decode Number

namespace Decode

/-- Text by language, under the field that holds it. -/
def displayName : Decoder Polyglot := fun p => do
  let [strings] ← fields ["display_strings"] p | failure
  withDefault [] polyglot strings

def range (item : Decoder α) : Decoder (Range α) := fun p => do
  let [min, max, step, displayMin, displayMax] ←
    record [["min_value", "min"], ["max_value", "max"], ["step"], ["display_min"],
      ["display_max"]] p | failure
  return { min := ← required item min
           max := ← required item max
           step := ← optional item step
           displayMin := ← optional item displayMin
           displayMax := ← optional item displayMax }

def choice (item : Decoder α) : Decoder (Choice α) := fun p => do
  let [value, name] ← fields ["value", "name"] p | failure
  return { value := ← required item value, name := ← withDefault [] displayName name }

def choices (item : Decoder α) : Decoder (Choices α) := fun p => do
  let [choices, strict] ← fields ["choices", "strict"] p | failure
  return { choices := ← withDefault [] (list item) choices, strict := ← optional bool strict }

def constraint : Decoder Constraint := fun p => do
  let [type, reference, intRange, floatRange, intChoice, namedChoice, picklist] ←
    fields ["type", "ref_oid", "int32_range", "float_range", "int32_choice", "string_string_choice",
      "string_choice"] p | failure
  return { type := ← optional string type
           reference := ← optional string reference
           intRange := ← optional (range int32) intRange
           floatRange := ← optional (range single) floatRange
           intChoice := ← optional (choices (choice int32)) intChoice
           namedChoice := ← optional (choices (choice string)) namedChoice
           picklist := ← optional (choices string) picklist }

/-- The only field of a record, a list. -/
def listField (name : String) (item : Decoder α) : Decoder (List α) := fun p => do
  let [items] ← fields [name] p | failure
  withDefault [] (list item) items

def wrapped (value : Decoder Value) : Decoder Value := fun p => do
  let [inner] ← fields ["value"] p | failure
  required value inner

/-- A field of a struct value: under `value`, or by itself. It is read in full first, so a plain
number is no text here. -/
def fieldValue (value : Decoder Value) : Decoder Value := fun p => do
  let p ← p.settle
  match p.node with
  | .map _ => wrapped value p <|> value p
  | _ => failure

def structFields (value : Decoder Value) : Decoder (List (String × Value)) := fun p => do
  let [given] ← fields ["fields"] p | failure
  withDefault [] (entries (fieldValue value)) given

def alternative (value : Decoder Value) : Decoder (String × Value) := fun p => do
  let [type, given] ← fields ["struct_variant_type", "value"] p | failure
  return (← required string type, ← required value given)

/-- A value; `depth` bounds how many values lie within one another. -/
def valueWithin : Nat → Decoder Value
  | 0, _ => failure
  | depth + 1, p => do
    let inner := valueWithin depth
    let (i, p) ← tagged Value.tags p
    match i with
    | 0 => .string <$> string p
    | 1 => .int32 <$> int32 p
    | 2 => .float32 <$> single p
    | 3 => .strings <$> listField "strings" string p
    | 4 => .int32s <$> listField "ints" int32 p
    | 5 => .float32s <$> listField "floats" single p
    | 6 => .struct <$> structFields inner p
    | 7 => .structs <$> listField "struct_values" (structFields inner) p
    | 8 => (fun (name, v) => .variant name v) <$> alternative inner p
    | 9 => .variants <$> listField "struct_variants" (alternative inner) p
    | _ => failure

/-- A value. One within another lies at least a level deeper. -/
def value : Decoder Value := fun p => valueWithin (p.levels + 1) p

def importSource : Decoder Import := fun p => do
  let [url, file] ← fields ["url", "file"] p | failure
  return { url := ← optional string url, file := ← optional string file }

/-- A parameter; `depth` bounds how many lie within one another. -/
def paramWithin : Nat → Decoder Param
  | 0, _ => failure
  | depth + 1, p => do
    let [type, name, oidAliases, widget, accessScope, readOnly, template, constraint', given,
        params, source] ←
      fields ["type", "name", "oid_aliases", "widget", "access_scope", "read_only", "template_oid",
        "constraint", "value", "params", "import"] p | failure
    return { type := ← optional string type
             name := (← optional displayName name).getD []
             oidAliases := ← withDefault [] (list string) oidAliases
             widget := ← optional string widget
             accessScope := ← optional string accessScope
             readOnly := ← withDefault false bool readOnly
             template := ← optional string template
             constraint := ← optional constraint constraint'
             value := ← optional value given
             source := ← optional importSource source
             params := ← withDefault [] (entries (paramWithin depth)) params }

def param : Decoder Param := fun p => paramWithin (p.levels + 1) p

def detailLevel : Decoder DetailLevel := fun p => do
  match ← variant DetailLevel.names p with
  | (i, none) => DetailLevel.ofIndex? i
  | (i, some unit) => if (← unit.follow).node.isNull then DetailLevel.ofIndex? i else failure

def menu (oid : String) : Decoder Menu := fun p => do
  let [name, hidden, disabled, params, commands, clientHints] ←
    fields ["name", "hidden", "disabled", "param_oids", "command_oids", "client_hints"] p | failure
  return { oid
           name := (← optional displayName name).getD []
           hidden := ← withDefault false bool hidden
           disabled := ← withDefault false bool disabled
           params := ← withDefault [] (list string) params
           commands := ← withDefault [] (list string) commands
           clientHints := ← withDefault [] polyglot clientHints }

def menuGroup (oid : String) : Decoder MenuGroup := fun p => do
  let [name, menus] ← fields ["name", "menus"] p | failure
  return { oid
           name := (← optional displayName name).getD []
           menus := ← withDefault [] (named menu) menus }

def languagePack (id : String) : Decoder LanguagePack := fun p => do
  let [name, words] ← fields ["name", "words"] p | failure
  return { id, name := ← withDefault "" string name, words := ← withDefault [] polyglot words }

def languagePacks : Decoder (List LanguagePack) := fun p => do
  let [packs] ← fields ["packs"] p | failure
  withDefault [] (named languagePack) packs

def device : Decoder Device := fun p => do
  let [slot, detail, accessScopes, defaultScope, multiSet, subscriptions, constraints, params,
      commands, menuGroups, packs] ←
    fields ["slot", "detail_level", "access_scopes", "default_scope", "multi_set_enabled",
      "subscriptions", "constraints", "params", "commands", "menu_groups",
      "language_packs"] p | failure
  let settings : Settings :=
    { slot := ← withDefault 0 uint32 slot
      detailLevel := ← withDefault .full detailLevel detail
      accessScopes := ← withDefault [] (list string) accessScopes
      defaultScope := ← optional string defaultScope
      multiSet := ← withDefault false bool multiSet
      subscriptions := ← withDefault false bool subscriptions }
  return { settings
           constraints := ← withDefault [] (entries constraint) constraints
           params := ← withDefault [] (entries param) params
           commands := ← withDefault [] (entries param) commands
           menuGroups := ← withDefault [] (named menuGroup) menuGroups
           languagePacks := (← optional languagePacks packs).getD [] }

end Decode

/-- A text in a format, read as what it describes. -/
def read? (decode : Decoder α) (f : Format) (text : String) : Option α := do
  let t ← f.read? text
  (decode (.top t)).run' t.references

end DeviceModel.Description
