import DeviceModel.Device.Basic
import DeviceModel.Json

namespace DeviceModel.Device

/-- What is said of a parameter, its template and constraint, and what is below it. -/
def account (p : Param) (template : Option Param) (constraint : Option Constraint)
    (below : List Json) : Json :=
  .object (
    [("oid", .string p.fqoid), ("type", .string p.type.code.text)]
    ++ (template.map fun t => ("template", .string t.fqoid)).toList
    ++ (constraint.map fun c =>
        ("constraint",
          .object [("kind", .string c.rule.code), ("shared", .bool c.isShared)])).toList
    ++ (if p.value.isSome then [("has_value", .bool true)] else [])
    ++ (if p.children.isEmpty then [] else [("params", .array below)]))

/-- A parameter and those below it, no deeper than given. -/
def summaryWithin (d : Device) : Nat → ParamId → Json
  | 0, _ => .null
  | depth + 1, id =>
    match d.param? id with
    | none => .null
    | some p =>
      account p (p.template.bind d.param?) (p.constraint.bind d.constraint?)
        (p.children.map fun (_, c) => d.summaryWithin depth c)

def paramSummary (d : Device) (id : ParamId) : Json := d.summaryWithin (d.nodes.size + 1) id

/-- What is said of the whole device, with what is said of its parameters and commands. -/
def overview (d : Device) (params commands : List Json) : Json :=
  .object [
    ("namespace", .string d.ns),
    ("slot", .int d.settings.slot.toNat),
    ("detail_level", .string d.settings.detailLevel.name),
    ("access_scopes", Json.strings d.settings.accessScopes),
    ("default_scope", Json.ofOption Json.string d.settings.defaultScope),
    ("shared_constraints", Json.strings d.sharedConstraints.keys),
    ("params", .array params),
    ("commands", .array commands),
    ("types", .array (d.types.toList.map fun t =>
      .object [("name", .string t.qualifiedName), ("kind", .string t.shapeName)])),
    ("menu_groups", .array (d.menuGroups.map fun g =>
      .object [("oid", .string g.oid), ("menus", Json.strings (g.menus.map Menu.oid))])),
    ("language_packs", Json.strings (d.languagePacks.map LanguagePack.id))]

def summary (d : Device) : Json :=
  let tree (realm : Realm) := (d.roots realm).map fun (_, id) => d.paramSummary id
  d.overview (tree .params) (tree .commands)

end DeviceModel.Device
