import DeviceModel.Schema.Basic

namespace DeviceModel.Schema

def type (t : JsonType) : Schema := .types [t]

def texts (options : List String) : Schema := .oneOf (options.map .string)

/-- An object with no members besides the known ones. -/
def record (known : List (String × Schema)) : Schema := .all [type .object, .closed known]

/-- A record that needs some of its members. -/
def recordWith (required : List String) (known : List (String × Schema)) : Schema :=
  .all [type .object, .closed known, .required required]

def mapOf (s : Schema) : Schema := .all [type .object, .members [] s]

def listOf (s : Schema) : Schema := .all [type .array, .items s]

def range (number : Schema) : Schema :=
  record [
    ("min_value", number), ("max_value", number), ("min", number), ("max", number),
    ("step", number),
    ("display_min", number), ("display_max", number)]

def choices (item : Schema) : Schema :=
  recordWith ["choices"] [("choices", listOf item), ("strict", type .boolean)]

def namedChoice (value : Schema) : Schema :=
  recordWith ["value"] [("value", value), ("name", .reference "polyglot_text")]

def value : Schema :=
  .all [type .object, .minProperties 1, .maxProperties 1, .closed [
    ("string_value", type .string),
    ("int32_value", type .integer),
    ("float32_value", type .number),
    ("string_array_values", record [("strings", listOf (type .string))]),
    ("int32_array_values", record [("ints", listOf (type .integer))]),
    ("float32_array_values", record [("floats", listOf (type .number))]),
    ("struct_value", .reference "struct_value"),
    ("struct_array_values", record [("struct_values", listOf (.reference "struct_value"))]),
    ("struct_variant_value", .reference "variant_value"),
    ("struct_variant_array_values",
      record [("struct_variants", listOf (.reference "variant_value"))])]]

/-- A field by itself or under `value`. -/
def fieldValue : Schema :=
  .anyOf [
    .all [type .object, .required ["value"], .closed [("value", .reference "value")]],
    .reference "value"]

def param : Schema :=
  record [
    ("type", .reference "param_type"),
    ("name", .reference "polyglot_text"),
    ("oid_aliases", listOf (type .string)),
    ("widget", type .string),
    ("access_scope", type .string),
    ("read_only", type .boolean),
    ("template_oid", type .string),
    ("constraint", .reference "constraint"),
    ("value", .reference "value"),
    ("params", .reference "params"),
    ("import", .reference "import")]

def constraint : Schema :=
  record [
    ("type",
      texts ["INT_RANGE", "FLOAT_RANGE", "INT_CHOICE", "STRING_STRING_CHOICE", "STRING_CHOICE",
      "ALARM_TABLE"]),
    ("ref_oid", type .string),
    ("int32_range", range (type .integer)),
    ("float_range", range (type .number)),
    ("int32_choice", choices (namedChoice (type .integer))),
    ("string_string_choice", choices (namedChoice (type .string))),
    ("string_choice", choices (type .string)),
    ("alarm_table", type .object)]

def menu : Schema :=
  record [
    ("name", .reference "polyglot_text"),
    ("hidden", type .boolean),
    ("disabled", type .boolean),
    ("param_oids", listOf (type .string)),
    ("command_oids", listOf (type .string)),
    ("client_hints", mapOf (type .string))]

def deviceDefinitions : Definitions := [
  ("polyglot_text", record [("display_strings", mapOf (type .string))]),
  ("param_type",
    texts ["EMPTY", "STRING", "INT32", "FLOAT32", "STRING_ARRAY", "INT32_ARRAY", "FLOAT32_ARRAY",
    "STRUCT", "STRUCT_ARRAY", "STRUCT_VARIANT", "STRUCT_VARIANT_ARRAY"]),
  ("params", .all [type .object, .propertyNames .identifier, .members [] (.reference "param")]),
  ("param", param),
  ("import", record [("url", type .string), ("file", type .string)]),
  ("constraint", constraint),
  ("value", value),
  ("struct_value", record [("fields", mapOf fieldValue)]),
  ("variant_value", recordWith ["struct_variant_type", "value"]
    [("struct_variant_type", type .string), ("value", .reference "value")])]

def device : Schema :=
  record [
    ("slot", .all [type .integer, .minimum (.int 0)]),
    ("detail_level", texts ["FULL", "SUBSCRIPTIONS", "MINIMAL", "COMMANDS", "NONE"]),
    ("access_scopes", listOf (type .string)),
    ("default_scope", type .string),
    ("multi_set_enabled", type .boolean),
    ("subscriptions", type .boolean),
    ("constraints", mapOf (.reference "constraint")),
    ("params", .reference "params"),
    ("commands", .reference "params"),
    ("menu_groups", mapOf (record [("name", .reference "polyglot_text"), ("menus", mapOf menu)])),
    ("language_packs",
      record [("packs", mapOf (record [("name", type .string), ("words", mapOf (type .string))]))])]

end DeviceModel.Schema
