import DeviceModel.Entries
import DeviceModel.Number.Binary

namespace DeviceModel.Description

open Number

/-- A value as it is written, under the tag that says what it is. The value of a field may be
wrapped in a record of its own or stand bare; both forms are read as the same value, so neither is
kept. -/
inductive Value where
  | string (s : String)
  | int32 (i : Int32)
  | float32 (x : Single)
  | strings (items : List String)
  | int32s (items : List Int32)
  | float32s (items : List Single)
  | struct (fields : List (String × Value))
  | structs (items : List (List (String × Value)))
  | variant (alternative : String) (value : Value)
  | variants (items : List (String × Value))
  deriving Repr

namespace Value

def tags : List String :=
  ["string_value", "int32_value", "float32_value", "string_array_values", "int32_array_values",
    "float32_array_values", "struct_value", "struct_array_values", "struct_variant_value",
    "struct_variant_array_values"]

def tag : Value → String
  | .string _ => "string_value"
  | .int32 _ => "int32_value"
  | .float32 _ => "float32_value"
  | .strings _ => "string_array_values"
  | .int32s _ => "int32_array_values"
  | .float32s _ => "float32_array_values"
  | .struct _ => "struct_value"
  | .structs _ => "struct_array_values"
  | .variant _ _ => "struct_variant_value"
  | .variants _ => "struct_variant_array_values"

end Value

end DeviceModel.Description
