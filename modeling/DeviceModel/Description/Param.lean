import DeviceModel.Description.Constraint
import DeviceModel.Description.Value

namespace DeviceModel.Description

structure Import where
  url : Option String
  file : Option String
  deriving Repr

/-- What a parameter says about itself. -/
structure Declaration where
  type : Option String
  name : Polyglot
  oidAliases : List String
  widget : Option String
  accessScope : Option String
  readOnly : Bool
  template : Option String
  constraint : Option Constraint
  value : Option Value
  source : Option Import
  deriving Repr

structure Param extends Declaration where
  params : List (String × Param)
  deriving Repr

end DeviceModel.Description
