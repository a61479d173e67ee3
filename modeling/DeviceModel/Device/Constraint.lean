import DeviceModel.Device.Types

namespace DeviceModel

open Number

structure Range (α : Type) where
  min : α
  max : α
  step : α
  displayMin : α
  displayMax : α
  deriving Repr

structure Choice (α : Type) where
  value : α
  name : Polyglot
  deriving Repr

structure Choices (α : Type) where
  choices : List α
  strict : Bool
  deriving Repr

inductive Rule where
  | intRange (r : Range Int32)
  | floatRange (r : Range Single)
  | intChoice (c : Choices (Choice Int32))
  | stringChoice (c : Choices (Choice String))
  | picklist (c : Choices String)
  deriving Repr

namespace Rule

def code : Rule → String
  | .intRange _ => "INT_RANGE"
  | .floatRange _ => "FLOAT_RANGE"
  | .intChoice _ => "INT_CHOICE"
  | .stringChoice _ => "STRING_STRING_CHOICE"
  | .picklist _ => "STRING_CHOICE"

/-- The kind of value that the rule is about. -/
def kind : Rule → Kind
  | .intRange _ => .int32
  | .floatRange _ => .float32
  | .intChoice _ => .int32
  | .stringChoice _ => .string
  | .picklist _ => .string

end Rule

/-- A constraint without an owner is shared by the whole device. -/
structure Constraint where
  oid : String
  ident : String
  owner : Option ParamId
  rule : Rule
  deriving Repr

namespace Constraint

def isShared (c : Constraint) : Bool := c.owner.isNone

end Constraint

end DeviceModel
