import DeviceModel.Entries
import DeviceModel.Number.Binary

namespace DeviceModel.Description

open Number

structure Range (α : Type) where
  min : α
  max : α
  step : Option α
  displayMin : Option α
  displayMax : Option α
  deriving Repr

structure Choice (α : Type) where
  value : α
  name : Polyglot
  deriving Repr

/-- Choices; `strict` says whether a value must be one of them. -/
structure Choices (α : Type) where
  choices : List α
  strict : Option Bool
  deriving Repr

/-- A reference to a shared constraint, or a type code with a payload for it. Payloads for other
codes may stand beside it. -/
structure Constraint where
  type : Option String
  reference : Option String
  intRange : Option (Range Int32)
  floatRange : Option (Range Single)
  intChoice : Option (Choices (Choice Int32))
  namedChoice : Option (Choices (Choice String))
  picklist : Option (Choices String)
  deriving Repr

end DeviceModel.Description
