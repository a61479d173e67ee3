import DeviceModel.Number.Layout
import DeviceModel.Resolve.Error

namespace DeviceModel

open Number

/-- Numbers that a range can run over. -/
class Bound (α : Type) where
  one : α
  isPositive : α → Bool
  exceeds : α → α → Bool
  text : α → String

instance : Bound Int32 where
  one := 1
  isPositive i := 0 < i
  exceeds a b := b < a
  text i := toString i.toInt

instance : Bound Single where
  one := .one
  isPositive x := Single.zero.lt x
  exceeds a b := b.lt a
  text := Single.plain

namespace Rule

abbrev Checked (α : Type) := Except ConstraintFault α

def checkRange [Bound α] (r : Description.Range α) : Checked (Range α) := do
  if Bound.exceeds r.min r.max then throw (.bounds (Bound.text r.min) (Bound.text r.max))
  let step := r.step.getD Bound.one
  unless Bound.isPositive step do throw (.step (Bound.text step))
  let displayMin := r.displayMin.getD r.min
  let displayMax := r.displayMax.getD r.max
  if Bound.exceeds displayMin displayMax then
    throw (.displayBounds (Bound.text displayMin) (Bound.text displayMax))
  return { min := r.min, max := r.max, step, displayMin, displayMax }

/-- There are choices, and no two have the same value. -/
def checkChoices [BEq α] (text : α → String) (values : List α) : Checked Unit := do
  if values.isEmpty then throw .noChoices
  match firstRepeat? [] values with
  | some v => throw (.repeatedChoice (text v))
  | none => pure ()

def checkNamedChoices [BEq α] (text : α → String) (c : Description.Choices (Description.Choice α)) :
    Checked (Choices (Choice α)) := do
  checkChoices text (c.choices.map (·.value))
  return { choices := c.choices.map fun ch => ⟨ch.value, ch.name⟩, strict := c.strict.getD false }

def checkPicklist (c : Description.Choices String) : Checked (Choices String) := do
  checkChoices id c.choices
  return { choices := c.choices, strict := c.strict.getD false }

def payload (given : Option α) (check : α → Checked β) : Checked β :=
  match given with
  | some a => check a
  | none => throw .noPayload

/-- The rule that a constraint states. The oid is only for the error. -/
def classify (oid : String) (c : Description.Constraint) : Except ResolveError Rule :=
  let code := c.type.getD ""
  let invalid (r : Checked Rule) := r.mapError (.invalidConstraint oid code)
  match code with
  | "INT_RANGE" => invalid (.intRange <$> payload c.intRange checkRange)
  | "FLOAT_RANGE" => invalid (.floatRange <$> payload c.floatRange checkRange)
  | "INT_CHOICE" => invalid (.intChoice <$> payload c.intChoice (checkNamedChoices Bound.text))
  | "STRING_STRING_CHOICE" =>
    invalid (.stringChoice <$> payload c.namedChoice (checkNamedChoices id))
  | "STRING_CHOICE" => invalid (.picklist <$> payload c.picklist checkPicklist)
  | "ALARM_TABLE" => .error (.unsupportedConstraint oid code)
  | _ => .error (.unknownConstraint oid code)

end Rule

end DeviceModel
