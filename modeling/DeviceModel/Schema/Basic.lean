import DeviceModel.Json.Compare
import DeviceModel.Text.Identifier

namespace DeviceModel

inductive JsonType where
  | array
  | boolean
  | integer
  | null
  | number
  | object
  | string
  deriving DecidableEq, Repr

namespace JsonType

/-- In the order in which messages list them. -/
def all : List JsonType := [.array, .boolean, .integer, .null, .number, .object, .string]

def name : JsonType → String
  | .array => "array"
  | .boolean => "boolean"
  | .integer => "integer"
  | .null => "null"
  | .number => "number"
  | .object => "object"
  | .string => "string"

/-- A number without a fraction is an integer, however it is written. -/
def admits : JsonType → Json → Bool
  | .array, .array _ => true
  | .boolean, .bool _ => true
  | .integer, v => v.isInteger
  | .null, .null => true
  | .number, v => v.isNumber
  | .object, .object _ => true
  | .string, .string _ => true
  | _, _ => false

end JsonType

/-- Demands on a JSON value. A demand on values of one type says nothing about others. -/
inductive Schema where
  | always
  | never
  | all (demands : List Schema)
  | types (options : List JsonType)
  | oneOf (options : List Json)
  | minimum (limit : Json)
  | identifier
  | minProperties (n : Nat)
  | maxProperties (n : Nat)
  | required (names : List String)
  | propertyNames (names : Schema)
  | properties (known : List (String × Schema))
  | closed (known : List (String × Schema))
  | members (known : List (String × Schema)) (others : Schema)
  | items (item : Schema)
  | anyOf (options : List Schema)
  | reference (name : String)
  deriving Repr

namespace Schema

inductive Violation where
  | refused (v : Json)
  | type (v : Json) (options : List JsonType)
  | notAnOption (v : Json) (options : List Json)
  | belowMinimum (v limit : Json)
  | notAnIdentifier (s : String)
  | tooFewProperties (v : Json) (n : Nat)
  | tooManyProperties (v : Json) (n : Nat)
  | missing (name : String)
  | unexpected (names : List String)
  | noAlternative (v : Json)
  deriving Repr

namespace Violation

/-- All of up to three texts; of more, the first two and how many there are besides. -/
def candidates : List String → String
  | [] => ""
  | [a] => a
  | [a, b] => a ++ " or " ++ b
  | [a, b, c] => a ++ ", " ++ b ++ " or " ++ c
  | a :: b :: rest => a ++ ", " ++ b ++ " or " ++ toString rest.length ++ " other candidates"

def count (n : Nat) : String := toString n ++ (if n = 1 then " property" else " properties")

/-- What an identifier looks like, as a pattern. -/
def identifierPattern : String := "^[A-Za-z_][A-Za-z0-9_]*$"

def message : Violation → String
  | .refused v => "False schema does not allow " ++ v.compact
  | .type v options =>
    v.compact ++ (if options.length = 1 then " is not of type " else " is not of types ")
      ++ Text.join ", " (options.map fun t => Json.quote t.name)
  | .notAnOption v options =>
    v.compact ++ " is not one of " ++ candidates (options.map Json.compact)
  | .belowMinimum v limit => v.compact ++ " is less than the minimum of " ++ limit.compact
  | .notAnIdentifier s => Json.quote s ++ " does not match " ++ Json.quote identifierPattern
  | .tooFewProperties v n => v.compact ++ " has less than " ++ count n
  | .tooManyProperties v n => v.compact ++ " has more than " ++ count n
  | .missing name => Json.quote name ++ " is a required property"
  | .unexpected names =>
    "Additional properties are not allowed (" ++ Text.join ", " (names.map fun n => "'" ++ n ++ "'")
      ++ (if names.length = 1 then " was" else " were") ++ " unexpected)"
  | .noAlternative v =>
    v.compact ++ " is not valid under any of the schemas listed in the 'anyOf' keyword"

end Violation

/-- Members of a value, if it is an object. -/
def membersOf : Json → List (String × Json)
  | .object m => m
  | _ => []

def itemsOf : Json → List Json
  | .array a => a
  | _ => []

mutual

/-- Demands that a value does not meet. `named` knows those of the schemas that go by a name. -/
def violationsWith (named : String → Json → List Violation) : Schema → Json → List Violation
  | .always, _ => []
  | .never, v => [.refused v]
  | .all demands, v => violationsOfAll named demands v
  | .types options, v => if options.any (·.admits v) then [] else [.type v options]
  | .oneOf options, v => if options.any (·.same v) then [] else [.notAnOption v options]
  | .minimum limit, v => if v.isLess limit then [.belowMinimum v limit] else []
  | .identifier, .string s => if Text.isIdentifier s then [] else [.notAnIdentifier s]
  | .identifier, _ => []
  | .minProperties n, .object m => if m.length < n then [.tooFewProperties (.object m) n] else []
  | .minProperties _, _ => []
  | .maxProperties n, .object m => if n < m.length then [.tooManyProperties (.object m) n] else []
  | .maxProperties _, _ => []
  | .required names, .object m => (names.filter fun n => (m.lookup n).isNone).map .missing
  | .required _, _ => []
  | .propertyNames names, v =>
    (membersOf v).flatMap fun (key, _) => violationsWith named names (.string key)
  | .properties known, v => violationsOfKnown named known (membersOf v)
  | .closed known, v =>
    let given := membersOf v
    let unexpected := (given.filter fun (key, _) => !(known.map Prod.fst).contains key).map Prod.fst
    (given.flatMap fun (key, inner) => (violationsOfMember named known key inner).getD [])
      ++ (if unexpected.isEmpty then [] else [.unexpected unexpected])
  | .members known others, v =>
    (membersOf v).flatMap fun (key, inner) =>
      (violationsOfMember named known key inner).getD (violationsWith named others inner)
  | .items item, v => (itemsOf v).flatMap (violationsWith named item)
  | .anyOf options, v => if satisfiesAny named options v then [] else [.noAlternative v]
  | .reference name, v => named name v

def violationsOfAll (named : String → Json → List Violation) : List Schema → Json → List Violation
  | [], _ => []
  | s :: rest, v => violationsWith named s v ++ violationsOfAll named rest v

/-- Of the members that have a schema, in the order of the schemas. -/
def violationsOfKnown (named : String → Json → List Violation) :
    List (String × Schema) → List (String × Json) → List Violation
  | [], _ => []
  | (key, s) :: rest, given =>
    (match given.lookup key with
      | some v => violationsWith named s v
      | none => []) ++ violationsOfKnown named rest given

/-- Of one member, if there is a schema for it. -/
def violationsOfMember (named : String → Json → List Violation) :
    List (String × Schema) → String → Json → Option (List Violation)
  | [], _, _ => none
  | (name, s) :: rest, key, v =>
    if name == key then some (violationsWith named s v) else violationsOfMember named rest key v

def satisfiesAny (named : String → Json → List Violation) : List Schema → Json → Bool
  | [], _ => false
  | s :: rest, v => (violationsWith named s v).isEmpty || satisfiesAny named rest v

end

/-- Schemas that go by a name, which may refer to one another and to themselves. -/
abbrev Definitions := List (String × Schema)

/-- The violations of a named schema; references go no deeper than given. -/
def violationsOfNamed (defs : Definitions) : Nat → String → Json → List Violation
  | 0, _, _ => []
  | depth + 1, name, v =>
    match defs.lookup name with
    | some s => violationsWith (violationsOfNamed defs depth) s v
    | none => []

/-- Demands of a schema that a value does not meet. Between two references there is always a step
down into the value, so its depth bounds them. -/
def violations (defs : Definitions) (s : Schema) (v : Json) : List Violation :=
  violationsWith (violationsOfNamed defs (v.depth + 2)) s v

end Schema

end DeviceModel
