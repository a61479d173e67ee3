import DeviceModel.Device.Basic
import DeviceModel.Document.Format
import DeviceModel.Json
import DeviceModel.Source.Basic

namespace DeviceModel

inductive DocumentFault where
  | extension
  | noFileName
  | fileName
  | notIdentifier (ns : String)
  | unreadable (e : SourceError)
  | unparsable
  deriving DecidableEq, Repr

namespace DocumentFault

def message : DocumentFault → String
  | .extension => "expected a .json, .yaml or .yml file"
  | .noFileName => "file name is not valid UTF-8"
  | .fileName => "device model files must be named device.<namespace>.json or .yaml"
  | .notIdentifier ns => s!"namespace '{ns}' is not a valid identifier"
  | .unreadable e => "cannot read file: " ++ e.message
  | .unparsable => Document.parseFailure

end DocumentFault

inductive ImportFault where
  | url
  | noTarget
  | cycle
  | unidentified (e : SourceError)
  | unreadable (path : Path) (e : SourceError)
  | unparsable (path : Path)
  deriving DecidableEq, Repr

namespace ImportFault

def message : ImportFault → String
  | .url => "only \x7b\"url\": \"include\"\x7d imports are supported"
  | .noTarget => "import needs a url or a file"
  | .cycle => "import cycle"
  | .unidentified e => e.message
  | .unreadable path e => "cannot read " ++ path.text ++ ": " ++ e.message
  | .unparsable path => path.text ++ ": " ++ Document.parseFailure

end ImportFault

inductive ConstraintFault where
  | noPayload
  | bounds (min max : String)
  | step (step : String)
  | displayBounds (min max : String)
  | noChoices
  | repeatedChoice (choice : String)
  | sharedReference
  | referenceWithType
  deriving DecidableEq, Repr

namespace ConstraintFault

def message : ConstraintFault → String
  | .noPayload => "missing constraint payload"
  | .bounds min max => s!"min {min} exceeds max {max}"
  | .step text => s!"step {text} must be positive"
  | .displayBounds min max => s!"display min {min} exceeds display max {max}"
  | .noChoices => "no choices given"
  | .repeatedChoice choice => s!"choice '{choice}' appears twice"
  | .sharedReference => "a shared constraint cannot reference another constraint"
  | .referenceWithType => "ref_oid cannot be combined with an inline definition"

end ConstraintFault

inductive CommandFault where
  | template
  | value
  deriving DecidableEq, Repr

namespace CommandFault

def message : CommandFault → String
  | .template => "commands cannot use a template"
  | .value => "commands cannot carry a value"

end CommandFault

/-- The last two never arise: no reference is to nothing, and no chain of imports is longer than the
number of documents. -/
inductive ResolveError where
  | document (path : Path) (fault : DocumentFault)
  | unknownType (oid code : String)
  | unknownConstraint (oid code : String)
  | unsupportedConstraint (oid code : String)
  | invalidConstraint (oid code : String) (fault : ConstraintFault)
  | constraintMismatch (oid code : String) (type : TypeCode)
  | missingConstraint (oid constraint : String)
  | missingTemplate (oid template : String)
  | templateMismatch (oid : String) (declared : TypeCode) (template : String) (type : TypeCode)
  | paramsBesideTemplate (oid : String)
  | valueMismatch (oid expected found : String)
  | unknownField (oid field : String)
  | unknownAlternative (oid alternative : String) (available : List String)
  | unexpectedParams (oid : String) (type : TypeCode)
  | emptyVariant (oid : String)
  | duplicateOid (scope oid : String)
  | importFailed (oid target : String) (fault : ImportFault)
  | invalidCommand (oid : String) (fault : CommandFault)
  | nameClash (oid ident other : String)
  | missingMenuTarget (menu : String) (realm : Realm) (target : String)
  | defaultScope (scope : String) (scopes : List String)
  | dangling (oid : String)
  | importDepth (oid : String)
  deriving DecidableEq, Repr

namespace ResolveError

def targetKind : Realm → String
  | .params => "param"
  | .commands => "command"

def kind : ResolveError → String
  | .document _ _ => "document"
  | .unknownType _ _ => "unknown_param_type"
  | .unknownConstraint _ _ => "unknown_constraint_type"
  | .unsupportedConstraint _ _ => "unsupported_constraint"
  | .invalidConstraint _ _ _ => "invalid_constraint"
  | .constraintMismatch _ _ _ => "constraint_type_mismatch"
  | .missingConstraint _ _ => "missing_shared_constraint"
  | .missingTemplate _ _ => "missing_template"
  | .templateMismatch _ _ _ _ => "template_type_mismatch"
  | .paramsBesideTemplate _ => "invalid_template"
  | .valueMismatch _ _ _ => "value_type_mismatch"
  | .unknownField _ _ => "unknown_field"
  | .unknownAlternative _ _ _ => "unknown_alternative"
  | .unexpectedParams _ _ => "unexpected_params"
  | .emptyVariant _ => "empty_variant"
  | .duplicateOid _ _ => "duplicate_oid"
  | .importFailed _ _ _ => "import"
  | .invalidCommand _ _ => "invalid_command"
  | .nameClash _ _ _ => "name_clash"
  | .missingMenuTarget _ _ _ => "missing_menu_target"
  | .defaultScope _ _ => "invalid_device"
  | .dangling _ => "dangling_reference"
  | .importDepth _ => "import_depth"

/-- What the fault is about, if it is one thing. -/
def oid? : ResolveError → Option String
  | .document _ _ => none
  | .unknownType oid _ => some oid
  | .unknownConstraint oid _ => some oid
  | .unsupportedConstraint oid _ => some oid
  | .invalidConstraint oid _ _ => some oid
  | .constraintMismatch oid _ _ => some oid
  | .missingConstraint oid _ => some oid
  | .missingTemplate oid _ => some oid
  | .templateMismatch oid _ _ _ => some oid
  | .paramsBesideTemplate oid => some oid
  | .valueMismatch oid _ _ => some oid
  | .unknownField oid _ => some oid
  | .unknownAlternative oid _ _ => some oid
  | .unexpectedParams oid _ => some oid
  | .emptyVariant oid => some oid
  | .duplicateOid _ oid => some oid
  | .importFailed oid _ _ => some oid
  | .invalidCommand oid _ => some oid
  | .nameClash oid _ _ => some oid
  | .missingMenuTarget menu _ _ => some menu
  | .defaultScope _ _ => none
  | .dangling oid => some oid
  | .importDepth oid => some oid

def message : ResolveError → String
  | .document path fault => path.text ++ ": " ++ fault.message
  | .unknownType oid code => s!"{oid}: unknown parameter type '{code}'"
  | .unknownConstraint oid code => s!"{oid}: unknown constraint type '{code}'"
  | .unsupportedConstraint oid code => s!"{oid}: {code} constraints are not supported"
  | .invalidConstraint oid code fault => s!"{oid}: invalid {code} constraint: " ++ fault.message
  | .constraintMismatch oid code type =>
    s!"{oid}: {code} constraint cannot apply to a " ++ type.text ++ " parameter"
  | .missingConstraint oid constraint => s!"{oid}: missing shared constraint '{constraint}'"
  | .missingTemplate oid template =>
    s!"{oid}: missing template '{template}' (templates must be declared before use)"
  | .templateMismatch oid declared template type =>
    s!"{oid}: declared type " ++ declared.text ++
      s!" is not compatible with template '{template}' of type " ++ type.text
  | .paramsBesideTemplate oid => s!"{oid}: a templated parameter takes its params from the template"
  | .valueMismatch oid expected found => s!"{oid}: expected {expected} but the value is {found}"
  | .unknownField oid field => s!"{oid}: struct value sets undeclared field '{field}'"
  | .unknownAlternative oid alternative available =>
    s!"{oid}: '{alternative}' is not an alternative of this variant (expected one of: "
      ++ Text.join ", " available ++ ")"
  | .unexpectedParams oid type => s!"{oid}: a " ++ type.text ++ " parameter cannot declare params"
  | .emptyVariant oid => s!"{oid}: a struct variant needs at least one alternative"
  | .duplicateOid scope oid => s!"duplicate oid '{oid}' in {scope}"
  | .importFailed oid target fault => s!"{oid}: cannot import '{target}': " ++ fault.message
  | .invalidCommand oid fault => s!"{oid}: invalid command: " ++ fault.message
  | .nameClash oid ident other => s!"{oid}: generated name '{ident}' is already taken by '{other}'"
  | .missingMenuTarget menu realm target =>
    s!"menu '{menu}' references unknown " ++ targetKind realm ++ s!" '{target}'"
  | .defaultScope scope scopes =>
    s!"device: default_scope '{scope}' is not one of the access scopes (" ++
      Text.join ", " scopes ++ ")"
  | .dangling oid => s!"{oid}: reference to nothing"
  | .importDepth oid => s!"{oid}: imports too deep"

def toJson (e : ResolveError) : Json :=
  .object [
    ("kind", .string e.kind),
    ("oid", Json.ofOption Json.string e.oid?),
    ("message", .string e.message)]

end ResolveError

end DeviceModel
