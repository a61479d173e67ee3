import DeviceModel.CommandLine.Report
import DeviceModel.Device.Summary
import DeviceModel.Resolve.Device
import DeviceModel.Schema.Device
import DeviceModel.Schema.Read

namespace DeviceModel.CommandLine

open Document (Format)

/-- What makes a check of a schema that is given: the messages about a document, in order, or why
there is no such schema. Which schemas there are is not for this program to say. -/
abbrev Compiler := Json → Except String (Json → List String)

/-- A device document as a JSON value. -/
def readDocument (t : FileTree) (p : Path) : Except SchemaError Json :=
  match Format.ofPath? p with
  | none => .error (.unsupportedFile p)
  | some format =>
    match t.read p with
    | .error e => .error (.unreadable p e)
    | .ok text =>
      match format.toJson? text with
      | some v => .ok v
      | none => .error (.unparsable p)

/-- A schema that is given in a file. -/
def loadSchema (t : FileTree) (p : Path) : Except SchemaError Json :=
  match t.read p with
  | .error e => .error (.schemaUnreadable p e)
  | .ok text =>
    match Format.json.toJson? text with
    | some v => .ok v
    | none => .error (.schemaUnparsable p)

/-- What the schema that comes with the program says against a document. -/
def deviceErrors (v : Json) : List String :=
  (Schema.violations Schema.deviceDefinitions Schema.device v).map Schema.Violation.message

/-- Messages about a document, by the schema that is given or else by the one for devices. -/
def validateDocument (compile : Compiler) (t : FileTree) (v : Json) :
    Option Path → Except SchemaError (List String)
  | none => .ok (deviceErrors v)
  | some p => do
    let schema ← loadSchema t p
    match compile schema with
    | .ok check => .ok (check v)
    | .error reason => .error (.schemaInvalid reason)

/-- Resolves the device at a path, which says what it logs. -/
def resolveFile (p : Path) : Action (Except ResolveError Device) := do
  let outcome := Resolve.resolveFile p (← get).files.source
  say (outcome.log.map .log)
  return outcome.result

def resolveOrHalt (options : Options) (p : Path) : Action Device := do
  match ← resolveFile p with
  | .ok d => return d
  | .error e =>
    reportResolveError options e
    halt

/-- What is said of a model that is valid. -/
def approve (options : Options) (model : Path) (d : Device) : Action (List String) := do
  note ⟨.info, "catena_codegen::commands::validate",
    model.text ++ ": " ++ toString d.nodes.size ++ " params, "
      ++ toString d.sharedConstraints.length ++ " shared constraints, "
      ++ toString d.types.size ++ " types"⟩
  return if options.quiet then []
    else match options.output with
      | .text => ["valid"]
      | .json => [(Json.object [("valid", .bool true), ("namespace", .string d.ns)]).pretty]

def validate (compile : Compiler) (options : Options) (model : Path) (schema : Option Path) :
    Action (List String) := do
  let doc ← match readDocument (← get).files model with
    | .ok doc => pure doc
    | .error e => fail options e.message
  let errors ← match validateDocument compile (← get).files doc schema with
    | .ok errors => pure errors
    | .error e => fail options e.message
  unless errors.isEmpty do
    reportSchemaErrors options model errors
    halt
  let d ← match ← resolveFile model with
    | .ok d => pure d
    | .error e =>
      reportResolveError options e
      halt
  approve options model d

def inspect (options : Options) (model : Path) : Action (List String) := do
  return [(← resolveOrHalt options model).summary.pretty]

def loadConfig (explicit : Option Path) : Action (Except ConfigError Config) := do
  let files := (← get).files
  if explicit.isNone && files.isFile Config.defaultPath then
    note ⟨.debug, "catena_codegen::config", "using " ++ Config.defaultPath.text⟩
  return Config.load files explicit

def checkSchema (compile : Compiler) (options : Options) (model : Path) (schema : Option Path) :
    Action Unit := do
  let files := (← get).files
  match readDocument files model >>= (validateDocument compile files · schema) with
  | .ok [] => return
  | .ok errors =>
    reportSchemaErrors options model errors
    halt
  | .error e => fail options e.message

/-- The device with another namespace, if one is asked for. -/
def overrideNamespace (options : Options) (d : Device) : Option String → Action Device
  | none => pure d
  | some ns => do
    unless Text.isIdentifier ns do fail options s!"namespace '{ns}' is not a valid identifier"
    note ⟨.info, "catena_codegen::commands::generate",
      "overriding namespace '" ++ d.ns ++ "' with '" ++ ns ++ "'"⟩
    return { d with ns }

/-- Everything up to the code itself: the code and the directory it goes to. -/
def prepare (compile : Compiler) (options : Options) (args : GenerateArgs) :
    Action (Cpp.Generated × Path) := do
  let config ← match ← loadConfig args.config with
    | .ok config => pure config
    | .error e => fail options e.message
  let _ ← match Language.ofText ((args.language <|> config.language).getD "cpp") with
    | .ok language => pure language
    | .error e => fail options e.message
  let out := (args.out <|> config.out.map Path.mk).getD ⟨"."⟩
  if args.skipSchema || config.skipSchema then
    note ⟨.warn, "catena_codegen::commands::generate",
      "skipping schema validation of " ++ args.model.text⟩
  else checkSchema compile options args.model (args.schema <|> config.schema.map Path.mk)
  let d ← overrideNamespace options (← resolveOrHalt options args.model) (args.ns <|> config.ns)
  let sourceName := args.model.fileName?.getD ("device." ++ d.ns ++ ".json")
  note (Cpp.generating d)
  return (Cpp.generate d sourceName, out)

/-- Writes code into a directory; gives the paths of the two files. -/
def write (options : Options) (code : Cpp.Generated) (out : Path) : Action (Path × Path) := do
  match (code.write out).run (← get).files with
  | .ok paths files =>
    modify fun w => { w with files }
    note (Cpp.wrote paths.1 paths.2)
    return paths
  | .error e files =>
    modify fun w => { w with files }
    fail options e.message

def generate (compile : Compiler) (options : Options) (args : GenerateArgs) :
    Action (List String) := do
  let (code, out) ← prepare compile options args
  let (header, body) ← write options code out
  return if options.quiet then []
    else match options.output with
      | .text => [header.text, body.text]
      | .json =>
        [(Json.object [("header", .string header.text), ("body", .string body.text)]).pretty]

def perform (compile : Compiler) (options : Options) : Command → Action (List String)
  | .generate args => generate compile options args
  | .validate model schema => validate compile options model schema
  | .inspect model => inspect options model

/-- What a run leaves behind. -/
structure Outcome where
  exit : Nat
  stdout : String
  stderr : String
  files : FileTree
  deriving Repr

def lines (ls : List String) : String := String.join (ls.map (· ++ "\n"))

/-- The line of a remark, if it is shown: of the log, warnings or everything. -/
def shown? (options : Options) : Remark → Option String
  | .log r => if options.verbose || r.level = .warn then some r.line else none
  | .report line => some line

def versionText : String := "catena-codegen 0.1.0"

/-- The help for every command is in the same words, -/
def helpText : String := "<help>"

/-- and so is what is said of any line that cannot be used. -/
def usage : String := "<usage>"

def runRequest (compile : Compiler) (files : FileTree) : Request → Outcome
  | .version => ⟨0, lines [versionText], "", files⟩
  | .help => ⟨0, lines [helpText], "", files⟩
  | .run options command =>
    match (perform compile options command).run { files } with
    | .ok printed w => ⟨0, lines printed, lines (w.said.filterMap (shown? options)), w.files⟩
    | .error .failed w => ⟨1, "", lines (w.said.filterMap (shown? options)), w.files⟩

/-- Runs a line of arguments on a tree of files. -/
def run (args : List String) (files : FileTree) (compile : Compiler := Schema.compile) : Outcome :=
  match parse? args with
  | some request => runRequest compile files request
  | none => ⟨2, "", usage, files⟩

end DeviceModel.CommandLine
