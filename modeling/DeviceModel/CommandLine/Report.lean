import DeviceModel.CommandLine.Arguments
import DeviceModel.Config.Basic
import DeviceModel.Cpp.Generate
import DeviceModel.Resolve.Error
import DeviceModel.Schema.Basic

namespace DeviceModel.CommandLine

/-- A line for the error stream. Log records may be filtered out; what is reported is not. -/
inductive Remark where
  | log (r : Log.Record)
  | report (line : String)
  deriving Repr

/-- What a command works on: the files, and what it has said so far. -/
structure World where
  files : FileTree
  said : List Remark := []
  deriving Repr

/-- A command that fails ends there. Why it fails was reported before. -/
inductive Halt where
  | failed
  deriving DecidableEq, Repr

/-- The files, and what was said, are kept also when a command fails. -/
abbrev Action := EStateM Halt World

def say (remarks : List Remark) : Action Unit :=
  modify fun w => { w with said := w.said ++ remarks }

def note (r : Log.Record) : Action Unit := say [.log r]

def report (lines : List String) : Action Unit := say (lines.map .report)

def halt : Action α := throw .failed

/-- A message by itself, which a quiet run leaves out. -/
def reportError (options : Options) (message : String) : Action Unit :=
  report (if options.quiet then []
    else match options.output with
      | .text => [message]
      | .json => [(Json.object [("error", .string message)]).compact])

/-- What is wrong with a device is printed as JSON also when a run is quiet. -/
def reportResolveError (options : Options) (e : ResolveError) : Action Unit :=
  report (match options.output with
    | .json => [e.toJson.pretty]
    | .text => if options.quiet then [] else ["error: " ++ e.message])

def reportSchemaErrors (options : Options) (path : Path) (errors : List String) : Action Unit :=
  report (match options.output with
    | .text =>
      if options.quiet then []
      else ("invalid device model '" ++ path.text ++ "'") :: errors.map ("  - " ++ ·)
    | .json =>
      [(Json.object [("valid", .bool false), ("file", .string path.text),
        ("errors", Json.strings errors)]).pretty])

def fail (options : Options) (message : String) : Action α := do
  reportError options message
  halt

inductive SchemaError where
  | unsupportedFile (path : Path)
  | unreadable (path : Path) (e : SystemError)
  | unparsable (path : Path)
  | schemaUnreadable (path : Path) (e : SystemError)
  | schemaUnparsable (path : Path)
  | schemaInvalid (reason : String)
  deriving DecidableEq, Repr

namespace SchemaError

def message : SchemaError → String
  | .unsupportedFile path =>
    "unsupported file type '" ++ path.text ++ "': expected .json, .yaml or .yml"
  | .unreadable path e => "error reading file '" ++ path.text ++ "': " ++ e.message
  | .unparsable path => "error parsing '" ++ path.text ++ "': " ++ Document.parseFailure
  | .schemaUnreadable path e => "error reading schema '" ++ path.text ++ "': " ++ e.message
  | .schemaUnparsable path =>
    "error parsing schema '" ++ path.text ++ "': " ++ Document.parseFailure
  | .schemaInvalid reason => "failed to compile schema: " ++ reason

end SchemaError

end DeviceModel.CommandLine
