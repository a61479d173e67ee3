import DeviceModel.Config.Toml
import DeviceModel.Document.Format
import DeviceModel.Entries
import DeviceModel.Source.FileTree

namespace DeviceModel

/-- Defaults for generating code. -/
structure Config where
  out : Option String := none
  language : Option String := none
  ns : Option String := none
  schema : Option String := none
  skipSchema : Bool := false
  deriving DecidableEq, Repr

inductive ConfigError where
  | unreadable (path : Path) (e : SystemError)
  | unparsable (path : Path)
  deriving DecidableEq, Repr

namespace ConfigError

def message : ConfigError → String
  | .unreadable path e => "could not read '" ++ path.text ++ "': " ++ e.message
  | .unparsable path => "could not parse '" ++ path.text ++ "': " ++ Document.parseFailure

end ConfigError

namespace Config

open Toml (Value Statement)

/-- The configuration with one setting more. -/
def set? (c : Config) : String × Value → Option Config
  | ("out", .string s) => some { c with out := some s }
  | ("language", .string s) => some { c with language := some s }
  | ("namespace", .string s) => some { c with ns := some s }
  | ("schema", .string s) => some { c with schema := some s }
  | ("skip_schema", .bool b) => some { c with skipSchema := b }
  | _ => none

/-- Settings with different names. -/
def ofSettings? (settings : Entries Value) : Option Config :=
  if settings.duplicate?.isSome then none else settings.foldlM set? {}

def simpleKeys? (entries : List (List String × Value)) : Option (Entries Value) :=
  entries.mapM fun
    | ([name], v) => some (name, v)
    | _ => none

/-- Settings in order, without their names; the last may be missing. -/
def ofList? : List Value → Option Config
  | [.string out, .string language, .string ns, .string schema] =>
    some { out, language, ns, schema }
  | .string out :: .string language :: .string ns :: .string schema :: .bool skipSchema :: _ =>
    some { out, language, ns, schema, skipSchema }
  | _ => none

def table : String := "generate"

/-- The settings of statements that each set one, as `key` gives its name. -/
def settings? (key : List String → Option String) (statements : List Statement) :
    Option (Entries Value) :=
  statements.mapM fun
    | .assign names v => (key names).map (·, v)
    | _ => none

def dottedKey? : List String → Option String
  | [t, name] => if t = table then some name else none
  | _ => none

def plainKey? : List String → Option String
  | [name] => some name
  | _ => none

/-- The table is given once: under its header, as one value, or key by key. -/
def ofStatements? : List Statement → Option Config
  | [] => some {}
  | .header key :: rest =>
    if key = [table] then (settings? plainKey? rest).bind ofSettings? else none
  | [.assign [t] (.table entries)] =>
    if t = table then (simpleKeys? entries).bind ofSettings? else none
  | [.assign [t] (.list items)] => if t = table then ofList? items else none
  | statements => (settings? dottedKey? statements).bind ofSettings?

def parse? (text : String) : Option Config := (Toml.read? text).bind ofStatements?

def read (t : FileTree) (p : Path) : Except ConfigError Config :=
  match t.read p with
  | .error e => .error (.unreadable p e)
  | .ok text =>
    match parse? text with
    | some c => .ok c
    | none => .error (.unparsable p)

/-- The file that is used if it is there and no other is named. -/
def defaultPath : Path := ⟨"catena-codegen.toml"⟩

/-- The file that is read. -/
def pathIn (t : FileTree) (explicit : Option Path) : Option Path :=
  explicit <|> (if t.isFile defaultPath then some defaultPath else none)

def load (t : FileTree) (explicit : Option Path) : Except ConfigError Config :=
  match pathIn t explicit with
  | some p => read t p
  | none => .ok {}

end Config

end DeviceModel
