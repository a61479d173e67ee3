import DeviceModel.Path

namespace DeviceModel.CommandLine

inductive Output where
  | text
  | json
  deriving DecidableEq, Repr

structure Options where
  output : Output := .text
  quiet : Bool := false
  verbose : Bool := false
  deriving DecidableEq, Repr

structure GenerateArgs where
  model : Path
  out : Option Path := none
  language : Option String := none
  ns : Option String := none
  schema : Option Path := none
  skipSchema : Bool := false
  config : Option Path := none
  deriving DecidableEq, Repr

inductive Command where
  | generate (args : GenerateArgs)
  | validate (model : Path) (schema : Option Path)
  | inspect (model : Path)
  deriving DecidableEq, Repr

inductive Request where
  | version
  | help
  | run (options : Options) (command : Command)
  deriving DecidableEq, Repr

/-- What an option takes: nothing, any text, a path, which has some text, or one of two words. -/
inductive Takes where
  | nothing
  | text
  | path
  | output
  deriving DecidableEq, Repr

def globalOptions : List (String × Takes) :=
  [("output", .output), ("quiet", .nothing), ("verbose", .nothing)]

inductive Verb where
  | generate
  | validate
  | inspect
  deriving DecidableEq, Repr

namespace Verb

def ofText? : String → Option Verb
  | "generate" => some .generate
  | "validate" => some .validate
  | "inspect" => some .inspect
  | _ => none

def options : Verb → List (String × Takes)
  | .generate =>
    [("out", .path), ("language", .text), ("namespace", .text), ("schema", .path),
      ("skip-schema", .nothing), ("config", .path)]
  | .validate => [("schema", .path)]
  | .inspect => []

end Verb

def outputOf? : String → Option Output
  | "text" => some .text
  | "json" => some .json
  | _ => none

def Takes.accepts : Takes → String → Bool
  | .nothing, _ => false
  | .text, _ => true
  | .path, s => s ≠ ""
  | .output, s => (outputOf? s).isSome

/-- Options given at one place, each at most once. -/
abbrev Given := List (String × String)

def give? (given : Given) (name value : String) : Option Given :=
  if (given.lookup name).isSome then none else some ((name, value) :: given)

inductive Word where
  | separator
  | long (name : String) (value : Option String)
  | short (letters : List Char)
  | plain (text : String)
  deriving DecidableEq, Repr

/-- How an argument is spelled. A lone dash is a plain word. -/
def word (s : String) : Word :=
  match s.toList with
  | ['-', '-'] => .separator
  | '-' :: '-' :: rest =>
    match rest.span (· ≠ '=') with
    | (name, []) => .long (String.ofList name) none
    | (name, _ :: value) => .long (String.ofList name) (some (String.ofList value))
  | '-' :: c :: rest => .short (c :: rest)
  | _ => .plain s

/-- The options given, with a long one more, and the arguments that are left. -/
def long? (known : List (String × Takes)) (given : Given) (name : String) (attached : Option String)
    (rest : List String) : Option (Given × List String) := do
  let takes ← known.lookup name
  match takes, attached with
  | .nothing, some _ => none
  | .nothing, none => return (← give? given name "", rest)
  | takes, some value =>
    if takes.accepts value then return (← give? given name value, rest) else none
  | takes, none =>
    match rest with
    | value :: rest =>
      match word value with
      | .plain value =>
        if takes.accepts value then return (← give? given name value, rest) else none
      | _ => none
    | [] => none

/-- What reading a part of a line comes to: a request that is answered at once, or something to go
on with. None if the line cannot be used. -/
abbrev Reading (α : Type) := ExceptT Request Option α

def unusable : Reading α := (none : Option (Except Request α))

/-- Short options: each letter is one. For the version a line can ask before the command only. -/
def shorts (atRoot : Bool) (given : Given) : List Char → Reading Given
  | [] => pure given
  | 'v' :: rest => do shorts atRoot (← give? given "verbose" "") rest
  | 'h' :: _ => throw .help
  | 'V' :: _ => if atRoot then throw .version else unusable
  | _ => unusable

/-- The options and plain words after the name of a command; `fuel` bounds how many arguments there
are. -/
def afterVerb (known : List (String × Takes)) :
    Nat → Given → List String → List String → Reading (Given × List String)
  | 0, _, _, _ => unusable
  | _, given, words, [] => pure (given, words)
  | fuel + 1, given, words, arg :: rest =>
    match word arg with
    | .separator => pure (given, words ++ rest)
    -- There is one model, and it has a name: nothing after this word can make up for that.
    | .plain s =>
      if words.isEmpty && s ≠ "" then afterVerb known fuel given [s] rest else unusable
    | .short letters => do afterVerb known fuel (← shorts false given letters) words rest
    | .long "help" none => throw .help
    | .long name value => do
      let (given, rest) ← long? known given name value rest
      afterVerb known fuel given words rest

def combine (root own : Given) : Options :=
  let output := ((own.lookup "output") <|> (root.lookup "output")).bind outputOf?
  let flag (name : String) := (own.lookup name).isSome || (root.lookup name).isSome
  { output := output.getD .text, quiet := flag "quiet", verbose := flag "verbose" }

def commandOf (verb : Verb) (model : Path) (given : Given) : Command :=
  let path (name : String) : Option Path := (given.lookup name).map Path.mk
  match verb with
  | .generate =>
    .generate {
      model
      out := path "out"
      language := given.lookup "language"
      ns := given.lookup "namespace"
      schema := path "schema"
      skipSchema := (given.lookup "skip-schema").isSome
      config := path "config" }
  | .validate => .validate model (path "schema")
  | .inspect => .inspect model

/-- Every command takes the path of one device. -/
def commandRequest (root : Given) (verb : Verb) (args : List String) : Reading Request := do
  let (given, words) ← afterVerb (globalOptions ++ verb.options) (args.length + 1) [] [] args
  match words with
  | [model] =>
    if model = "" then unusable
    else return .run (combine root given) (commandOf verb ⟨model⟩ given)
  | _ => unusable

/-- Help may be asked for by the name of one command. -/
def helpRequest : List String → Reading Request
  | [] => throw .help
  | [topic] => if topic = "help" || (Verb.ofText? topic).isSome then throw .help else unusable
  | _ => unusable

/-- What a line asks for, from its first argument on; `fuel` bounds how many there are. -/
def request : Nat → Given → List String → Reading Request
  | 0, _, _ => unusable
  | _, _, [] => unusable
  | fuel + 1, given, arg :: rest =>
    match word arg with
    | .separator => unusable
    | .plain "help" => helpRequest rest
    | .plain s => do commandRequest given (← Verb.ofText? s) rest
    | .short letters => do request fuel (← shorts true given letters) rest
    | .long "version" none => throw .version
    | .long "help" none => throw .help
    | .long name value => do
      let (given, rest) ← long? globalOptions given name value rest
      request fuel given rest

/-- What a line of arguments asks for. It is read from left to right; options that hold for every
command may stand before or after its name, and what stands after it wins. Whatever is not
understood, given twice at one place, or missing makes the whole line unusable. -/
def parse? (args : List String) : Option Request :=
  (request (args.length + 1) [] args).run.map fun
    | .ok asked => asked
    | .error asked => asked

end DeviceModel.CommandLine
