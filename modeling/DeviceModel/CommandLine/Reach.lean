import DeviceModel.CommandLine.Run

namespace DeviceModel.CommandLine

open Document (Format)

/-- Paths that an import may mean. -/
def importCandidates (folder : Path) (oid : String) (i : Description.Import) : List Path :=
  match i.file with
  | some file => [folder.join file]
  | none =>
    [Format.json, Format.yaml].map fun f => folder.join ("param." ++ oid ++ "." ++ f.extension)

mutual

/-- Paths of the imports in a parameter; `imported` continues with one. -/
def importsOfParam (imported : Path → String → Path → List Path) (folder : Path) (oid : String) :
    Description.Param → List Path
  | ⟨d, params⟩ =>
    match d.source with
    | some i => (importCandidates folder oid i).flatMap fun p => p :: imported folder oid p
    | none => importsOfParams imported (folder.join oid) params

def importsOfParams (imported : Path → String → Path → List Path) (folder : Path) :
    List (String × Description.Param) → List Path
  | [] => []
  | (oid, p) :: rest => importsOfParam imported folder oid p ++ importsOfParams imported folder rest

end

/-- Paths of the imports in an imported document, and in those it imports, so many deep. -/
def importsOfDocument (t : FileTree) : Nat → Path → String → Path → List Path
  | 0, _, _, _ => []
  | depth + 1, folder, oid, p =>
    match Resolve.importedParam t.source oid p with
    | .ok param => importsOfParam (importsOfDocument t depth) folder oid param
    | .error _ => []

def importsOfDevice (t : FileTree) (p : Path) : List Path :=
  match DeviceDocument.load t.source p with
  | .ok doc =>
    importsOfParams (importsOfDocument t (t.entries.length + 1)) doc.importRoot
      (doc.description.params ++ doc.description.commands)
  | .error _ => []

def generatePaths (t : FileTree) (args : GenerateArgs) : List Path :=
  args.config.getD Config.defaultPath ::
    match Config.load t args.config with
    | .error _ => []
    | .ok config =>
      let out := (args.out <|> config.out.map Path.mk).getD ⟨"."⟩
      let name := args.model.fileName?.getD ""
      args.model :: (args.schema <|> config.schema.map Path.mk).toList
        ++ importsOfDevice t args.model
        ++ [out, out.join (name ++ ".h"), out.join (name ++ ".cpp")]

/-- Paths that a line of arguments leads to, as far as the files that are known tell. -/
def reach (args : List String) (t : FileTree) : List Path :=
  match parse? args with
  | some (.run _ (.generate args)) => generatePaths t args
  | some (.run _ (.validate model schema)) => model :: schema.toList ++ importsOfDevice t model
  | some (.run _ (.inspect model)) => model :: importsOfDevice t model
  | _ => []

end DeviceModel.CommandLine
