import DeviceModel.Cpp.Body
import DeviceModel.Log
import DeviceModel.Source.FileTree

namespace DeviceModel

inductive Language where
  | cpp
  deriving DecidableEq, Repr

namespace Language

def name : Language → String
  | .cpp => "cpp"

end Language

inductive GenerateError where
  | unsupportedLanguage (name : String)
  | unwritable (path : Path) (e : SystemError)
  deriving DecidableEq, Repr

namespace GenerateError

def message : GenerateError → String
  | .unsupportedLanguage name => s!"unsupported target language '{name}' (supported: cpp)"
  | .unwritable path e => "cannot write " ++ path.text ++ ": " ++ e.message

end GenerateError

namespace Language

def ofText : String → Except GenerateError Language
  | "cpp" => .ok .cpp
  | "c++" => .ok .cpp
  | other => .error (.unsupportedLanguage other)

end Language

namespace Cpp

structure Generated where
  headerName : String
  header : String
  bodyName : String
  body : String
  deriving Repr

/-- Both files for a device; they are named after the document. -/
def generate (d : Device) (sourceName : String) : Generated :=
  let headerName := sourceName ++ ".h"
  { headerName
    header := render (header d sourceName)
    bodyName := sourceName ++ ".cpp"
    body := render (body d headerName sourceName) }

def generating (d : Device) : Log.Record :=
  ⟨.debug, "catena_codegen", "generating C++ for namespace '" ++ d.ns ++ "'"⟩

def writeFile (path : Path) (text : String) : EStateM GenerateError FileTree Unit := do
  match (← get).write path text with
  | .ok t => set t
  | .error e => throw (.unwritable path e)

/-- Writes both files into a directory, which is made if it is not there. Gives their paths. -/
def Generated.write (g : Generated) (dir : Path) :
    EStateM GenerateError FileTree (Path × Path) := do
  match (FileTree.makeDirectories (dir.components.length + 2) dir).run (← get) with
  | .ok _ t => set t
  | .error e t =>
    set t
    throw (.unwritable dir e)
  let headerPath := dir.join g.headerName
  let bodyPath := dir.join g.bodyName
  writeFile headerPath g.header
  writeFile bodyPath g.body
  return (headerPath, bodyPath)

def wrote (headerPath bodyPath : Path) : Log.Record :=
  ⟨.info, "catena_codegen", "wrote " ++ headerPath.text ++ " and " ++ bodyPath.text⟩

end Cpp

end DeviceModel
