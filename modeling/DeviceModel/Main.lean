import DeviceModel.CommandLine.Reach

open DeviceModel

namespace DeviceModel.Program

/-- What is at a path now: a file, a directory, or nothing that can be read. -/
def look (path : String) : IO (Option FileEntry) := do
  try
    let bytes ← IO.FS.readBinFile path
    match String.fromUTF8? bytes with
    | some text => return some (.file (.text text))
    | none => return some (.file (.bytes bytes.toList))
  catch
    | .inappropriateType _ 21 _ => return some .directory
    | _ => return none

/-- The tree with everything on the way along a path. -/
def loadPath (tree : FileTree) (p : Path) : IO FileTree := do
  let mut tree := tree
  let mut place := FileTree.startOf p
  let mut passed := []
  for segment in p.segments do
    passed := passed ++ [segment]
    if segment = ".." then place := FileTree.up place
    else if segment ≠ "" && segment ≠ "." then
      place := place ++ [segment]
      match ← look (Text.join "/" passed) with
      | some e => tree := tree.put place e
      | none => break
  return tree

partial def gather (args : List String) (tree : FileTree) (seen : List Path) : IO FileTree := do
  match (CommandLine.reach args tree).filter (!seen.contains ·) with
  | [] => return tree
  | fresh => gather args (← fresh.foldlM loadPath tree) (seen ++ fresh)

def save (before after : FileTree) : IO Unit := do
  for (place, e) in after.entries do
    if before.get? place ≠ some e then
      let path := (FileTree.pathOf place).text
      match e with
      | .directory => IO.FS.createDirAll path
      | .file (.text text) => IO.FS.writeFile path text
      | .file (.bytes raw) => IO.FS.writeBinFile path ⟨raw.toArray⟩

end DeviceModel.Program

def main (args : List String) : IO UInt32 := do
  let before ← Program.gather args {} []
  let outcome := CommandLine.run args before
  Program.save before outcome.files
  IO.print outcome.stdout
  IO.eprint outcome.stderr
  return outcome.exit.toUInt32
