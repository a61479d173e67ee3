import DeviceModel.Description.Decode
import DeviceModel.Resolve.Param

namespace DeviceModel.Resolve

open Description (Import)
open Document (Format)

/-- The path that an import names, seen from the folder of its site. -/
def importPath (source : Source) (folder : Path) (fqoid oid : String) (i : Import) :
    Except ResolveError Path :=
  let candidate (f : Format) := folder.join ("param." ++ oid ++ "." ++ f.extension)
  match i.file, i.url with
  | some file, _ => .ok (folder.join file)
  | none, some "include" =>
    .ok (if !source.contains (candidate .json) && source.contains (candidate .yaml) then
        candidate .yaml
      else candidate .json)
  | none, some url => .error (.importFailed fqoid url .url)
  | none, none => .error (.importFailed fqoid "" .noTarget)

/-- The identity of what an import names, unless it is open. -/
def importIdentity (source : Source) (opened : List Path) (fqoid : String) (path : Path) :
    Except ResolveError Path :=
  match source.identify path with
  | .error e => .error (.importFailed fqoid path.text (.unidentified e))
  | .ok identity =>
    if opened.contains identity then .error (.importFailed fqoid path.text .cycle) else .ok identity

def importedParam (source : Source) (fqoid : String) (path : Path) :
    Except ResolveError Description.Param :=
  match source.read path with
  | .error e => .error (.importFailed fqoid path.text (.unreadable path e))
  | .ok text =>
    match Description.read? Description.Decode.param ((Format.ofPath? path).getD .json) text with
    | some p => .ok p
    | none => .error (.importFailed fqoid path.text (.unparsable path))

/-- The document that an import names: its identity and the parameter it describes. -/
def openImport (source : Source) (opened : List Path) (site : Site) (oid : String) (i : Import) :
    Resolve (Path × Description.Param) := do
  let fqoid := site.fqoid oid
  let path ← lift (importPath source site.folder fqoid oid i)
  let identity ← lift (importIdentity source opened fqoid path)
  note .debug "catena_core::param" (fqoid ++ " imported from " ++ path.text)
  return (identity, ← lift (importedParam source fqoid path))

/-- Resolves imports while `opened` are open; there is room for so many more. A document that is
still open cannot be imported again, so no chain is longer than the number of documents. -/
def importer (source : Source) : Nat → List Path → Importer
  | 0, _, site, oid, _ => throw (.importDepth (site.fqoid oid))
  | room + 1, opened, site, oid, i => do
    let (identity, p) ← openImport source opened site oid i
    resolveParam (importer source room (identity :: opened)) (← site.locate) oid p

end DeviceModel.Resolve
