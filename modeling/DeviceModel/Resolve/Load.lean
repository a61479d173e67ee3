import DeviceModel.Description.Decode
import DeviceModel.Resolve.Progress

namespace DeviceModel

open Document (Format)

/-- The name of the file gives the namespace, its extension the format, and its folder the place
that imports start from. -/
structure DeviceDocument where
  path : Path
  ns : String
  format : Format
  importRoot : Path
  description : Description.Device
  deriving Repr

namespace DeviceDocument

/-- The namespace in a name of the form `device.<namespace>`. -/
def namespaceInStem (stem : String) : Except DocumentFault String :=
  match Text.split '.' stem with
  | ["device", ns] =>
    if ns = "" then .error .fileName
    else if Text.isIdentifier ns then .ok ns
    else .error (.notIdentifier ns)
  | _ => .error .fileName

def namespaceOf (p : Path) : Except ResolveError String :=
  match p.stem? with
  | none => .error (.document p .noFileName)
  | some stem => (namespaceInStem stem).mapError (.document p)

def importRootOf (p : Path) : Path := (p.parent?.getD ⟨"."⟩).join "params"

def load (source : Source) (p : Path) : Except ResolveError DeviceDocument := do
  let some format := Format.ofPath? p | throw (.document p .extension)
  let ns ← namespaceOf p
  match source.read p with
  | .error e => throw (.document p (.unreadable e))
  | .ok text =>
    match Description.read? Description.Decode.device format text with
    | none => throw (.document p .unparsable)
    | some description =>
      return { path := p, ns, format, importRoot := importRootOf p, description }

def loaded (d : DeviceDocument) : Log.Record :=
  ⟨.debug, "catena_core::loader", "loaded device model " ++ d.path.text ++ " (namespace '" ++
    d.ns ++ "')"⟩

end DeviceDocument

end DeviceModel
