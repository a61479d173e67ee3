import DeviceModel.Path
import DeviceModel.Document.JsonText
import DeviceModel.Document.Yaml.Tree

namespace DeviceModel.Document

inductive Format where
  | json
  | yaml
  deriving DecidableEq, Repr

namespace Format

def ofPath? (p : Path) : Option Format :=
  match p.extension? with
  | some "json" => some .json
  | some "yaml" => some .yaml
  | some "yml" => some .yaml
  | _ => none

def extension : Format → String
  | .json => "json"
  | .yaml => "yaml"

/-- The tree of a text. -/
def read? (f : Format) (text : String) : Option Tree :=
  match f with
  | .json => JsonText.read? text
  | .yaml => Yaml.read? text

/-- A text as a JSON value. -/
def toJson? (f : Format) (text : String) : Option Json := (f.read? text).bind Tree.toJson?

end Format

/-- Every text that cannot be read is reported in the same words. -/
def parseFailure : String := "<parse error>"

end DeviceModel.Document
