import DeviceModel.Text.Split

namespace DeviceModel

/-- A path keeps its text as it was given; its components are what it means. -/
structure Path where
  text : String
  deriving DecidableEq, Repr

namespace Path

inductive Component where
  | root
  | current
  | parent
  | name (s : String)
  deriving DecidableEq, Repr

instance : Inhabited Path := ⟨⟨""⟩⟩

def startsAtRoot (text : String) : Bool := text.toList.head? == some '/'

def isAbsolute (p : Path) : Bool := startsAtRoot p.text

def segments (p : Path) : List String := Text.split '/' p.text

/-- A segment after the first. -/
def component? (segment : String) : Option Component :=
  if segment = "" || segment = "." then none
  else if segment = ".." then some .parent
  else some (.name segment)

def components (p : Path) : List Component :=
  match p.segments with
  | [] => []
  | first :: rest =>
    let head := if p.isAbsolute then some .root
      else if first = "." then some .current
      else component? first
    head.toList ++ rest.filterMap component?

def fileName? (p : Path) : Option String :=
  match p.components.getLast? with
  | some (.name s) => some s
  | _ => none

/-- A file name as its stem and its extension. -/
def splitName (name : String) : String × Option String :=
  match Text.splitLast? '.' name with
  | some ("", _) => (name, none)
  | some (stem, extension) => (stem, some extension)
  | none => (name, none)

def stem? (p : Path) : Option String := p.fileName?.map fun name => (splitName name).1

def extension? (p : Path) : Option String := p.fileName?.bind fun name => (splitName name).2

/-- `q` seen from `p`. -/
def join (p : Path) (q : String) : Path :=
  if startsAtRoot q || p.text = "" then ⟨q⟩
  else if p.text.toList.getLast? = some '/' then ⟨p.text ++ q⟩
  else ⟨p.text ++ "/" ++ q⟩

/-- Segments without the empty ones and dots at the end. A leading dot of a relative path stays. -/
def trimEnd (relative : Bool) (segments : List String) : List String :=
  match (segments.reverse.dropWhile fun s => s = "" || s = ".").reverse, segments with
  | [], "." :: _ => if relative then ["."] else []
  | kept, _ => kept

/-- The path without its last component. None for the root and for the empty path. -/
def parent? (p : Path) : Option Path :=
  let relative := !p.isAbsolute
  let body := trimEnd relative (if relative then p.segments else p.segments.drop 1)
  if body.isEmpty then none
  else
    let rest := Text.join "/" (trimEnd relative body.dropLast)
    some ⟨if relative then rest else "/" ++ rest⟩

/-- One component more on a stack of components; `..` takes a name back and is lost without one. -/
def push (out : List Component) : Component → List Component
  | .current => out
  | .parent => match out with
    | .name _ :: rest => rest
    | _ => out
  | c => c :: out

def componentText : Component → String
  | .root => ""
  | .current => "."
  | .parent => ".."
  | .name s => s

def ofComponents : List Component → Path
  | [.root] => ⟨"/"⟩
  | cs => ⟨Text.join "/" (cs.map componentText)⟩

/-- The path without `.` and `..`, found from its text alone. -/
def normalize (p : Path) : Path := ofComponents (p.components.foldl push []).reverse

end Path

end DeviceModel
