import DeviceModel.Source.Basic

namespace DeviceModel

/-- Documents held in memory, by the normal form of their path. -/
structure Documents where
  entries : List (Path × String) := []
  deriving Repr

namespace Documents

/-- A text takes the place of one that was there. -/
def insert (d : Documents) (p : Path) (text : String) : Documents :=
  ⟨(p.normalize, text) :: d.entries.filter (·.1 != p.normalize)⟩

def find? (d : Documents) (p : Path) : Option String := d.entries.lookup p.normalize

def contains (d : Documents) (p : Path) : Bool := (d.find? p).isSome

def read (d : Documents) (p : Path) : Except SourceError String :=
  match d.find? p with
  | some text => .ok text
  | none => .error (.noDocument p.normalize)

def identify (d : Documents) (p : Path) : Except SourceError Path :=
  if d.contains p then .ok p.normalize else .error (.noDocument p.normalize)

def ofList (files : List (String × String)) : Documents :=
  files.foldl (fun d (path, text) => d.insert ⟨path⟩ text) {}

theorem identify_mem (d : Documents) (p i : Path) (text : String)
    (hi : d.identify p = .ok i) (hr : d.read p = .ok text) : i ∈ d.entries.map Prod.fst := by
  simp only [identify] at hi
  split at hi
  · cases hi
    simp only [read, find?] at hr
    split at hr
    · next h => exact mem_keys_of_lookup h
    · cases hr
  · cases hi

def source (d : Documents) : Source where
  read := d.read
  contains := d.contains
  identify := d.identify
  identities := d.entries.map Prod.fst
  identify_mem := d.identify_mem

end Documents

end DeviceModel
