import DeviceModel.Source.Basic

namespace DeviceModel

/-- The way to a file or directory: names, after `..` for each directory above the working directory
or after `/` for the root. -/
abbrev Place := List String

/-- What a file holds: a text, or bytes that are none. -/
inductive Content where
  | text (s : String)
  | bytes (raw : List UInt8)
  deriving DecidableEq, Repr

inductive FileEntry where
  | file (content : Content)
  | directory
  deriving DecidableEq, Repr

structure FileTree where
  entries : List (Place × FileEntry) := []
  deriving Repr

namespace FileTree

/-- Places that are directories whatever the tree holds. -/
def isGround (place : Place) : Bool := place = ["/"] || place.all (· = "..")

def get? (t : FileTree) (place : Place) : Option FileEntry :=
  if isGround place then some .directory else t.entries.lookup place

def put (t : FileTree) (place : Place) (e : FileEntry) : FileTree :=
  if t.entries.any (·.1 = place) then
    ⟨t.entries.map fun (p, old) => (p, if p = place then e else old)⟩
  else ⟨t.entries ++ [(place, e)]⟩

def up (place : Place) : Place :=
  if place = ["/"] then place
  else if place.all (· = "..") then ".." :: place
  else place.dropLast

def maxName : Nat := 255

def maxPath : Nat := 4096

/-- One segment further. -/
def step (t : FileTree) (place : Place) (segment : String) : Except SystemError Place :=
  match t.get? place with
  | none => .error .notFound
  | some (.file _) => .error .notADirectory
  | some .directory =>
    if segment = "" || segment = "." then .ok place
    else if segment = ".." then .ok (up place)
    else if segment.utf8ByteSize > maxName then .error .nameTooLong
    else if (t.get? (place ++ [segment])).isSome then .ok (place ++ [segment])
    else .error .notFound

def startOf (p : Path) : Place := if p.isAbsolute then ["/"] else []

def checkSpelling (p : Path) : Except SystemError Unit :=
  if p.text.toList.contains '\x00' then .error .nulInName
  else if p.text = "" then .error .notFound
  else if p.text.utf8ByteSize ≥ maxPath then .error .nameTooLong
  else .ok ()

/-- The place that a path leads to. It is walked one segment after another, as it is spelled: each
must be there and, unless it is the last, be a directory. -/
def walk (t : FileTree) (p : Path) : Except SystemError Place := do
  checkSpelling p
  p.segments.foldlM t.step (startOf p)

def entry (t : FileTree) (p : Path) : Except SystemError (Place × FileEntry) := do
  let place ← t.walk p
  match t.get? place with
  | some e => .ok (place, e)
  | none => .error .notFound

def isFile (t : FileTree) (p : Path) : Bool :=
  match t.entry p with
  | .ok (_, .file _) => true
  | _ => false

def isDirectory (t : FileTree) (p : Path) : Bool :=
  match t.entry p with
  | .ok (_, .directory) => true
  | _ => false

def read (t : FileTree) (p : Path) : Except SystemError String := do
  match ← t.entry p with
  | (_, .file (.text text)) => .ok text
  | (_, .file (.bytes _)) => .error .notText
  | (_, .directory) => .error .isADirectory

/-- The last segment that says something, with those before it. None if there is no such segment. -/
def splitEnd (segments : List String) : Option (List String × String) :=
  match segments.reverse.dropWhile (· = "") with
  | [] => none
  | last :: before => some (before.reverse, last)

/-- A new directory at a path whose parent is there. -/
def makeDirectory (t : FileTree) (p : Path) : Except SystemError FileTree := do
  checkSpelling p
  match splitEnd p.segments with
  | none => .error .alreadyExists
  | some (before, last) =>
    let parent ← before.foldlM t.step (startOf p)
    match t.step parent last with
    | .ok _ => .error .alreadyExists
    | .error .notFound =>
      if last = "." || last = ".." then .error .notFound
      else .ok (t.put (parent ++ [last]) .directory)
    | .error e => .error e

/-- A directory at a path, with all the directories above it; `depth` bounds how many. The tree that
was reached is kept when one of them cannot be made. -/
def makeDirectories : Nat → Path → EStateM SystemError FileTree Unit
  | 0, _ => throw .notFound
  | depth + 1, p => do
    if p.components.isEmpty then return
    match (← get).makeDirectory p with
    | .ok t => set t
    | .error .notFound =>
      match p.parent? with
      | none => throw .notFound
      | some parent =>
        makeDirectories depth parent
        again p
    | .error e => unless (← get).isDirectory p do throw e
where
  again (p : Path) : EStateM SystemError FileTree Unit := do
    match (← get).makeDirectory p with
    | .ok t => set t
    | .error e => unless (← get).isDirectory p do throw e

/-- The text of a file, new or in place of what it held. -/
def write (t : FileTree) (p : Path) (text : String) : Except SystemError FileTree := do
  match t.entry p with
  | .ok (_, .directory) => .error .isADirectory
  | .ok (place, .file _) => .ok (t.put place (.file (.text text)))
  | .error .notFound =>
    checkSpelling p
    match splitEnd p.segments with
    | none => .error .isADirectory
    | some (before, last) =>
      let parent ← before.foldlM t.step (startOf p)
      match t.get? parent with
      | some .directory =>
        if p.segments.getLast? = some "" then .error .isADirectory
        else .ok (t.put (parent ++ [last]) (.file (.text text)))
      | some (.file _) => .error .notADirectory
      | none => .error .notFound
  | .error e => .error e

/-- The place that a path means by itself. -/
def placeOf (p : Path) : Place :=
  p.normalize.components.filterMap fun
    | .root => some "/"
    | .name s => some s
    | _ => none

/-- The directories above a place, outermost first. -/
def above (place : Place) : List Place := (List.range place.length).map place.take

/-- An entry with the directories above it. -/
def add (t : FileTree) (place : Place) (e : FileEntry) : FileTree :=
  let parents := (above place).foldl
    (fun t p => if (t.get? p).isSome then t else t.put p .directory) t
  parents.put place e

/-- A tree of files by their paths. A path that ends with a slash is a directory. -/
def ofFiles (files : List (String × String)) : FileTree :=
  files.foldl (fun t (name, text) =>
    let place := placeOf ⟨name⟩
    if isGround place then t
    else if name.toList.getLast? = some '/' then t.add place .directory
    else t.add place (.file (.text text))) {}

/-- Files that are new or hold another text than before. -/
def changes (before after : FileTree) : List (String × String) :=
  after.entries.filterMap fun
    | (place, .file (.text text)) =>
      if before.get? place = some (.file (.text text)) then none
      else some (Text.join "/" place, text)
    | _ => none

def pathOf (place : Place) : Path := ⟨Text.join "/" place⟩

def readDocument (t : FileTree) (p : Path) : Except SourceError String :=
  (t.read p).mapError .system

def identify (t : FileTree) (p : Path) : Except SourceError Path :=
  match t.entry p with
  | .ok (place, _) => .ok (pathOf place)
  | .error e => .error (.system e)

theorem get?_of_entry {t : FileTree} {p : Path} {place : Place} {e : FileEntry}
    (h : t.entry p = .ok (place, e)) : t.get? place = some e := by
  simp only [entry, bind, Except.bind] at h
  split at h
  · cases h
  · split at h
    · next hg => cases h; exact hg
    · cases h

theorem entry_of_read {t : FileTree} {p : Path} {text : String} (h : t.read p = .ok text) :
    ∃ place, t.entry p = .ok (place, .file (.text text)) := by
  simp only [read, bind, Except.bind] at h
  split at h
  · cases h
  · next e he =>
    obtain ⟨place, (_ | _) | _⟩ := e
    · cases h; exact ⟨place, he⟩
    · cases h
    · cases h

theorem mem_of_get?_file {t : FileTree} {place : Place} {content : Content}
    (h : t.get? place = some (.file content)) : place ∈ t.entries.map Prod.fst := by
  simp only [get?] at h
  split at h
  · cases h
  · exact mem_keys_of_lookup h

theorem identify_mem (t : FileTree) (p i : Path) (text : String)
    (hi : t.identify p = .ok i) (hr : t.readDocument p = .ok text) :
    i ∈ (t.entries.map Prod.fst).map pathOf := by
  cases hread : t.read p with
  | error e =>
    rw [readDocument, hread] at hr
    cases hr
  | ok text' =>
    obtain ⟨place, he⟩ := entry_of_read hread
    simp only [identify, he] at hi
    cases hi
    exact List.mem_map_of_mem (mem_of_get?_file (get?_of_entry he))

def source (t : FileTree) : Source where
  read := t.readDocument
  contains := t.isFile
  identify := t.identify
  identities := (t.entries.map Prod.fst).map pathOf
  identify_mem := t.identify_mem

end FileTree

end DeviceModel
