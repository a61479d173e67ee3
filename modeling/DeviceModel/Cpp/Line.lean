namespace DeviceModel.Cpp

/-- A line of code, and how far it stands in. -/
structure Line where
  depth : Nat
  text : String
  deriving DecidableEq, Repr

namespace Line

/-- Two places for each step in; an empty line has none. -/
def render (l : Line) : String :=
  if l.text = "" then "\n" else String.ofList (List.replicate (2 * l.depth) ' ') ++ l.text ++ "\n"

def blank : Line := ⟨0, ""⟩

end Line

def render (lines : List Line) : String := String.join (lines.map Line.render)

/-- Lines between an opening and a closing one, which they stand in from. -/
def block (depth : Nat) (opening : String) (inner : List Line) (closing : String) : List Line :=
  ⟨depth, opening ++ " \x7b"⟩ :: inner ++ [⟨depth, closing⟩]

end DeviceModel.Cpp
