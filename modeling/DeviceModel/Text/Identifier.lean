import DeviceModel.Text.Upper

namespace DeviceModel.Text

def isIdentifierStart (c : Char) : Bool := c.isAlpha || c == '_'

def isIdentifierRest (c : Char) : Bool := c.isAlphanum || c == '_'

/-- A letter or underscore, then letters, digits or underscores. -/
def isIdentifier (s : String) : Bool :=
  match s.toList with
  | [] => false
  | c :: rest => isIdentifierStart c && rest.all isIdentifierRest

/-- Every character that an identifier cannot hold becomes an underscore. -/
def flatten (s : String) : String := s.map fun c => if c.isAlphanum then c else '_'

/-- The name with its first letter in upper case. -/
def capitalize (s : String) : String :=
  match s.toList with
  | [] => ""
  | c :: rest => String.ofList (upper c ++ rest)

end DeviceModel.Text
