namespace DeviceModel.Document.Yaml

/-- A place in a text. The end of the text counts as a blank and as a line break. -/
structure Cursor where
  rest : List Char
  /-- How many characters are left. -/
  left : Nat
  line : Nat
  col : Nat
  index : Nat

def isBreak (c : Char) : Bool := c = '\n' || c = '\r'

def isBlank (c : Char) : Bool := c = ' ' || c = '\t'

/-- Characters of anchors and of directive and tag names. -/
def isWord (c : Char) : Bool := c.isAlphanum || c = '_' || c = '-'

def isFlow (c : Char) : Bool := c = ',' || c = '[' || c = ']' || c = '{' || c = '}'

/-- The text ends here or goes on with a blank or a line break. -/
def atGap (cs : List Char) : Bool := cs.head?.all fun c => isBlank c || isBreak c

/-- The text or its line ends here. -/
def atLineEnd (cs : List Char) : Bool := cs.head?.all isBreak

namespace Cursor

def start (cs : List Char) : Cursor := ⟨cs, cs.length, 0, 0, 0⟩

def skip (c : Cursor) : Cursor :=
  match c.rest with
  | [] => c
  | '\n' :: rest => ⟨rest, c.left - 1, c.line + 1, 0, c.index + 1⟩
  | _ :: rest => ⟨rest, c.left - 1, c.line, c.col + 1, c.index + 1⟩

def skipMany (c : Cursor) (n : Nat) : Cursor := n.repeat skip c

/-- Past one line break, if there is one. -/
def skipLine (c : Cursor) : Cursor :=
  match c.rest with
  | '\r' :: '\n' :: _ => c.skip.skip
  | '\r' :: _ => c.skip
  | '\n' :: _ => c.skip
  | _ => c

/-- The characters of this line that satisfy `p`, and the place after them. -/
def span (p : Char → Bool) (c : Cursor) : List Char × Cursor :=
  let (taken, rest) := c.rest.span fun x => p x && !isBreak x
  let n := taken.length
  (taken, ⟨rest, c.left - n, c.line, c.col + n, c.index + n⟩)

def skipBlanks (c : Cursor) : Cursor := (c.span isBlank).2

def skipToLineEnd (c : Cursor) : Cursor := (c.span fun _ => true).2

/-- Blanks and a comment up to the end of the line; none if anything else stands there. -/
def endLine? (c : Cursor) : Option Cursor :=
  let c := c.skipBlanks
  let c := if c.rest.head? = some '#' then c.skipToLineEnd else c
  if atLineEnd c.rest then some c.skipLine else none

/-- `---` or `...` at the start of a line. -/
def atDocumentMark (c : Cursor) : Bool :=
  c.col = 0 && match c.rest with
    | '-' :: '-' :: '-' :: rest => atGap rest
    | '.' :: '.' :: '.' :: rest => atGap rest
    | _ => false

end Cursor

end DeviceModel.Document.Yaml
