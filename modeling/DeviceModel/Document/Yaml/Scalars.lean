import DeviceModel.Document.Scalar
import DeviceModel.Document.Yaml.Cursor

namespace DeviceModel.Document.Yaml

/-- Blanks and line breaks read since the last character of a scalar. -/
structure Gap where
  /-- Blanks on the line of the last character, last one first. -/
  blanks : List Char := []
  /-- A new line has begun. -/
  newLine : Bool := false
  /-- It began with a line break that counts, not with an escaped one. -/
  counted : Bool := false
  /-- Line breaks after that. -/
  empty : Nat := 0

namespace Gap

def isOpen (g : Gap) : Bool := g.newLine || !g.blanks.isEmpty

def breaks (n : Nat) (out : List Char) : List Char := List.replicate n '\n' ++ out

/-- The gap put in front of the next character; `out` has its last character first. -/
def close (g : Gap) (out : List Char) : List Char :=
  if !g.newLine then g.blanks ++ out
  else if g.counted && g.empty = 0 then ' ' :: out
  else breaks g.empty out

def blank (g : Gap) (c : Char) : Gap := if g.newLine then g else { g with blanks := c :: g.blanks }

def lineBreak (g : Gap) : Gap :=
  if g.newLine then { g with empty := g.empty + 1 }
  else { g with blanks := [], newLine := true, counted := true }

end Gap

/-- Blanks and line breaks. None if a tab stands where a line of the scalar is indented. -/
def gap? (minTab : Int) : Nat → Gap → Cursor → Option (Gap × Cursor)
  | 0, g, c => some (g, c)
  | n + 1, g, c =>
    match c.rest with
    | [] => some (g, c)
    | x :: _ =>
      if isBlank x then
        if x = '\t' && g.newLine && (c.col : Int) < minTab then none
        else gap? minTab n (g.blank x) c.skip
      else if isBreak x then gap? minTab n g.lineBreak c.skipLine
      else some (g, c)

/-- The end of a plain scalar inside a word: a colon before a gap, and in flow style brackets
too. -/
def endsPlain (flow : Bool) : List Char → Bool
  | [] => true
  | ':' :: rest => atGap rest || (flow && rest.head?.any isFlow)
  | c :: _ => flow && isFlow c

/-- Characters of a plain scalar up to a gap or its end. -/
def plainWord (flow : Bool) : Nat → Gap → List Char → Cursor → Gap × List Char × Cursor
  | 0, g, out, c => (g, out, c)
  | n + 1, g, out, c =>
    match c.rest with
    | [] => (g, out, c)
    | x :: _ =>
      if atGap c.rest || endsPlain flow c.rest then (g, out, c)
      else plainWord flow n {} (x :: (if g.isOpen then g.close out else out)) c.skip

/-- A plain scalar: its text with the last character first, whether a new line has begun, and the
place after it. -/
def plain? (flow : Bool) (indent : Int) : Nat → Gap → List Char → Cursor →
    Option (List Char × Bool × Cursor)
  | 0, _, _, _ => none
  | n + 1, g, out, c =>
    if c.atDocumentMark || c.rest.head? = some '#' then some (out, g.newLine, c)
    else
      let (g, out, c) := plainWord flow c.left g out c
      if c.rest.isEmpty || !atGap c.rest then some (out, g.newLine, c)
      else match gap? indent c.left g c with
        | none => none
        | some (g, c) =>
          if !flow && (c.col : Int) < indent then some (out, g.newLine, c)
          else plain? flow indent n g out c

/-- What follows a backslash in double quotes. -/
inductive Escape where
  | char (c : Char)
  | code (digits : Nat)

def escape? : Char → Option Escape
  | '0' => some (.char '\x00')
  | 'a' => some (.char '\x07')
  | 'b' => some (.char '\x08')
  | 't' => some (.char '\t')
  | '\t' => some (.char '\t')
  | 'n' => some (.char '\n')
  | 'v' => some (.char '\x0b')
  | 'f' => some (.char '\x0c')
  | 'r' => some (.char '\r')
  | 'e' => some (.char '\x1b')
  | ' ' => some (.char ' ')
  | '"' => some (.char '"')
  | '\'' => some (.char '\'')
  | '\\' => some (.char '\\')
  | 'N' => some (.char '\u0085')
  | '_' => some (.char '\u00a0')
  | 'L' => some (.char '\u2028')
  | 'P' => some (.char '\u2029')
  | 'x' => some (.code 2)
  | 'u' => some (.code 4)
  | 'U' => some (.code 8)
  | _ => none

def codeChar? (digits : List Char) (count : Nat) : Option Char :=
  if digits.length < count then none
  else (natIn? 16 (digits.take count)).bind fun code =>
    if code.isValidChar then some (Char.ofNat code) else none

/-- Characters of a quoted scalar up to a gap or its closing quote. The flag tells of an escaped
line break, which opens a gap. -/
def quotedWord? (single : Bool) : Nat → List Char → Cursor → Option (List Char × Bool × Cursor)
  | 0, _, _ => none
  | n + 1, out, c =>
    if atGap c.rest then some (out, false, c)
    else match single, c.rest with
      | true, '\'' :: '\'' :: _ => quotedWord? single n ('\'' :: out) c.skip.skip
      | true, '\'' :: _ => some (out, false, c)
      | false, '"' :: _ => some (out, false, c)
      | false, '\\' :: x :: rest =>
        if isBreak x then some (out, true, c.skip.skipLine)
        else match escape? x with
          | none => none
          | some (.char y) => quotedWord? single n (y :: out) c.skip.skip
          | some (.code count) =>
            match codeChar? rest count with
            | none => none
            | some y => quotedWord? single n (y :: out) (c.skipMany (2 + count))
      | false, ['\\'] => none
      | _, x :: _ => quotedWord? single n (x :: out) c.skip
      | _, [] => none

/-- A quoted scalar after its opening quote. -/
def quoted? (single : Bool) : Nat → List Char → Cursor → Option (String × Cursor)
  | 0, _, _ => none
  | n + 1, out, c =>
    if c.atDocumentMark || c.rest.isEmpty then none
    else match quotedWord? single (c.left + 1) out c with
      | none => none
      | some (out, broken, c) =>
        if c.rest.head? = some (if single then '\'' else '"') then
          some (String.ofList out.reverse, c.skip)
        else match gap? (-1) c.left { newLine := broken } c with
          | none => none
          | some (g, c) => quoted? single n (g.close out) c

/-- What to do with the line breaks at the end of a block scalar. -/
inductive Chomp where
  | clip
  | strip
  | keep
  deriving DecidableEq

def chomp? : Char → Option Chomp
  | '+' => some .keep
  | '-' => some .strip
  | _ => none

/-- Marks after `|` or `>`: chomping and indentation, in either order. None for an indentation of
zero. -/
def blockMarks? (c : Cursor) : Option (Chomp × Nat × Cursor) :=
  let digit? (c : Cursor) : Option (Nat × Cursor) :=
    match c.rest with
    | x :: _ => if x.isDigit then if x = '0' then none else some (x.toNat - '0'.toNat, c.skip)
      else some (0, c)
    | [] => some (0, c)
  match c.rest.head?.bind chomp? with
  | some chomp => (digit? c.skip).map fun (n, c) => (chomp, n, c)
  | none => (digit? c).map fun (n, c) =>
    match n, c.rest.head?.bind chomp? with
    | 0, _ => (.clip, 0, c)
    | n, some chomp => (chomp, n, c.skip)
    | n, none => (.clip, n, c)

/-- Indentation and line breaks between the lines of a block scalar, with the widest indentation
seen. An indentation of zero is not known yet. -/
def blockBreaks? (indent : Nat) : Nat → Nat → Nat → Cursor → Option (Nat × Nat × Cursor)
  | 0, breaks, widest, c => some (breaks, widest, c)
  | n + 1, breaks, widest, c =>
    let c := match c.rest with
      | ' ' :: _ =>
        let blanks := (c.rest.takeWhile (· = ' ')).length
        c.skipMany (if indent = 0 then blanks else min blanks (indent - c.col))
      | _ => c
    let widest := max widest c.col
    match c.rest with
    | '\t' :: _ => if indent = 0 || c.col < indent then none else some (breaks, widest, c)
    | x :: _ => if isBreak x then blockBreaks? indent n (breaks + 1) widest c.skipLine
      else some (breaks, widest, c)
    | [] => some (breaks, widest, c)

/-- Lines of a block scalar. `broken` tells that a line break is pending, `breaks` counts the ones
of empty lines, and `spaced` that the last line began with a blank. -/
def blockLines? (literal : Bool) (indent : Nat) :
    Nat → List Char → Bool → Nat → Bool → Cursor → Option (List Char × Bool × Nat × Cursor)
  | 0, _, _, _, _, _ => none
  | n + 1, out, broken, breaks, spaced, c =>
    if c.col ≠ indent || c.rest.isEmpty then some (out, broken, breaks, c)
    else
      let blank := c.rest.head?.any isBlank
      let out :=
        if !literal && broken && !spaced && !blank then if breaks = 0 then ' ' :: out else out
        else if broken then '\n' :: out else out
      let out := Gap.breaks breaks out
      let (line, c) := c.span fun _ => true
      let out := line.reverse ++ out
      if c.rest.isEmpty then some (out, false, 0, c)
      else match blockBreaks? indent (c.left + 1) 0 0 c.skipLine with
        | none => none
        | some (breaks, _, c) => blockLines? literal indent n out true breaks blank c

/-- A block scalar after its `|` or `>`, inside a block of the given indentation. -/
def block? (literal : Bool) (outer : Int) (c : Cursor) : Option (String × Cursor) := do
  let (chomp, increment, c) ← blockMarks? c
  let c ← c.endLine?
  if c.rest.head? = some '\t' then none
  else
    let given := if increment = 0 then 0 else (if outer ≥ 0 then outer.toNat else 0) + increment
    let (breaks, widest, c) ← blockBreaks? given (c.left + 1) 0 0 c
    let indent := if given = 0 then max (max widest (outer + 1).toNat) 1 else given
    let (out, broken, breaks, c) ←
      blockLines? literal indent (c.left + 1) [] false breaks false c
    let out := if chomp ≠ .strip && broken then '\n' :: out else out
    let out := if chomp = .keep then Gap.breaks breaks out else out
    some (String.ofList out.reverse, c)

end DeviceModel.Document.Yaml
