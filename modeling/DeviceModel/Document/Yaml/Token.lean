import DeviceModel.Document.Yaml.Scalars

namespace DeviceModel.Document.Yaml

inductive Token where
  | directive
  | documentStart
  | documentEnd
  | blockListStart
  | blockMapStart
  | blockEnd
  | flowListStart
  | flowListEnd
  | flowMapStart
  | flowMapEnd
  | blockEntry
  | flowEntry
  | key
  | value
  | alias (name : String)
  | anchor (name : String)
  | tag (handle suffix : String)
  | scalar (plain : Bool) (text : String)
  deriving DecidableEq, Repr

/-- Where a key may have begun: the number of the token it would precede, and its place. -/
structure KeyStart where
  possible : Bool := false
  required : Bool := false
  token : Nat := 0
  line : Nat := 0
  col : Nat := 0
  index : Nat := 0

structure Scanner where
  cursor : Cursor
  tokens : Array Token := #[]
  keyAllowed : Bool := true
  /-- One for the block and one for each open flow collection, innermost first. -/
  keys : List KeyStart := [{}]
  indent : Int := -1
  indents : List Int := []
  flowLevel : Nat := 0
  /-- Place after the last quoted scalar, where a colon needs no gap in flow style. -/
  afterQuote : Nat := 0

namespace Scanner

def push (s : Scanner) (t : Token) : Scanner := { s with tokens := s.tokens.push t }

def rest (s : Scanner) : List Char := s.cursor.rest

def inFlow (s : Scanner) : Bool := s.flowLevel > 0

def move (s : Scanner) (n : Nat) : Scanner := { s with cursor := s.cursor.skipMany n }

def allow (s : Scanner) (allowed : Bool) : Scanner := { s with keyAllowed := allowed }

/-- Blanks, comments and line breaks. -/
def skipToToken : Nat → Scanner → Scanner
  | 0, s => s
  | n + 1, s =>
    match s.rest with
    | ' ' :: _ => skipToToken n (s.move 1)
    | '\t' :: _ => if s.inFlow || !s.keyAllowed then skipToToken n (s.move 1) else s
    | '#' :: _ => skipToToken n { s with cursor := s.cursor.skipToLineEnd }
    | c :: _ =>
      if isBreak c then
        skipToToken n
          { s with cursor := s.cursor.skipLine, keyAllowed := s.keyAllowed || !s.inFlow }
      else s
    | [] => s

/-- A key ends on the line it begins on and within 1024 characters. -/
def isStale (s : Scanner) (k : KeyStart) : Bool :=
  k.possible && (k.line < s.cursor.line || k.index + 1024 < s.cursor.index)

def dropStale? (s : Scanner) : Option Scanner :=
  if s.keys.any fun k => s.isStale k && k.required then none
  else
    some { s with
      keys := s.keys.map fun k => if s.isStale k then { k with possible := false } else k }

/-- Ends the blocks that are indented more than `col`. -/
def unroll (col : Int) : Nat → Scanner → Scanner
  | 0, s => s
  | n + 1, s =>
    if !s.inFlow && s.indent > col then
      match s.indents with
      | outer :: rest => unroll col n { s.push .blockEnd with indent := outer, indents := rest }
      | [] => s
    else s

def unrollTo (s : Scanner) (col : Int) : Scanner := unroll col s.indents.length s

/-- Begins a block at `col`, before the numbered token or at the end. -/
def roll (s : Scanner) (col : Nat) (number : Option Nat) (t : Token) : Scanner :=
  if s.inFlow || s.indent ≥ col then s
  else
    let tokens := match number with
      | some n => s.tokens.insertIdxIfInBounds n t
      | none => s.tokens.push t
    { s with tokens := tokens, indent := col, indents := s.indent :: s.indents }

def forgetKey? (s : Scanner) : Option Scanner :=
  match s.keys with
  | k :: rest =>
    if k.possible && k.required then none
    else some { s with keys := { k with possible := false } :: rest }
  | [] => some s

/-- Notes that a key may begin here. -/
def saveKey? (s : Scanner) : Option Scanner :=
  if s.keyAllowed then do
    let s ← s.forgetKey?
    let k : KeyStart :=
      { possible := true, required := s.inFlow && s.indent = s.cursor.col, token := s.tokens.size,
        line := s.cursor.line, col := s.cursor.col, index := s.cursor.index }
    some { s with keys := k :: s.keys.drop 1 }
  else some s

def flowStart? (s : Scanner) (t : Token) : Option Scanner := do
  let s ← s.saveKey?
  if s.flowLevel ≥ 255 then none
  else
    let inner := { s with keys := {} :: s.keys, flowLevel := s.flowLevel + 1, keyAllowed := true }
    some (inner.move 1 |>.push t)

def flowEnd? (s : Scanner) (t : Token) : Option Scanner := do
  let s ← s.forgetKey?
  let s := if s.inFlow then { s with keys := s.keys.drop 1, flowLevel := s.flowLevel - 1 } else s
  some ((s.allow false).move 1 |>.push t)

def flowEntry? (s : Scanner) : Option Scanner := do
  let s ← s.forgetKey?
  some ((s.allow true).move 1 |>.push .flowEntry)

def blockEntry? (s : Scanner) : Option Scanner := do
  if s.inFlow || !s.keyAllowed then none
  else
    let s ← (s.roll s.cursor.col none .blockListStart).forgetKey?
    some ((s.allow true).move 1 |>.push .blockEntry)

def key? (s : Scanner) : Option Scanner := do
  if !s.inFlow && !s.keyAllowed then none
  else
    let s ← (s.roll s.cursor.col none .blockMapStart).forgetKey?
    some ((s.allow !s.inFlow).move 1 |>.push .key)

def value? (s : Scanner) : Option Scanner :=
  match s.keys with
  | k :: rest =>
    if k.possible then
      let s := { s with tokens := s.tokens.insertIdxIfInBounds k.token .key }
      let s := s.roll k.col (some k.token) .blockMapStart
      let s := { s with keys := { k with possible := false } :: rest, keyAllowed := false }
      some (s.move 1 |>.push .value)
    else if !s.inFlow && !s.keyAllowed then none
    else
      let s := s.roll s.cursor.col none .blockMapStart
      some ((s.allow !s.inFlow).move 1 |>.push .value)
  | [] => none

/-- An anchor or alias: a name of word characters. -/
def name? (s : Scanner) (make : String → Token) : Option Scanner := do
  let s ← s.saveKey?
  let (name, cursor) := s.cursor.skip.span isWord
  let ends := match cursor.rest with
    | [] => true
    | c :: _ => isBlank c || isBreak c || ['?', ':', ',', ']', '}', '%', '@', '\x60'].contains c
  if name.isEmpty || !ends then none
  else some ({ s with cursor := cursor, keyAllowed := false }.push (make (String.ofList name)))

def isUri (c : Char) : Bool :=
  isWord c || [';', '/', '?', ':', '@', '&', '=', '+', '$', ',', '.', '!', '~', '*', '\'', '(', ')',
    '[', ']'].contains c

/-- An octet after a percent sign. -/
def octet? : List Char → Option Nat
  | '%' :: high :: low :: _ => natIn? 16 [high, low]
  | _ => none

/-- How many octets a character has, by the first of them. -/
def octetCount? (first : Nat) : Option Nat :=
  if first < 0x80 then some 1
  else if first / 0x20 = 6 then some 2
  else if first / 0x10 = 0xe then some 3
  else if first / 8 = 0x1e then some 4
  else none

/-- The octets of a character after the first, put behind the code so far. -/
def octets? : Nat → Nat → Cursor → Option (Nat × Cursor)
  | 0, code, c => some (code, c)
  | n + 1, code, c => do
    let octet ← octet? c.rest
    if octet / 0x40 = 2 then octets? n (code * 0x100 + octet) (c.skipMany 3) else none

/-- A character of a tag written in octets, which make up its code in a row. -/
def percent? (c : Cursor) : Option (Char × Cursor) := do
  let first ← octet? c.rest
  let (code, c) ← octets? ((← octetCount? first) - 1) first (c.skipMany 3)
  if code.isValidChar then some (Char.ofNat code, c) else none

/-- Characters of a tag after those already read. -/
def uri? : Nat → List Char → Cursor → Option (List Char × Cursor)
  | 0, _, _ => none
  | n + 1, done, c =>
    match c.rest with
    | '%' :: _ => do
      let (x, c) ← percent? c
      uri? n (x :: done) c
    | x :: _ => if isUri x then uri? n (x :: done) c.skip else some (done.reverse, c)
    | [] => some (done.reverse, c)

def uriAt? (c : Cursor) : Option (List Char × Cursor) := uri? (c.left + 1) [] c

/-- `!`, a word, and a second `!` if there is one. -/
def handle (c : Cursor) : String × Cursor :=
  let (name, after) := c.skip.span isWord
  match after.rest with
  | '!' :: _ => (String.ofList ('!' :: name ++ ['!']), after.skip)
  | _ => (String.ofList ('!' :: name), after)

/-- A tag: `!<uri>`, `!handle!suffix` or `!suffix`. -/
def tag? (s : Scanner) : Option Scanner := do
  let s ← s.saveKey?
  let (given, suffix, cursor) ← match s.rest with
    | '!' :: '<' :: _ => do
      let (uri, cursor) ← uriAt? (s.cursor.skipMany 2)
      if uri.isEmpty || cursor.rest.head? ≠ some '>' then none
      else some ("", String.ofList uri, cursor.skip)
    | _ => do
      let (given, cursor) := handle s.cursor
      let (uri, cursor) ← uriAt? cursor
      if given.length ≥ 2 && given.toList.getLast? = some '!' then
        if uri.isEmpty then none else some (given, String.ofList uri, cursor)
      else
        let suffix := String.ofList (given.toList.drop 1 ++ uri)
        if suffix = "" then some ("", "!", cursor) else some ("!", suffix, cursor)
  if atGap cursor.rest then
    some ({ s with cursor := cursor, keyAllowed := false }.push (.tag given suffix))
  else none

def plain? (s : Scanner) : Option Scanner := do
  let s ← s.saveKey?
  let (out, newLine, cursor) ←
    Yaml.plain? s.inFlow (s.indent + 1) (s.cursor.left + 1) {} [] s.cursor
  some ({ s with cursor := cursor, keyAllowed := newLine }.push
    (.scalar true (String.ofList out.reverse)))

def quoted? (s : Scanner) (single : Bool) : Option Scanner := do
  let s ← s.saveKey?
  let (text, cursor) ← Yaml.quoted? single (s.cursor.left + 1) [] s.cursor.skip
  some ({ s with cursor := cursor, keyAllowed := false, afterQuote := cursor.index }.push
    (.scalar false text))

def block? (s : Scanner) (literal : Bool) : Option Scanner := do
  let s ← s.saveKey?
  let (text, cursor) ← Yaml.block? literal s.indent s.cursor.skip
  some ({ s with cursor := cursor, keyAllowed := true }.push (.scalar false text))

def number? (c : Cursor) : Option Cursor :=
  let (digits, c) := c.span Char.isDigit
  if digits.isEmpty || digits.length > 9 then none else some c

/-- The rest of `%YAML`: two numbers with a point between. -/
def version? (c : Cursor) : Option Cursor := do
  let c ← number? c.skipBlanks
  if c.rest.head? = some '.' then number? c.skip else none

/-- The rest of `%TAG`: a handle and a prefix. -/
def tagPrefix? (c : Cursor) : Option Cursor :=
  let c := c.skipBlanks
  if c.rest.head? ≠ some '!' then none
  else
    let (given, c) := handle c
    if given ≠ "!" && given.toList.getLast? ≠ some '!' then none
    else do
      let (uri, c) ← uriAt? c.skipBlanks
      if uri.isEmpty || !atGap c.rest then none else some c

def directive? (s : Scanner) : Option Scanner := do
  let s ← (s.unrollTo (-1)).forgetKey?
  let (name, cursor) := s.cursor.skip.span isWord
  if name.isEmpty || !atGap cursor.rest then none
  else
    let cursor ← match String.ofList name with
      | "YAML" => version? cursor
      | "TAG" => tagPrefix? cursor
      | _ => some cursor.skipToLineEnd
    let cursor ← cursor.endLine?
    some ({ s with cursor := cursor, keyAllowed := false }.push .directive)

def documentMark? (s : Scanner) : Option Scanner := do
  let t := if s.rest.head? = some '-' then .documentStart else .documentEnd
  let s ← (s.unrollTo (-1)).forgetKey?
  some ((s.allow false).move 3 |>.push t)

/-- A colon starts a value before a gap; in flow style also before a bracket and after a quote. -/
def startsValue (s : Scanner) (after : List Char) : Bool :=
  atGap after || (s.inFlow && (after.head?.any isFlow || s.cursor.index = s.afterQuote))

def token? (s : Scanner) : Option Scanner :=
  match s.rest with
  | [] => some s
  | c :: after =>
    if s.cursor.col = 0 && c = '%' then s.directive?
    else if s.cursor.atDocumentMark then s.documentMark?
    else match c with
      | '[' => s.flowStart? .flowListStart
      | '{' => s.flowStart? .flowMapStart
      | ']' => s.flowEnd? .flowListEnd
      | '}' => s.flowEnd? .flowMapEnd
      | ',' => s.flowEntry?
      | '-' => if atGap after then s.blockEntry? else s.plain?
      | '?' => if atGap after then s.key? else s.plain?
      | ':' => if s.startsValue after then s.value? else s.plain?
      | '*' => s.name? .alias
      | '&' => s.name? .anchor
      | '!' => s.tag?
      | '|' => if s.inFlow then s.plain? else s.block? true
      | '>' => if s.inFlow then s.plain? else s.block? false
      | '\'' => s.quoted? true
      | '"' => s.quoted? false
      | '%' => none
      | '@' => none
      | '\x60' => none
      | _ => s.plain?

/-- Every token up to the end of the text. -/
def run? : Nat → Scanner → Option Scanner
  | 0, _ => none
  | n + 1, s => do
    let s ← (skipToToken (s.cursor.left + 1) s).dropStale?
    let s := s.unrollTo s.cursor.col
    if s.rest.isEmpty then (s.unrollTo (-1)).forgetKey?
    else run? n (← s.token?)

end Scanner

/-- The tokens of a text. It ends at a zero character. -/
def tokens? (text : String) : Option (List Token) :=
  let cs := text.toList.takeWhile (· ≠ '\x00')
  (Scanner.run? (cs.length + 1) { cursor := .start cs }).map (·.tokens.toList)

end DeviceModel.Document.Yaml
