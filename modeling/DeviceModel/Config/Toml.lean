import DeviceModel.Config.Toml.Moment
import DeviceModel.Config.Toml.Number

namespace DeviceModel.Toml

/-- Numbers, dates and times are kept as they are written. -/
inductive Value where
  | string (s : String)
  | bool (b : Bool)
  | number (text : String)
  | moment (text : String)
  | list (items : List Value)
  | table (entries : List (List String × Value))
  deriving Repr

inductive Statement where
  | header (key : List String)
  | listHeader (key : List String)
  | assign (key : List String) (value : Value)
  deriving Repr

def isBlank (c : Char) : Bool := c = ' ' || c = '\t'

def skipBlank (cs : List Char) : List Char := cs.dropWhile isBlank

/-- A character that may stand in a comment or in a string on one line. -/
def isPlain (c : Char) : Bool := c = '\t' || (0x20 ≤ c.toNat && c.toNat ≠ 0x7f)

def newline? : List Char → Option (List Char)
  | '\n' :: rest => some rest
  | '\r' :: '\n' :: rest => some rest
  | _ => none

def skipComment : List Char → List Char
  | '#' :: rest => rest.dropWhile isPlain
  | cs => cs

/-- What follows the end of a line, after blanks and a comment. -/
def lineEnd? (cs : List Char) : Option (List Char) :=
  match skipComment (skipBlank cs) with
  | [] => some []
  | rest => newline? rest

/-- Skips blanks, comments and ends of lines. -/
def skipLines : Nat → List Char → List Char
  | 0, cs => cs
  | fuel + 1, cs =>
    let rest := skipComment (skipBlank cs)
    match newline? rest with
    | some next => skipLines fuel next
    | none => rest

def scalar? (digits : List Char) : Option Char := do
  let n ← Document.natIn? 16 digits
  if n < 0xd800 || (0xe000 ≤ n && n < 0x110000) then some (Char.ofNat n) else none

def escape? : Char → Option Char
  | 'b' => some '\x08'
  | 't' => some '\t'
  | 'n' => some '\n'
  | 'f' => some '\x0c'
  | 'r' => some '\r'
  | '"' => some '"'
  | '\\' => some '\\'
  | _ => none

/-- The character that an escape stands for, after its backslash. -/
def escaped? : List Char → Option (Char × List Char)
  | 'u' :: a :: b :: c :: d :: rest => (scalar? [a, b, c, d]).map (·, rest)
  | 'U' :: a :: b :: c :: d :: e :: f :: g :: h :: rest =>
    (scalar? [a, b, c, d, e, f, g, h]).map (·, rest)
  | c :: rest => (escape? c).map (·, rest)
  | [] => none

/-- The rest of a string on one line, after its opening quote. -/
def basic? : Nat → List Char → List Char → Option (String × List Char)
  | 0, _, _ => none
  | _, _, [] => none
  | _, done, '"' :: rest => some (String.ofList done.reverse, rest)
  | fuel + 1, done, '\\' :: rest => do
    let (c, rest) ← escaped? rest
    basic? fuel (c :: done) rest
  | fuel + 1, done, c :: rest => if isPlain c then basic? fuel (c :: done) rest else none

/-- The rest of a string without escapes on one line, after its opening quote. -/
def literal? (cs : List Char) : Option (String × List Char) :=
  match cs.span (· ≠ '\x27') with
  | (body, _ :: rest) => if body.all isPlain then some (String.ofList body, rest) else none
  | _ => none

/-- Up to two quotes before the three that close a long string belong to it. -/
def closing (quote : Char) (done rest : List Char) : String × List Char :=
  let extra := (rest.takeWhile (· = quote)).take 2
  (String.ofList (done.reverse ++ extra), rest.drop extra.length)

/-- Skips blanks and ends of lines. -/
def skipGap : List Char → List Char
  | '\r' :: '\n' :: rest => skipGap rest
  | c :: rest => if isBlank c || c = '\n' then skipGap rest else c :: rest
  | [] => []

/-- What follows a backslash at the end of a line: nothing up to the next character that is seen. -/
def continued? (cs : List Char) : Option (List Char) := (newline? (skipBlank cs)).map skipGap

/-- The rest of a string over several lines, after its opening quotes. -/
def longBasic? : Nat → List Char → List Char → Option (String × List Char)
  | 0, _, _ => none
  | _, _, [] => none
  | _, done, '"' :: '"' :: '"' :: rest => some (closing '"' done rest)
  | fuel + 1, done, '\\' :: rest =>
    match continued? rest with
    | some rest => longBasic? fuel done rest
    | none => do
      let (c, rest) ← escaped? rest
      longBasic? fuel (c :: done) rest
  | fuel + 1, done, c :: rest =>
    match newline? (c :: rest) with
    | some rest => longBasic? fuel ('\n' :: done) rest
    | none => if isPlain c then longBasic? fuel (c :: done) rest else none

/-- The rest of a string without escapes over several lines, after its opening quotes. -/
def longLiteral? : Nat → List Char → List Char → Option (String × List Char)
  | 0, _, _ => none
  | _, _, [] => none
  | _, done, '\x27' :: '\x27' :: '\x27' :: rest => some (closing '\x27' done rest)
  | fuel + 1, done, c :: rest =>
    match newline? (c :: rest) with
    | some rest => longLiteral? fuel ('\n' :: done) rest
    | none => if isPlain c then longLiteral? fuel (c :: done) rest else none

/-- An end of line right after the opening quotes is no part of the string. -/
def afterOpening (cs : List Char) : List Char := (newline? cs).getD cs

def isBare (c : Char) : Bool := c.isAlphanum || c = '_' || c = '-'

def simpleKey? : List Char → Option (String × List Char)
  | '"' :: rest => basic? (rest.length + 1) [] rest
  | '\x27' :: rest => literal? rest
  | cs =>
    match cs.span isBare with
    | ([], _) => none
    | (name, rest) => some (String.ofList name, rest)

/-- Names with dots between them. -/
def names? : Nat → List Char → Option (List String × List Char)
  | 0, _ => none
  | fuel + 1, cs => do
    let (name, rest) ← simpleKey? cs
    match skipBlank rest with
    | '.' :: rest =>
      let (names, rest) ← names? fuel (skipBlank rest)
      some (name :: names, rest)
    | rest => some ([name], rest)

/-- Values lie within fewer others than this, and a key has fewer names. -/
def limit : Nat := 80

def key? (cs : List Char) : Option (List String × List Char) := do
  let (names, rest) ← names? (cs.length + 1) cs
  if names.length < limit then some (names, rest) else none

/-- The text in front of what follows it. -/
def textBefore (cs rest : List Char) : String := String.ofList (cs.take (cs.length - rest.length))

/-- Anything that is written without quotes or brackets. -/
def bare? (cs : List Char) : Option (Value × List Char) :=
  match cs with
  | 't' :: 'r' :: 'u' :: 'e' :: rest => some (.bool true, rest)
  | 'f' :: 'a' :: 'l' :: 's' :: 'e' :: rest => some (.bool false, rest)
  | _ =>
    match moment? cs with
    | some rest => some (.moment (textBefore cs rest), rest)
    | none => (number? cs).map fun rest => (.number (textBefore cs rest), rest)

mutual

def value? : Nat → List Char → Option (Value × List Char)
  | 0, _ => none
  | fuel + 1, cs =>
    match cs with
    | '"' :: '"' :: '"' :: rest =>
      (longBasic? (cs.length + 1) [] (afterOpening rest)).map fun (s, rest) => (.string s, rest)
    | '\x27' :: '\x27' :: '\x27' :: rest =>
      (longLiteral? (cs.length + 1) [] (afterOpening rest)).map fun (s, rest) => (.string s, rest)
    | '"' :: rest => (basic? (cs.length + 1) [] rest).map fun (s, rest) => (.string s, rest)
    | '\x27' :: rest => (literal? rest).map fun (s, rest) => (.string s, rest)
    | '[' :: rest =>
      (items? fuel (skipLines (rest.length + 1) rest)).map fun (items, rest) => (.list items, rest)
    | '\x7b' :: rest =>
      match skipBlank rest with
      | '\x7d' :: rest => some (.table [], rest)
      | rest => (entries? fuel rest).map fun (entries, rest) => (.table entries, rest)
    | cs => bare? cs

/-- Items of a list up to its end; a comma may follow the last. -/
def items? : Nat → List Char → Option (List Value × List Char)
  | 0, _ => none
  | fuel + 1, cs =>
    match cs with
    | ']' :: rest => some ([], rest)
    | cs => do
      let (v, rest) ← value? fuel cs
      match skipLines (rest.length + 1) rest with
      | ',' :: rest =>
        let (items, rest) ← items? fuel (skipLines (rest.length + 1) rest)
        some (v :: items, rest)
      | ']' :: rest => some ([v], rest)
      | _ => none

/-- Entries of a table on one line up to its end. -/
def entries? : Nat → List Char → Option (List (List String × Value) × List Char)
  | 0, _ => none
  | fuel + 1, cs => do
    let (entry, rest) ← assignment? fuel cs
    match skipBlank rest with
    | ',' :: rest =>
      let (entries, rest) ← entries? fuel (skipBlank rest)
      some (entry :: entries, rest)
    | '\x7d' :: rest => some ([entry], rest)
    | _ => none

/-- A key and its value. -/
def assignment? : Nat → List Char → Option ((List String × Value) × List Char)
  | 0, _ => none
  | fuel + 1, cs => do
    let (key, rest) ← key? cs
    match skipBlank rest with
    | '=' :: rest =>
      let (v, rest) ← value? fuel (skipBlank rest)
      some ((key, v), rest)
    | _ => none

end

/-- No key is given twice, nor below one that is given. -/
def areApart : List (List String) → Bool
  | [] => true
  | key :: rest =>
    rest.all (fun other => !key.isPrefixOf other && !other.isPrefixOf key) && areApart rest

namespace Value

mutual

/-- The lists and tables in a value lie within so many others at most, and each table is sound. -/
def isSound : Nat → Value → Bool
  | levels + 1, .list items => areSound levels items
  | levels + 1, .table entries => areApart (entries.map (·.1)) && entriesAreSound levels entries
  | 0, .list _ => false
  | 0, .table _ => false
  | _, _ => true

def areSound : Nat → List Value → Bool
  | _, [] => true
  | levels, v :: rest => isSound levels v && areSound levels rest

def entriesAreSound : Nat → List (List String × Value) → Bool
  | _, [] => true
  | levels, (_, v) :: rest => isSound levels v && entriesAreSound levels rest

end

end Value

def header? (cs : List Char) : Option (Statement × List Char) :=
  match cs with
  | '[' :: rest => do
    let (key, rest) ← key? (skipBlank rest)
    match skipBlank rest with
    | ']' :: ']' :: rest => some (.listHeader key, rest)
    | _ => none
  | _ => do
    let (key, rest) ← key? (skipBlank cs)
    match skipBlank rest with
    | ']' :: rest => some (.header key, rest)
    | _ => none

def statement? (cs : List Char) : Option (Statement × List Char) :=
  match cs with
  | '[' :: rest => header? rest
  | cs => do
    let ((key, v), rest) ← assignment? (2 * cs.length + 2) cs
    if v.isSound (limit - 1) then some (.assign key v, rest) else none

def statements? : Nat → List Char → Option (List Statement)
  | 0, _ => none
  | fuel + 1, cs =>
    match skipLines (cs.length + 1) cs with
    | [] => some []
    | cs => do
      let (s, rest) ← statement? cs
      return s :: (← statements? fuel (← lineEnd? rest))

/-- The statements of a text; a mark of byte order at its start is skipped. -/
def read? (text : String) : Option (List Statement) :=
  let cs := text.toList
  let cs := if cs.head? = some '\ufeff' then cs.drop 1 else cs
  statements? (cs.length + 1) cs

end DeviceModel.Toml
