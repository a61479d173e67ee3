import DeviceModel.Document.Spot
import DeviceModel.Document.Yaml.Token

namespace DeviceModel.Document.Yaml

/-- The number that each anchor gives its node, latest first, and the nodes by number. -/
structure Anchors where
  names : List (String × Nat)
  nodes : Array Node

/-- A node, the anchors known after it, and the tokens that follow. -/
abbrev Parsed := Node × Anchors × List Token

/-- What stands where nothing is written. -/
def absent : Node := .scalar (.written "~" true none)

namespace Anchors

def empty : Anchors := ⟨[], #[]⟩

/-- A node with this anchor begins. -/
def start (a : Anchors) (name : String) : Anchors :=
  ⟨(name, a.nodes.size) :: a.names, a.nodes.push absent⟩

/-- The node of a number is known. -/
def finish (a : Anchors) (number : Nat) (n : Node) : Anchors :=
  { a with nodes := a.nodes.setIfInBounds number n }

end Anchors

def tagOf : String × String → Tag
  | ("!!", "null") => .kind .null
  | ("!!", "bool") => .kind .bool
  | ("!!", "int") => .kind .int
  | ("!!", "float") => .kind .float
  | ("!", name) => .own name
  | _ => .other

def scalarNode (tag : Option (String × String)) (plain : Bool) (text : String) : Node :=
  .scalar (.written text plain (tag.map tagOf))

/-- Anchor and tag in front of a node, in either order. -/
def properties : List Token → Option String × Option (String × String) × List Token
  | .anchor name :: .tag handle suffix :: rest => (some name, some (handle, suffix), rest)
  | .tag handle suffix :: .anchor name :: rest => (some name, some (handle, suffix), rest)
  | .anchor name :: rest => (some name, none, rest)
  | .tag handle suffix :: rest => (none, some (handle, suffix), rest)
  | rest => (none, none, rest)

def endsBlockNode : List Token → Bool
  | .key :: _ => true
  | .value :: _ => true
  | .blockEnd :: _ => true
  | _ => false

def endsFlowPair (close : Token) : List Token → Bool
  | .flowEntry :: _ => true
  | t :: _ => t = close
  | [] => false

mutual

/-- A node. `block` admits block collections, `entries` a list that is not indented. The number
bounds the nodes still to come. -/
def node? : Nat → Bool → Bool → Anchors → List Token → Option Parsed
  | 0, _, _, _, _ => none
  | n + 1, block, entries, anchors, tokens =>
    match tokens with
    | .alias name :: rest =>
      (anchors.names.lookup name).map fun number => (.reference number, anchors, rest)
    | _ =>
      let (anchor, tag, rest) := properties tokens
      let inside := match anchor with
        | some name => anchors.start name
        | none => anchors
      let content : Option Parsed := match rest with
        | .scalar plain text :: rest => some (scalarNode tag plain text, inside, rest)
        | .flowListStart :: rest => flowList? n true [] inside rest
        | .flowMapStart :: rest => flowMap? n true [] inside rest
        | .blockEntry :: _ =>
          if entries then entryList? n [] inside rest
          else if anchor.isSome || tag.isSome then some (scalarNode tag true "", inside, rest)
          else none
        | .blockListStart :: after =>
          if block then blockList? n [] inside after
          else if anchor.isSome || tag.isSome then some (scalarNode tag true "", inside, rest)
          else none
        | .blockMapStart :: after =>
          if block then blockMap? n [] inside after
          else if anchor.isSome || tag.isSome then some (scalarNode tag true "", inside, rest)
          else none
        | _ =>
          if anchor.isSome || tag.isSome then some (scalarNode tag true "", inside, rest) else none
      match content, anchor with
      | some (node, known, rest), some _ => some (node, known.finish anchors.nodes.size node, rest)
      | content, _ => content

/-- Entries of a list that is indented. -/
def blockList? : Nat → List Node → Anchors → List Token → Option Parsed
  | 0, _, _, _ => none
  | n + 1, done, anchors, tokens =>
    match tokens with
    | .blockEnd :: rest => some (.list done.reverse, anchors, rest)
    | .blockEntry :: .blockEntry :: rest =>
      blockList? n (absent :: done) anchors (.blockEntry :: rest)
    | .blockEntry :: .blockEnd :: rest => blockList? n (absent :: done) anchors (.blockEnd :: rest)
    | .blockEntry :: rest =>
      match node? n true false anchors rest with
      | none => none
      | some (node, anchors, rest) => blockList? n (node :: done) anchors rest
    | _ => none

/-- Entries of a list that is not indented more than the key before it. -/
def entryList? : Nat → List Node → Anchors → List Token → Option Parsed
  | 0, _, _, _ => none
  | n + 1, done, anchors, tokens =>
    match tokens with
    | .blockEntry :: .blockEntry :: rest =>
      entryList? n (absent :: done) anchors (.blockEntry :: rest)
    | .blockEntry :: rest =>
      if endsBlockNode rest then entryList? n (absent :: done) anchors rest
      else match node? n true false anchors rest with
        | none => none
        | some (node, anchors, rest) => entryList? n (node :: done) anchors rest
    | rest => some (.list done.reverse, anchors, rest)

def blockMap? : Nat → List (Node × Node) → Anchors → List Token → Option Parsed
  | 0, _, _, _ => none
  | n + 1, done, anchors, tokens =>
    let key : Option Parsed := match tokens with
      | .key :: rest =>
        if endsBlockNode rest then some (absent, anchors, rest) else node? n true true anchors rest
      | .value :: _ => some (absent, anchors, tokens)
      | _ => none
    match tokens, key with
    | .blockEnd :: rest, _ => some (.map done.reverse, anchors, rest)
    | _, none => none
    | _, some (key, anchors, .value :: rest) =>
      if endsBlockNode rest then blockMap? n ((key, absent) :: done) anchors rest
      else match node? n true true anchors rest with
        | none => none
        | some (v, anchors, rest) => blockMap? n ((key, v) :: done) anchors rest
    | _, some (key, anchors, rest) => blockMap? n ((key, absent) :: done) anchors rest

/-- Items of a flow list; all but the first follow a comma. -/
def flowList? : Nat → Bool → List Node → Anchors → List Token → Option Parsed
  | 0, _, _, _, _ => none
  | n + 1, first, done, anchors, tokens =>
    let item : Option (List Token) := match first, tokens with
      | true, _ => some tokens
      | false, .flowEntry :: rest => some rest
      | false, _ => none
    match tokens, item with
    | .flowListEnd :: rest, _ => some (.list done.reverse, anchors, rest)
    | _, none => none
    | _, some (.flowListEnd :: rest) => some (.list done.reverse, anchors, rest)
    | _, some (.key :: rest) =>
      match flowPair? n anchors rest with
      | none => none
      | some (node, anchors, rest) => flowList? n false (node :: done) anchors rest
    | _, some rest =>
      match node? n false false anchors rest with
      | none => none
      | some (node, anchors, rest) => flowList? n false (node :: done) anchors rest

/-- A pair in a flow list, which is a map of its own, after its key mark. -/
def flowPair? : Nat → Anchors → List Token → Option Parsed
  | 0, _, _ => none
  | n + 1, anchors, tokens =>
    let key : Option Parsed := match tokens with
      | .value :: rest => some (absent, anchors, rest)
      | .flowEntry :: rest => some (absent, anchors, rest)
      | .flowListEnd :: rest => some (absent, anchors, rest)
      | _ => node? n false false anchors tokens
    match key with
    | none => none
    | some (key, anchors, .value :: rest) =>
      if endsFlowPair .flowListEnd rest then some (.map [(key, absent)], anchors, rest)
      else match node? n false false anchors rest with
        | none => none
        | some (v, anchors, rest) => some (.map [(key, v)], anchors, rest)
    | some (key, anchors, rest) => some (.map [(key, absent)], anchors, rest)

def flowMap? : Nat → Bool → List (Node × Node) → Anchors → List Token → Option Parsed
  | 0, _, _, _, _ => none
  | n + 1, first, done, anchors, tokens =>
    let pair : Option (List Token) := match first, tokens with
      | true, _ => some tokens
      | false, .flowEntry :: rest => some rest
      | false, _ => none
    match tokens, pair with
    | .flowMapEnd :: rest, _ => some (.map done.reverse, anchors, rest)
    | _, none => none
    | _, some (.flowMapEnd :: rest) => some (.map done.reverse, anchors, rest)
    | _, some (.key :: rest) =>
      if rest.head? = some .value || endsFlowPair .flowMapEnd rest then
        flowValue? n done absent anchors rest
      else match node? n false false anchors rest with
        | none => none
        | some (key, anchors, rest) => flowValue? n done key anchors rest
    | _, some (.value :: rest) => flowValue? n done absent anchors (.value :: rest)
    | _, some rest =>
      match node? n false false anchors rest with
      | none => none
      | some (key, anchors, rest) => flowMap? n false ((key, absent) :: done) anchors rest

/-- The value of a key of a flow map, then the rest of the map. -/
def flowValue? : Nat → List (Node × Node) → Node → Anchors → List Token → Option Parsed
  | 0, _, _, _, _ => none
  | n + 1, done, key, anchors, tokens =>
    match tokens with
    | .value :: rest =>
      if endsFlowPair .flowMapEnd rest then flowMap? n false ((key, absent) :: done) anchors rest
      else match node? n false false anchors rest with
        | none => none
        | some (v, anchors, rest) => flowMap? n false ((key, v) :: done) anchors rest
    | rest => flowMap? n false ((key, absent) :: done) anchors rest

end

def isDirective : Token → Bool
  | .directive => true
  | _ => false

/-- Nothing stands between this document mark and what follows. -/
def isEmptyDocument : List Token → Bool
  | [] => true
  | .directive :: _ => true
  | .documentStart :: _ => true
  | .documentEnd :: _ => true
  | _ => false

/-- One document, its anchors and the tokens after it. Only the first one needs no `---`. -/
def document? (first : Bool) (tokens : List Token) : Option Parsed := do
  let isMarked := match tokens with
    | .directive :: _ => true
    | .documentStart :: _ => true
    | _ => !first
  let (node, anchors, rest) ←
    if isMarked then
      match tokens.dropWhile isDirective with
      | .documentStart :: rest =>
        if isEmptyDocument rest then some (absent, .empty, rest)
        else node? (4 * rest.length + 4) true false .empty rest
      | _ => none
    else node? (4 * tokens.length + 4) true false .empty tokens
  match rest with
  | .documentEnd :: rest => some (node, anchors, rest)
  | rest => some (node, anchors, rest)

def isDocumentEnd : Token → Bool
  | .documentEnd => true
  | _ => false

/-- The tree of a YAML text that holds exactly one document. -/
def read? (text : String) : Option Tree := do
  let tokens ← tokens? text
  if tokens.isEmpty then none
  else
    let (root, anchors, rest) ← document? true tokens
    if (rest.dropWhile isDocumentEnd).isEmpty then
      some { root, numbered := anchors.nodes, levels := 128, countsTags := false }
    else none

end DeviceModel.Document.Yaml
