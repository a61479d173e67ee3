import DeviceModel.Proofs.Forest
import DeviceModel.Resolve.Import

namespace DeviceModel.Resolve

open Description (Declaration Import)

namespace Site

/-- Where outermost parameters stand. -/
def root (realm : Realm) (folder : Path) : Site := { Slot.root realm folder with path := "" }

/-- Where the children of a parameter stand, once it is in the arena. -/
def below (site : Site) (oid : String) (id : ParamId) (scope : String) : Site :=
  { site.inner oid id scope with path := site.fqoid oid }

end Site

/-- A copy in its place, with the copies below it. -/
def graft (source : Param) (parent : ParamId) (path : String) (realm : Realm) (id : ParamId)
    (children : Entries ParamId) : Param :=
  { source with
    id
    fqoid := path ++ "/" ++ source.oid
    parent := some parent
    realm
    isCommand := false
    declares := none
    children }

/-- The forest is a copy of finished parameters, at a new place in the tree. -/
inductive Copied (realm : Realm) : Ground → ParamId → String → Entries ParamId → Forest → Prop where
  | nil {g : Ground} {parent : ParamId} {path : String} : Copied realm g parent path [] .nil
  | cons {g : Ground} {parent : ParamId} {path key : String} {entries : Entries ParamId}
      {source p : Param} {below rest : Forest}
      (known : source ∈ g.known)
      (node : p = graft source parent path realm ⟨g.count⟩ below.entries)
      (fresh : g.idents.get? p.ident = none)
      (inner : Copied realm (g.enter realm p.fqoid none) ⟨g.count⟩ p.fqoid source.children below)
      (next : Copied realm (g.after (.tree p {} below)) parent path entries rest) :
      Copied realm g parent path ((key, source.id) :: entries) (.cons p {} below rest)

/-- The constraint that a parameter declares, and what it adds for it. -/
inductive Ruled (g : Ground) (site : Site) (oid : String) :
    Option Description.Constraint → Option Constraint → Option ConstraintId → Prop where
  | none : Ruled g site oid none none none
  | shared {c : Description.Constraint} {reference : String} {id : ConstraintId}
      (referred : c.reference = some reference) (untyped : c.type = none)
      (found : g.shared.get? reference = some id) : Ruled g site oid (some c) none (some id)
  | inline {c : Description.Constraint} {rule : Rule}
      (unreferred : c.reference = none) (classified : Rule.classify (site.fqoid oid) c = .ok rule) :
      Ruled g site oid (some c)
        (some ⟨site.fqoid oid, Param.identOf site.realm (site.fqoid oid), some ⟨g.count⟩, rule⟩)
        (some ⟨g.constraints.length⟩)

/-- What every declared parameter comes to, whatever its type is from. -/
structure Settled (g : Ground) (site : Site) (oid : String) (d : Declaration)
    (binding : Option Binding) (typing : Typing) (below : Forest) (own : Share) (p : Param) :
    Prop where
  declared : declaredType site oid d = .ok p.declared
  node : p = { blank site oid p.declared d with
    id := ⟨g.count⟩
    type := typing.type
    declares := typing.declares
    container := typing.container
    template := binding.map Binding.template
    constraint := p.constraint
    value := p.value
    children := below.entries }
  fresh : g.idents.get? p.ident = none
  ruled : ∃ id, Ruled g site oid d.constraint own.rule id ∧
    p.constraint = (id <|> binding.bind Binding.constraint)
  checked : ∀ c, p.constraint = some c →
    ∃ k, (g.constraints ++ own.rule.toList ++ below.constraints)[c.index]? = some k ∧
      typing.type.element.code = .single k.rule.kind
  given : ∀ v, d.value = some v →
    ∃ i,
      value (g.types ++ below.types ++ own.types).toArray v (site.fqoid oid) typing.type = .ok i ∧
      p.value = some i
  ungiven : d.value = none → p.value = binding.bind Binding.value

/-- What a parameter has from its template. -/
def bindingOf (template : Param) (type : ValueType) (overElements : Bool) : Binding :=
  ⟨template.id, type, overElements, template.constraint,
    if overElements then none else template.value⟩

/-- The container that an array over a template's elements declares. -/
def templatedContainer (g : Ground) (site : Site) (oid : String) (type : ValueType)
    (overElements : Bool) :
    Option TypeDecl :=
  if overElements && type.element.declared?.isSome then
    some ⟨Text.capitalize oid, site.scope, ⟨g.count⟩, .array type.element⟩
  else none

def templatedTyping (g : Ground) (template : Param) (type : ValueType) (overElements : Bool) :
    Typing :=
  { type
    container :=
      if overElements then if type.element.declared?.isSome then some ⟨g.types.length⟩ else none
      else template.container }

/-- What a struct, a variant or an array of them adds. Its types come after those below it. -/
def compositeShare (g : Ground) (site : Site) (oid : String) (declared : TypeCode)
    (rule : Option Constraint) (below : Forest) : Share :=
  let element := elementType declared ⟨g.types.length + below.types.length⟩
  { rule
    element :=
      some ⟨elementName oid declared, site.scope, ⟨g.count⟩, elementShape declared below.roots⟩
    container :=
      if declared.isArray then some ⟨Text.capitalize oid, site.scope, ⟨g.count⟩, .array element⟩
      else none }

def compositeTyping (g : Ground) (declared : TypeCode) (below : Forest) : Typing :=
  let index := g.types.length + below.types.length
  let element := elementType declared ⟨index⟩
  { type := if declared.isArray then .array element else element
    declares := some ⟨index⟩
    container := if declared.isArray then some ⟨index + 1⟩ else none }

def plainTyping (declared : TypeCode) : Typing :=
  { type := (ValueType.ofCode? declared).getD .empty }

/-- An import that opens: the identity of the document, and the parameter it describes. -/
def Opens (source : Source) (opened : List Path) (site : Site) (oid : String) (i : Import)
    (identity : Path) (q : Description.Param) : Prop :=
  ∃ path, importPath source site.folder (site.fqoid oid) oid i = .ok path ∧
    importIdentity source opened (site.fqoid oid) path = .ok identity ∧
    importedParam source (site.fqoid oid) path = .ok q

/-- The descriptions at a site grow into the forest, while some documents are open. -/
inductive Grown (source : Source) :
    List Path → Ground → Site → List (String × Description.Param) → Forest → Prop where
  | nil {opened : List Path} {g : Ground} {site : Site} : Grown source opened g site [] .nil
  | cons {opened : List Path} {g : Ground} {site : Site} {oid : String} {q : Description.Param}
      {others : List (String × Description.Param)} {f rest : Forest}
      (first : Grown source opened g site [(oid, q)] f)
      (next : Grown source opened (g.after f) site others rest) :
      Grown source opened g site ((oid, q) :: others) (f.append rest)
  | imported {opened : List Path} {g : Ground} {site : Site} {oid : String} {d : Declaration}
      {params : List (String × Description.Param)} {i : Import} {identity : Path}
      {q : Description.Param}
      {f : Forest}
      (elsewhere : d.source = some i) (opens : Opens source opened site oid i identity q)
      (grown : Grown source (identity :: opened) g site [(oid, q)] f) :
      Grown source opened g site [(oid, ⟨d, params⟩)] f
  | templated {opened : List Path} {g : Ground} {site : Site} {oid : String} {d : Declaration}
      {templateOid : String} {template p : Param} {type : ValueType} {overElements : Bool}
      {below : Forest}
      {rule : Option Constraint}
      (here : d.source = none) (referred : d.template = some templateOid)
      (known : template ∈ g.known) (found : template.fqoid = completeOid templateOid)
      (inParams : template.realm = .params)
      (fits : ValueType.ofTemplate? p.declared template.type = some (type, overElements))
      (copied : Copied site.realm (g.enter site.realm (site.fqoid oid) rule) ⟨g.count⟩
        (site.fqoid oid) template.children below)
      (apart : (templatedContainer g site oid type overElements).isSome →
        site.scope.getLast? ≠ some (Text.capitalize oid))
      (settled : Settled g site oid d (some (bindingOf template type overElements))
        (templatedTyping g template type overElements) below
        { rule, container := templatedContainer g site oid type overElements } p) :
      Grown source opened g site [(oid, ⟨d, []⟩)]
        (.tree p { rule, container := templatedContainer g site oid type overElements } below)
  | composite {opened : List Path} {g : Ground} {site : Site} {oid : String} {d : Declaration}
      {params : List (String × Description.Param)} {p : Param} {below : Forest}
      {rule : Option Constraint}
      (here : d.source = none) (untemplated : d.template = none)
      (declares : p.declared.declaresType = true)
      (distinct : Entries.duplicate? params = none)
      (some : params = [] → makesStruct p.declared = true)
      (apart : site.scope.getLast? ≠ .some (elementName oid p.declared))
      (arrayApart : p.declared.isArray = true → site.scope.getLast? ≠ .some (Text.capitalize oid))
      (grown : Grown source opened (g.enter site.realm (site.fqoid oid) rule)
        (site.below oid ⟨g.count⟩ (innerName oid p.declared)) params below)
      (settled : Settled g site oid d none (compositeTyping g p.declared below) below
        (compositeShare g site oid p.declared rule below) p) :
      Grown source opened g site [(oid, ⟨d, params⟩)]
        (.tree p (compositeShare g site oid p.declared rule below) below)
  | plain {opened : List Path} {g : Ground} {site : Site} {oid : String} {d : Declaration}
      {params : List (String × Description.Param)} {p : Param} {below : Forest}
      {rule : Option Constraint}
      (here : d.source = none) (untemplated : d.template = none)
      (undeclared : p.declared.declaresType = false)
      (distinct : Entries.duplicate? params = none)
      (allowed : params = [] ∨ site.isCommand = true)
      (grown : Grown source opened (g.enter site.realm (site.fqoid oid) rule)
        (site.below oid ⟨g.count⟩ (holderName oid)) params below)
      (settled : Settled g site oid d none (plainTyping p.declared) below { rule } p) :
      Grown source opened g site [(oid, ⟨d, params⟩)] (.tree p { rule } below)

section Facts

variable {g : Ground} {site : Site} {key : String} {d : Declaration} {binding : Option Binding}
  {typing : Typing} {below : Forest} {own : Share} {p : Param}

theorem Settled.id (h : Settled g site key d binding typing below own p) : p.id = ⟨g.count⟩ := by
  rw [h.node]

theorem Settled.fqoid (h : Settled g site key d binding typing below own p) :
    p.fqoid = site.fqoid key := by
  rw [h.node]; rfl

theorem Settled.realm (h : Settled g site key d binding typing below own p) :
    p.realm = site.realm := by
  rw [h.node]; rfl

theorem Settled.oid (h : Settled g site key d binding typing below own p) : p.oid = key := by
  rw [h.node]; rfl

theorem Settled.parent (h : Settled g site key d binding typing below own p) :
    p.parent = site.parent := by
  rw [h.node]; rfl

theorem Settled.isCommand (h : Settled g site key d binding typing below own p) :
    p.isCommand = site.isCommand := by
  rw [h.node]; rfl

theorem Settled.type (h : Settled g site key d binding typing below own p) :
    p.type = typing.type := by
  rw [h.node]

theorem Settled.declares (h : Settled g site key d binding typing below own p) :
    p.declares = typing.declares := by
  rw [h.node]

theorem Settled.container (h : Settled g site key d binding typing below own p) :
    p.container = typing.container := by
  rw [h.node]

theorem Settled.children (h : Settled g site key d binding typing below own p) :
    p.children = below.entries := by
  rw [h.node]

end Facts

/-- Copies declare no type. -/
theorem Copied.types {realm : Realm} {g : Ground} {parent : ParamId} {path : String}
    {entries : Entries ParamId} {f : Forest} (h : Copied realm g parent path entries f) :
    f.types = [] := by
  induction h with
  | nil => rfl
  | cons _ _ _ _ _ inner next =>
    rw [Forest.types_cons, inner, next]
    rfl

/-- Copies add no constraint. -/
theorem Copied.constraints {realm : Realm} {g : Ground} {parent : ParamId} {path : String}
    {entries : Entries ParamId} {f : Forest} (h : Copied realm g parent path entries f) :
    f.constraints = [] := by
  induction h with
  | nil => rfl
  | cons _ _ _ _ _ inner next =>
    rw [Forest.constraints_cons, inner, next]
    rfl

/-- Ids in the order of the forest, from the given one on. -/
def Numbered (start : Nat) (f : Forest) : Prop :=
  f.params.map (fun p => p.id.index) = List.range' start f.params.length

theorem Numbered.append {start : Nat} {f h : Forest} (hf : Numbered start f)
    (hh : Numbered (start + f.params.length) h) : Numbered start (f.append h) := by
  unfold Numbered at *
  rw [Forest.params_append, List.map_append, hf, hh, List.length_append, List.range'_append_1]

theorem Numbered.tree {start : Nat} {p : Param} {below : Forest} (own : Share) (hp : p.id = ⟨start⟩)
    (hb : Numbered (start + 1) below) : Numbered start (.tree p own below) := by
  unfold Numbered at *
  rw [Forest.params_tree, List.map_cons, hb, List.length_cons, List.range'_succ, hp]

theorem Numbered.mem {start : Nat} {f : Forest} (h : Numbered start f) {p : Param}
    (hp : p ∈ f.params) :
    start ≤ p.id.index ∧ p.id.index < start + f.params.length := by
  have hm : p.id.index ∈ f.params.map (fun p => p.id.index) := List.mem_map.mpr ⟨p, hp, rfl⟩
  rw [h, List.mem_range'_1] at hm
  exact hm

/-- No id is given twice. -/
theorem Numbered.nodup {start : Nat} {f : Forest} (h : Numbered start f) :
    (f.params.map Param.id).Nodup := by
  have hnodup : (f.params.map fun p => p.id.index).Nodup := by
    rw [h]
    exact List.nodup_range'
  rw [List.Nodup, List.pairwise_map] at hnodup ⊢
  exact hnodup.imp fun hne he => hne (congrArg ParamId.index he)

/-- Copies are numbered as they are made. -/
theorem Copied.numbered {realm : Realm} {g : Ground} {parent : ParamId} {path : String}
    {entries : Entries ParamId} {f : Forest} (h : Copied realm g parent path entries f) :
    Numbered g.count f := by
  induction h with
  | nil => rfl
  | @cons g parent path key entries source p below rest known node fresh _ _ inner next =>
    have hid : p.id = ⟨g.count⟩ := by rw [node]; rfl
    exact (Numbered.tree {} hid inner).append next

/-- Parameters are numbered before those below them. -/
theorem Grown.numbered {source : Source} {opened : List Path} {g : Ground} {site : Site}
    {entries : List (String × Description.Param)} {f : Forest}
    (h : Grown source opened g site entries f) :
    Numbered g.count f := by
  induction h with
  | nil => rfl
  | cons _ _ first next => exact first.append next
  | imported _ _ _ ih => exact ih
  | templated _ _ _ _ _ _ copied _ settled => exact .tree _ settled.id copied.numbered
  | composite _ _ _ _ _ _ _ _ settled ih => exact .tree _ settled.id ih
  | plain _ _ _ _ _ _ settled ih => exact .tree _ settled.id ih

/-- Outermost parameters are commands exactly where a site is one of commands. -/
theorem Grown.isCommand {source : Source} {opened : List Path} {g : Ground} {site : Site}
    {entries : List (String × Description.Param)} {f : Forest}
    (h : Grown source opened g site entries f) :
    ∀ p ∈ f.roots, p.isCommand = site.isCommand := by
  induction h with
  | nil => simp
  | cons _ _ first next =>
    intro p hp
    rw [Forest.roots_append, List.mem_append] at hp
    rcases hp with hp | hp
    · exact first p hp
    · exact next p hp
  | imported _ _ _ ih => exact ih
  | templated _ _ _ _ _ _ _ _ settled
  | composite _ _ _ _ _ _ _ _ settled
  | plain _ _ _ _ _ _ settled =>
    intro q hq
    rw [Forest.roots_tree, List.mem_singleton] at hq
    rw [hq, settled.isCommand]

/-- Nothing below a parameter is a command. -/
theorem Site.below_isCommand (site : Site) (oid : String) (id : ParamId) (scope : String) :
    (site.below oid id scope).isCommand = false := by
  simp [Slot.isCommand, Site.below, Site.inner]

/-- A command has no template. -/
theorem Settled.not_command {g : Ground} {site : Site} {key templateOid : String} {d : Declaration}
    {binding : Option Binding} {typing : Typing} {below : Forest} {own : Share} {p : Param}
    (h : Settled g site key d binding typing below own p) (ht : d.template = some templateOid) :
    site.isCommand = false := by
  cases hc : site.isCommand with
  | false => rfl
  | true =>
    have hd := h.declared
    simp [declaredType, hc, ht] at hd

/-- Nothing grows into nothing. -/
theorem Grown.eq_nil {source : Source} {opened : List Path} {g : Ground} {site : Site} {f : Forest}
    (h : Grown source opened g site [] f) : f = .nil := by
  cases h
  rfl

end DeviceModel.Resolve
