import DeviceModel.Proofs.Templates

namespace DeviceModel

namespace Param

/-- The parameter as a field of the struct it is in. -/
def field (p : Param) : Field := ⟨p.oid, p.type, p.value⟩

/-- The parameter as an alternative of the variant it is in. -/
def alternative (p : Param) : Alternative := ⟨p.oid, p.type⟩

end Param

namespace Shape

/-- A struct or a variant, no array. -/
def isComposite : Shape → Bool
  | .array _ => false
  | _ => true

end Shape

namespace ValueType

/-- The element of an array is neither an array nor nothing. -/
def Flat (t : ValueType) : Prop :=
  ∀ element, t = .array element → element.isArray = false ∧ element ≠ .empty

theorem element_eq_self {t : ValueType} (h : t.isArray = false) : t.element = t := by
  cases t with
  | array => cases h
  | _ => rfl

/-- The type that goes with a template, by the codes of the two. -/
theorem ofTemplate?_fits {declared : TypeCode} {template type : ValueType} {overElements : Bool}
    (h : ofTemplate? declared template = some (type, overElements)) :
    (type = template ∧ template.code = declared) ∨
      ∃ k, declared = .array k ∧ template.code = .single k ∧ template.isArray = false ∧
        type = .array template := by
  unfold ofTemplate? at h
  split at h
  · next hsame =>
    cases h
    exact .inl ⟨rfl, hsame.symm⟩
  · split at h
    · next hfits =>
      cases h
      simp only [Bool.and_eq_true, Bool.not_eq_true', decide_eq_true_eq] at hfits
      obtain ⟨⟨harray, hplain⟩, helement⟩ := hfits
      cases declared with
      | array k => exact .inr ⟨k, rfl, helement.symm, hplain, rfl⟩
      | _ => cases harray
    · cases h

/-- Such a type has the code that is declared, and the template's elements. -/
theorem ofTemplate?_spec {declared : TypeCode} {template type : ValueType} {overElements : Bool}
    (h : ofTemplate? declared template = some (type, overElements)) (hflat : template.Flat) :
    type.code = declared ∧ type.element = template.element ∧ type.Flat := by
  rcases ofTemplate?_fits h with ⟨rfl, hcode⟩ | ⟨k, rfl, hcode, hplain, rfl⟩
  · exact ⟨hcode, rfl, hflat⟩
  · refine ⟨by rw [code, hcode], (element_eq_self hplain).symm, ?_⟩
    intro element he
    cases he
    refine ⟨hplain, ?_⟩
    intro hempty
    rw [hempty] at hcode
    cases hcode

end ValueType

/-- The type of a parameter goes with its code, and what the type declares goes with the
children. -/
structure Typed (d : Device) (p : Param) : Prop where
  code : p.type.code = p.declared
  flat : p.type.Flat
  /-- Every child that is listed is there. -/
  listed : (d.children p.id).map Param.id = p.children.map Prod.snd
  struct : ∀ t, p.type.element = .struct t →
    ∃ decl, d.typeDecl? t = some decl ∧ decl.shape = .struct ((d.children p.id).map Param.field)
  variant : ∀ t, p.type.element = .variant t →
    ∃ decl, d.typeDecl? t = some decl ∧
      decl.shape = .variant ((d.children p.id).map Param.alternative) ∧ d.children p.id ≠ []
  /-- What a parameter declares is its own type, or that of its elements. -/
  declares : ∀ t, p.declares = some t →
    p.type.element.declared? = some t ∧
      ∃ decl, d.typeDecl? t = some decl ∧ decl.owner = p.id ∧ decl.shape.isComposite = true

namespace Typed

variable {d : Device} {p source : Param} {own : Share} {below : Forest} {g : Ground}

/-- Who has the elements of another, and children like those of the other, is typed like it. -/
theorem like (h : Typed d source) (code : p.type.code = p.declared)
    (flat : p.type.Flat) (listed : (d.children p.id).map Param.id = p.children.map Prod.snd)
    (element : p.type.element = source.type.element)
    (fields : (d.children p.id).map Param.field = (d.children source.id).map Param.field)
    (declares : p.declares = none) : Typed d p where
  code := code
  flat := flat
  listed := listed
  struct := by
    intro t ht
    rw [fields]
    exact h.struct t (element.symm.trans ht)
  variant := by
    intro t ht
    obtain ⟨decl, hdecl, hshape, hsome⟩ := h.variant t (element.symm.trans ht)
    have halternatives : (d.children p.id).map Param.alternative =
        (d.children source.id).map Param.alternative := by
      have hmap := congrArg (List.map fun f : Field => (⟨f.name, f.type⟩ : Alternative)) fields
      rw [List.map_map, List.map_map] at hmap
      exact hmap
    refine ⟨decl, hdecl, by rw [halternatives]; exact hshape, ?_⟩
    intro hnone
    rw [hnone, List.map_nil, eq_comm, List.map_eq_nil_iff] at fields
    exact hsome fields
  declares := by
    intro t ht
    cases declares.symm.trans ht

end Typed

/-- The children of a parameter, by the ids that it lists. -/
theorem Device.children_of_found {d : Device} {p : Param} (hp : d.param? p.id = some p) :
    d.children p.id = p.children.filterMap fun e => d.param? e.2 := by
  rw [Device.children, hp]

/-- All that is right below a parameter is listed by it. -/
theorem Holds.listed {d : Device} {g : Ground} {p : Param} {own : Share} {below : Forest}
    (hd : Holds d g (.tree p own below)) (hc : p.children = below.entries) :
    (d.children p.id).map Param.id = p.children.map Prod.snd := by
  rw [hd.children hc, hc, Forest.entries, List.map_map]
  rfl

namespace Resolve

open Description (Declaration)

/-- The parameters that are finished are those of the device, and their types go with them. -/
structure Agreed (d : Device) (g : Ground) : Prop where
  found : ∀ p ∈ g.known, d.param? p.id = some p
  typed : ∀ p ∈ g.known, Typed d p

namespace Agreed

variable {d : Device} {g : Ground} {f : Forest}

theorem start (d : Device) (shared : List Constraint) : Agreed d (start shared) where
  found := by simp [Resolve.start]
  typed := by simp [Resolve.start]

theorem enter (h : Agreed d g) (realm : Realm) (fqoid : String) (rule : Option Constraint) :
    Agreed d (g.enter realm fqoid rule) := ⟨h.found, h.typed⟩

theorem after (h : Agreed d g) (hd : Holds d g f) (typed : ∀ p ∈ f.params, Typed d p) :
    Agreed d (g.after f) where
  found := hd.known_after h.found
  typed := Ground.forall_after h.typed typed

end Agreed

section Copies

variable {d : Device} {g : Ground} {realm : Realm} {parent : ParamId} {path : String}
  {entries : Entries ParamId} {f : Forest}

/-- Copies are fields like their originals. -/
theorem Copied.fields (h : Copied realm g parent path entries f) (hd : Holds d g f)
    (found : ∀ p ∈ g.known, d.param? p.id = some p) :
    f.roots.map Param.field = (entries.filterMap fun e => d.param? e.2).map Param.field := by
  induction h with
  | nil => rfl
  | @cons g parent path key entries source p below rest known node fresh inner next ihInner
      ihNext =>
    change Holds d g ((Forest.tree p {} below).append rest) at hd
    have hrest := ihNext hd.right (hd.left.known_after found)
    have hfield : p.field = source.field := by
      rw [node]
      rfl
    rw [Forest.roots_cons, List.map_cons, hrest, hfield, List.filterMap_cons, found source known]
    rfl

theorem Copied.typed (h : Copied realm g parent path entries f) (hd : Holds d g f)
    (hg : Agreed d g) :
    ∀ p ∈ f.params, Typed d p := by
  induction h with
  | nil => simp
  | @cons g parent path key entries source p below rest known node fresh inner next ihInner
      ihNext =>
    change Holds d g ((Forest.tree p {} below).append rest) at hd
    have hchildren : p.children = below.entries := by rw [node]; rfl
    have hbelow := ihInner (hd.left.inner realm p.fqoid) (hg.enter realm p.fqoid none)
    have hsource := hg.typed source known
    have hfields := inner.fields (hd.left.inner realm p.fqoid) hg.found
    have hp : Typed d p := by
      have htype : p.type = source.type := by rw [node]; rfl
      apply hsource.like
      · rw [htype, hsource.code, node]
        rfl
      · rw [htype]
        exact hsource.flat
      · exact hd.left.listed hchildren
      · rw [htype]
      · rw [hd.left.children hchildren, Device.children_of_found (hg.found source known)]
        exact hfields
      · rw [node]
        rfl
    have htree := Forest.forall_tree {} below hp hbelow
    exact Forest.forall_append _ htree (ihNext hd.right (hg.after hd.left htree))

end Copies

section Declared

variable {d : Device} {g : Ground} {site : Site} {oid : String} {declaration : Declaration}
  {p : Param} {below : Forest} {own : Share}

/-- A parameter with a template has the template's elements, and copies of its children. -/
theorem Settled.typed_template {template : Param} {type : ValueType} {overElements : Bool}
    {realm : Realm} {fqoid : String}
    (settled : Settled g site oid declaration (some (bindingOf template type overElements))
      (templatedTyping g template type overElements) below own p)
    (fits : ValueType.ofTemplate? p.declared template.type = some (type, overElements))
    (known : template ∈ g.known)
    (copied : Copied site.realm (g.enter realm fqoid own.rule) ⟨g.count⟩
      (site.fqoid oid) template.children below)
    (hd : Holds d g (.tree p own below)) (hg : Agreed d g) : Typed d p := by
  have htemplate := hg.typed template known
  have htype : p.type = type := settled.type
  obtain ⟨hcode, helement, hflat⟩ := ValueType.ofTemplate?_spec fits htemplate.flat
  rw [← htype] at hcode helement hflat
  apply htemplate.like hcode hflat (hd.listed settled.children) helement
  · rw [hd.children settled.children, Device.children_of_found (hg.found template known)]
    exact copied.fields (hd.inner realm fqoid) hg.found
  · exact settled.declares

theorem elementType_code {declared : TypeCode} (hdeclares : declared.declaresType = true)
    (t : TypeId) :
    (elementType declared t).code = declared.element := by
  rcases declared with _ | k | k
  · cases hdeclares
  all_goals
    cases k with
    | struct | variant => rfl
    | _ => cases hdeclares

theorem elementType_isArray (declared : TypeCode) (t : TypeId) :
    (elementType declared t).isArray = false := by
  unfold elementType
  split <;> rfl

theorem compositeTyping_type (g : Ground) (below : Forest) {declared : TypeCode}
    (hdeclares : declared.declaresType = true) :
    let t : TypeId := ⟨g.types.length + below.types.length⟩
    (compositeTyping g declared below).type.code = declared ∧
      (compositeTyping g declared below).type.element = elementType declared t ∧
      (compositeTyping g declared below).type.Flat := by
  intro t
  have hcode := elementType_code hdeclares t
  have hplain := elementType_isArray declared t
  rcases declared with _ | k | k
  · cases hdeclares
  · refine ⟨hcode, ValueType.element_eq_self hplain, ?_⟩
    intro element he
    have he : elementType (.single k) t = .array element := he
    rw [he] at hplain
    cases hplain
  · refine ⟨?_, rfl, ?_⟩
    · change (ValueType.array (elementType (.array k) t)).code = .array k
      rw [ValueType.code, hcode]
      rfl
    · intro element he
      cases he
      refine ⟨hplain, ?_⟩
      intro hempty
      rw [hempty] at hcode
      cases hcode

/-- A struct or variant is declared over the children, which are then its fields or alternatives. -/
theorem Settled.typed_composite {rule : Option Constraint}
    {params : List (String × Description.Param)}
    (settled : Settled g site oid declaration none (compositeTyping g p.declared below) below
      (compositeShare g site oid p.declared rule below) p)
    (hdeclares : p.declared.declaresType = true)
    (hsome : params = [] → makesStruct p.declared = true)
    (hkeys : below.roots.map Param.oid = params.map Prod.fst)
    (hd : Holds d g (.tree p (compositeShare g site oid p.declared rule below) below)) :
    Typed d p := by
  have hdecl : d.typeDecl? ⟨g.types.length + below.types.length⟩ =
      some ⟨elementName oid p.declared, site.scope, ⟨g.count⟩,
          elementShape p.declared below.roots⟩ :=
    hd.typeDecl? (i := 0) rfl
  obtain ⟨hcode, helement, hflat⟩ := compositeTyping_type g below hdeclares
  rw [← settled.type] at hcode helement hflat
  refine ⟨hcode, hflat, hd.listed settled.children, ?_, ?_, ?_⟩
  all_goals intro t ht
  · rw [helement, elementType] at ht
    split at ht
    · next hstruct =>
      cases ht
      refine ⟨_, hdecl, ?_⟩
      rw [hd.children settled.children, elementShape, if_pos hstruct]
      rfl
    · cases ht
  · rw [helement, elementType] at ht
    split at ht
    · cases ht
    · next hvariant =>
      cases ht
      rw [hd.children settled.children]
      refine ⟨_, hdecl, ?_, ?_⟩
      · rw [elementShape, if_neg hvariant]
        rfl
      · intro hnone
        rw [hnone, List.map_nil, eq_comm, List.map_eq_nil_iff] at hkeys
        exact hvariant (hsome hkeys)
  · have hown : (⟨g.types.length + below.types.length⟩ : TypeId) = t := by
      rw [settled.declares] at ht
      exact Option.some.inj ht
    subst hown
    refine ⟨?_, _, hdecl, settled.id.symm, ?_⟩
    · rw [helement, elementType]
      split <;> rfl
    · change (elementShape p.declared below.roots).isComposite = true
      rw [elementShape]
      split <;> rfl

theorem plainTyping_type {declared : TypeCode} (hundeclared : declared.declaresType = false) :
    (plainTyping declared).type.code = declared ∧ (plainTyping declared).type.Flat ∧
      (plainTyping declared).type.element.declared? = none := by
  rcases declared with _ | k | k
  · refine ⟨rfl, ?_, rfl⟩
    intro element he
    cases he
  · cases k with
    | struct | variant => cases hundeclared
    | _ =>
      refine ⟨rfl, ?_, rfl⟩
      intro element he
      cases he
  · cases k with
    | struct | variant => cases hundeclared
    | _ =>
      refine ⟨rfl, ?_, rfl⟩
      intro element he
      cases he
      exact ⟨rfl, by simp⟩

/-- A parameter of a type that needs no declaration. -/
theorem Settled.typed_plain
    (settled : Settled g site oid declaration none (plainTyping p.declared) below own p)
    (hundeclared : p.declared.declaresType = false) (hd : Holds d g (.tree p own below)) :
    Typed d p := by
  obtain ⟨hcode, hflat, hnone⟩ := plainTyping_type hundeclared
  rw [← settled.type] at hcode hflat hnone
  refine ⟨hcode, hflat, hd.listed settled.children, ?_, ?_, ?_⟩
  all_goals intro t ht
  · rw [ht] at hnone
    cases hnone
  · rw [ht] at hnone
    cases hnone
  · cases settled.declares.symm.trans ht

end Declared

/-- Whatever a description grows into has a type that goes with it. -/
theorem Grown.typed {d : Device} {source : Source} {opened : List Path} {g : Ground} {site : Site}
    {entries : List (String × Description.Param)} {f : Forest}
    (h : Grown source opened g site entries f) (hd : Holds d g f) (hg : Agreed d g) :
    ∀ p ∈ f.params, Typed d p := by
  induction h with
  | nil => simp
  | cons first next ihFirst ihNext =>
    have hfirst := ihFirst hd.left hg
    exact Forest.forall_append _ hfirst (ihNext hd.right (hg.after hd.left hfirst))
  | imported _ _ _ ih => exact ih hd hg
  | templated _ _ known _ _ fits copied _ settled =>
    exact Forest.forall_tree _ _ (settled.typed_template fits known copied hd hg)
      (copied.typed (hd.inner _ _) (hg.enter _ _ _))
  | composite _ _ declares _ some _ _ grown settled ih =>
    exact Forest.forall_tree _ _ (settled.typed_composite declares some grown.keys hd)
      (ih (hd.inner _ _) (hg.enter _ _ _))
  | plain _ _ undeclared _ _ _ settled ih =>
    exact Forest.forall_tree _ _ (settled.typed_plain undeclared hd)
      (ih (hd.inner _ _) (hg.enter _ _ _))

/-- A declared type is the parameter's own: its container, or what it declares. -/
def Owns (p : Param) (t : TypeId) (decl : TypeDecl) : Prop :=
  decl.owner = p.id ∧
    match decl.shape with
    | .array element => p.container = some t ∧ p.type = .array element
    | _ => p.declares = some t

/-- Every item, by its place from the given one on, is held by some of the parameters. -/
def AllHeld {α : Type} (held : Param → Nat → α → Prop) (start : Nat) (params : List Param)
    (items : List α) : Prop :=
  ∀ i item, items[i]? = some item → ∃ p ∈ params, held p (start + i) item

namespace AllHeld

variable {α : Type} {held : Param → Nat → α → Prop} {start : Nat} {params params' : List Param}
  {items items' : List α}

theorem nil : AllHeld held start params [] := by
  intro i item hi
  cases hi

theorem mono (h : AllHeld held start params items) (hsub : params ⊆ params') :
    AllHeld held start params' items := by
  intro i item hi
  obtain ⟨p, hp, hheld⟩ := h i item hi
  exact ⟨p, hsub hp, hheld⟩

theorem append (h : AllHeld held start params items)
    (h' : AllHeld held (start + items.length) params items') :
    AllHeld held start params (items ++ items') := by
  intro i item hi
  by_cases hlt : i < items.length
  · rw [List.getElem?_append_left hlt] at hi
    exact h i item hi
  · have hle : items.length ≤ i := by omega
    rw [List.getElem?_append_right hle] at hi
    obtain ⟨p, hp, hheld⟩ := h' (i - items.length) item hi
    refine ⟨p, hp, ?_⟩
    have hindex : start + items.length + (i - items.length) = start + i := by omega
    rwa [hindex] at hheld

theorem single {p : Param} {item : α} (hp : p ∈ params) (h : held p start item) :
    AllHeld held start params [item] := by
  intro i found hi
  obtain ⟨hlt, he⟩ := List.getElem?_eq_some_iff.mp hi
  have hzero : i = 0 := by simpa using hlt
  subst hzero
  cases he
  exact ⟨p, hp, h⟩

end AllHeld

/-- All of the types, from the given one on, are owned by some of the parameters. -/
def AllOwned (start : Nat) (params : List Param) (types : List TypeDecl) : Prop :=
  AllHeld (fun p i decl => Owns p ⟨i⟩ decl) start params types

section Owners

variable {g : Ground} {site : Site} {oid : String} {declaration : Declaration} {p : Param}
  {below : Forest} {rule : Option Constraint}

/-- A parameter over a template owns its container at most. -/
theorem Settled.owned_template {template : Param} {type : ValueType} {overElements : Bool}
    (settled : Settled g site oid declaration (some (bindingOf template type overElements))
      (templatedTyping g template type overElements) below
      { rule, container := templatedContainer g site oid type overElements } p)
    (fits : ValueType.ofTemplate? p.declared template.type = some (type, overElements)) :
    AllOwned g.types.length (p :: below.params)
      (templatedContainer g site oid type overElements).toList := by
  unfold templatedContainer
  split
  · next hown =>
    simp only [Bool.and_eq_true] at hown
    obtain ⟨hover, hdeclared⟩ := hown
    apply AllHeld.single (List.mem_cons_self ..)
    refine ⟨settled.id.symm, ?_, ?_⟩
    · rw [settled.container]
      simp [templatedTyping, hover, hdeclared]
    · have htype : p.type = type := settled.type
      rcases ValueType.ofTemplate?_cases fits with ⟨_, hnot⟩ | ⟨harray, _, _⟩
      · cases hover.symm.trans hnot
      · rw [htype, harray]
        rfl
  · exact .nil

/-- A struct or variant owns what it declares, and its container. -/
theorem Settled.owned_composite
    (settled : Settled g site oid declaration none (compositeTyping g p.declared below) below
      (compositeShare g site oid p.declared rule below) p) :
    AllOwned (g.types.length + below.types.length) (p :: below.params)
      (compositeShare g site oid p.declared rule below).types := by
  have helement : AllOwned (g.types.length + below.types.length) (p :: below.params)
      [⟨elementName oid p.declared, site.scope, ⟨g.count⟩,
          elementShape p.declared below.roots⟩] := by
    apply AllHeld.single (List.mem_cons_self ..)
    refine ⟨settled.id.symm, ?_⟩
    have hdeclares : p.declares = some ⟨g.types.length + below.types.length⟩ := settled.declares
    by_cases hstruct : makesStruct p.declared = true
    · simpa [elementShape, hstruct, structShape] using hdeclares
    · simpa [elementShape, hstruct, variantShape] using hdeclares
  by_cases harray : p.declared.isArray = true
  · have htypes : (compositeShare g site oid p.declared rule below).types =
        [⟨elementName oid p.declared, site.scope, ⟨g.count⟩,
          elementShape p.declared below.roots⟩] ++
        [⟨Text.capitalize oid, site.scope, ⟨g.count⟩,
          .array (elementType p.declared ⟨g.types.length + below.types.length⟩)⟩] := by
      simp [compositeShare, Share.types, harray]
    rw [htypes]
    apply helement.append
    apply AllHeld.single (List.mem_cons_self ..)
    refine ⟨settled.id.symm, ?_, ?_⟩
    · rw [settled.container]
      simp [compositeTyping, harray]
    · rw [settled.type]
      simp [compositeTyping, harray]
  · simpa [compositeShare, Share.types, harray] using helement

end Owners

/-- Every type that is added has an owner among the parameters that are added. -/
theorem Grown.owned {source : Source} {opened : List Path} {g : Ground} {site : Site}
    {entries : List (String × Description.Param)} {f : Forest}
    (h : Grown source opened g site entries f) :
    AllOwned g.types.length f.params f.types := by
  induction h with
  | nil => exact .nil
  | @cons opened g site oid q others f rest _ _ first next =>
    rw [Ground.after_types, List.length_append] at next
    rw [Forest.params_append, Forest.types_append]
    exact (first.mono (List.subset_append_left ..)).append (next.mono (List.subset_append_right ..))
  | imported _ _ _ ih => exact ih
  | templated _ _ _ _ _ fits copied _ settled =>
    rw [Forest.params_tree, Forest.types_tree, copied.types]
    exact settled.owned_template fits
  | composite _ _ _ _ _ _ _ _ settled ih =>
    rw [Forest.params_tree, Forest.types_tree]
    exact AllHeld.append (ih.mono (List.subset_cons_self ..)) settled.owned_composite
  | plain _ _ _ _ _ _ settled ih =>
    rw [Forest.params_tree, Forest.types_tree]
    exact AllHeld.append (ih.mono (List.subset_cons_self ..)) .nil

namespace Resolved

variable {source : Source} {importRoot : Path} {description : Description.Device} {d : Device}
  {shared : List Constraint} {params commands : Forest}
  (h : Resolved source importRoot description d shared params commands)

include h

theorem typed {p : Param} (hp : p ∈ d.nodes) : Typed d p := by
  have hstart := Agreed.start d shared
  have hparams := h.params_grown.typed h.holds.left hstart
  have hcommands := h.commands_grown.typed h.holds.right (hstart.after h.holds.left hparams)
  rw [h.mem_nodes] at hp
  exact Forest.forall_append _ hparams hcommands p hp

/-- Every declared type is owned by a parameter. -/
theorem owner {t : TypeId} {decl : TypeDecl} (ht : d.typeDecl? t = some decl) :
    ∃ p, d.param? decl.owner = some p ∧ Owns p t decl := by
  have hcommands := h.commands_grown.owned
  rw [Ground.after_types, List.length_append] at hcommands
  have howned : AllOwned 0 (params.append commands).params (params.append commands).types := by
    rw [Forest.params_append, Forest.types_append]
    exact AllHeld.append (h.params_grown.owned.mono (List.subset_append_left ..))
      (hcommands.mono (List.subset_append_right ..))
  rw [Device.typeDecl?, ← Array.getElem?_toList, h.types, ← Forest.types_append] at ht
  obtain ⟨p, hp, howns⟩ := howned t.index decl ht
  rw [Nat.zero_add] at howns
  refine ⟨p, ?_, howns⟩
  rw [howns.1]
  exact h.found p hp

end Resolved

end Resolve

open Resolve
open Description (Declaration)

/-- Types and tree agree: all parameters are typed, a parameter declares exactly the struct or
variant that it owns, and a container belongs to the array that owns it. -/
structure TypesAgree (d : Device) : Prop where
  typed : ∀ p ∈ d.nodes, Typed d p
  declares_iff : ∀ p ∈ d.nodes, ∀ t, p.declares = some t ↔
    ∃ decl, d.typeDecl? t = some decl ∧ decl.owner = p.id ∧ decl.shape.isComposite = true
  containers : ∀ t decl element, d.typeDecl? t = some decl → decl.shape = .array element →
    ∃ p, d.param? decl.owner = some p ∧ p.container = some t ∧ p.type = .array element

theorem resolved_typesAgree {ns : String} {description : Description.Device} {importRoot : Path}
    {source : Source} {d : Device}
    (h : (resolveDevice ns description importRoot source).result = .ok d) : TypesAgree d := by
  obtain ⟨shared, params, commands, hr⟩ := resolveDevice_resolved h
  constructor
  case typed =>
    intro p hp
    exact hr.typed hp
  case declares_iff =>
    intro p hp t
    constructor
    · intro ht
      exact ((hr.typed hp).declares t ht).2
    · intro hown
      obtain ⟨decl, hdecl, howner, hshape⟩ := hown
      obtain ⟨q, hq, howns⟩ := hr.owner hdecl
      rw [hr.mem_nodes] at hp
      rw [howner, hr.found p hp] at hq
      cases hq
      have hdeclares := howns.2
      split at hdeclares
      · next hs =>
        rw [hs] at hshape
        cases hshape
      · exact hdeclares
  case containers =>
    intro t decl element hdecl hshape
    obtain ⟨p, hp, howns⟩ := hr.owner hdecl
    have hcontainer := howns.2
    rw [hshape] at hcontainer
    exact ⟨p, hp, hcontainer⟩

/-- A struct, a variant with it as an alternative, and an array over the variant. -/
def pointAndShapes : Description.Device :=
  .small
    [("point", ⟨.ofType "STRUCT", [("x", ⟨.ofType "INT32", []⟩)]⟩),
      ("shape", ⟨.ofType "STRUCT_VARIANT",
        [("dot", ⟨{ Declaration.ofType "STRUCT" with template := some "point" }, []⟩),
          ("label", ⟨.ofType "STRING", []⟩)]⟩),
      ("shapes", ⟨{ Declaration.ofType "STRUCT_VARIANT_ARRAY" with template := some "shape" }, []⟩)]
    []

theorem pointAndShapes_typesAgree :
    ∃ d, (resolveDevice "m" pointAndShapes ⟨"params"⟩ (Documents.source {})).result = .ok d ∧
      d.nodes.toList.map (fun p => (p.fqoid, p.type, p.declares, p.container)) =
        [("/point", .struct ⟨0⟩, some ⟨0⟩, none), ("/point/x", .int32, none, none),
          ("/shape", .variant ⟨1⟩, some ⟨1⟩, none), ("/shape/dot", .struct ⟨0⟩, none, none),
          ("/shape/dot/x", .int32, none, none), ("/shape/label", .string, none, none),
          ("/shapes", .array (.variant ⟨1⟩), none, some ⟨2⟩),
          ("/shapes/dot", .struct ⟨0⟩, none, none),
          ("/shapes/dot/x", .int32, none, none), ("/shapes/label", .string, none, none)] ∧
      TypesAgree d := by
  have hok :
      ((resolveDevice "m" pointAndShapes ⟨"params"⟩ (Documents.source {})).result.toOption.map
        fun d => d.nodes.toList.map fun p => (p.fqoid, p.type, p.declares, p.container)) = some
          [("/point", .struct ⟨0⟩, some ⟨0⟩, none), ("/point/x", .int32, none, none),
            ("/shape", .variant ⟨1⟩, some ⟨1⟩, none), ("/shape/dot", .struct ⟨0⟩, none, none),
            ("/shape/dot/x", .int32, none, none), ("/shape/label", .string, none, none),
            ("/shapes", .array (.variant ⟨1⟩), none, some ⟨2⟩),
            ("/shapes/dot", .struct ⟨0⟩, none, none),
            ("/shapes/dot/x", .int32, none, none), ("/shapes/label", .string, none, none)] := by
    decide +kernel
  obtain ⟨d, hd, hnodes⟩ := ok_of_toOption hok
  exact ⟨d, hd, hnodes, resolved_typesAgree hd⟩

end DeviceModel
