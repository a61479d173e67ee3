import DeviceModel.Proofs.HeaderOrder

namespace DeviceModel.Cpp

open Resolve

/-- The names of the types that a parameter declares. -/
def typeNames (d : Device) (p : Param) : List String :=
  (if p.declares.isSome then [elementName p.oid p.declared] else [])
    ++ (if (ownContainer d p).isEmpty then [] else [Text.capitalize p.oid])

/-- Whether there is a holder for what the children of a parameter declare. -/
def opensHolder (d : Device) (p : Param) : Bool :=
  !makesStruct p.declared && (p.declares.isSome || p.isCommand) &&
    (d.children p.id).any (declaresAnything d)

/-- The scope of what a parameter declares: a block for each parameter above it. -/
inductive Scoped (d : Device) : List String → Param → Prop where
  | outermost {p : Param} (root : p.parent = none) : Scoped d [] p
  | inside {scope : List String} {p q : Param} (child : q.parent = some p.id)
      (found : d.param? p.id = some p)
      (outer : Scoped d scope p) : Scoped d (scope ++ [innerName p.oid p.declared]) q

/-- How a parameter stands in a device, with what it adds and those right below it. -/
structure Placed (d : Device) (above : Option ParamId) (scope : List String) (p : Param)
    (own : Share) (below : Forest) : Prop where
  found : d.param? p.id = some p
  parent : p.parent = above
  children : d.children p.id = below.roots
  /-- Commands are outermost. -/
  command : p.isCommand = true → above = none
  /-- The types that it adds have its names. -/
  names : own.types.map (fun t => (t.owner, t.scope, t.name)) = (typeNames d p).map fun name =>
    (p.id, scope, name)
  distinct : (typeNames d p).Nodup
  declared : ∀ t, p.declares = some t →
    d.typeDecl? t =
      some ⟨elementName p.oid p.declared, scope, p.id, elementShape p.declared below.roots⟩
  /-- A command without a type of its own is no struct. -/
  unstructured : p.declares = none → p.isCommand = true → makesStruct p.declared = false
  /-- Below any other parameter without a type of its own, nothing has one. -/
  barren : p.declares = none → p.isCommand = false → ∀ c ∈ below.roots, declaresAnything d c = false

/-- Every parameter of a forest stands below the given one, in the scope that it is given. -/
def AllPlaced (d : Device) : Option ParamId → List String → Forest → Prop
  | _, _, .nil => True
  | above, scope, .cons p own below rest =>
    Placed d above scope p own below ∧
      AllPlaced d (some p.id) (scope ++ [innerName p.oid p.declared]) below ∧
      AllPlaced d above scope rest

theorem AllPlaced.append {d : Device} {above : Option ParamId} {scope : List String} {f g : Forest}
    (hf : AllPlaced d above scope f) (hg : AllPlaced d above scope g) :
    AllPlaced d above scope (f.append g) := by
  induction f with
  | nil => exact hg
  | cons p own below rest _ ih => exact ⟨hf.1, hf.2.1, ih hf.2.2⟩

theorem typeNames_eq_nil_iff {d : Device} {p : Param} :
    typeNames d p = [] ↔ declaresAnything d p = false := by
  unfold typeNames declaresAnything
  cases p.declares <;> cases ownContainer d p <;> simp

section Copies

variable {d : Device} {realm : Realm} {g : Ground} {parent : ParamId} {path : String}
  {entries : Entries ParamId} {f : Forest}

/-- Copies declare nothing. -/
theorem copied_undeclaring (h : Copied realm g parent path entries f) (hg : Sound g)
    (hd : Holds d g f) :
    ∀ p ∈ f.params, declaresAnything d p = false := by
  induction h with
  | nil => simp
  | @cons g parent path key entries source p below rest known node fresh inner next ihInner
      ihNext =>
    have htree : Holds d g (.tree p {} below) := Holds.left (h := rest) hd
    have hrest : Holds d (g.after (.tree p {} below)) rest := Holds.right (f := .tree p {} below) hd
    have hsound := hg.graft known node inner.types (inner.sound (hg.enter (by simp)))
    have hown : ownContainer d p = [] := by
      refine ownContainer_old htree hg (by rw [node]; rfl) ?_
      rw [node]
      exact (hg.typed source known).right.left
    have hdeclares : p.declares = none := by rw [node]; rfl
    intro q hq
    simp only [Forest.params_cons, List.mem_cons, List.mem_append] at hq
    rcases hq with rfl | hq | hq
    · simp [declaresAnything, hdeclares, hown]
    · exact ihInner (hg.enter (by simp)) (htree.inner _ _) q hq
    · exact ihNext hsound hrest q hq

theorem copied_allPlaced (h : Copied realm g parent path entries f) (hg : Sound g)
    (hd : Holds d g f) (scope : List String) : AllPlaced d (some parent) scope f := by
  have hnone := copied_undeclaring h hg hd
  induction h generalizing scope with
  | nil => trivial
  | @cons g parent path key entries source p below rest known node fresh inner next ihInner
      ihNext =>
    have htree : Holds d g (.tree p {} below) := Holds.left (h := rest) hd
    have hrest : Holds d (g.after (.tree p {} below)) rest := Holds.right (f := .tree p {} below) hd
    have hsound := hg.graft known node inner.types (inner.sound (hg.enter (by simp)))
    have hbelow := ihInner (hg.enter (by simp)) (htree.inner _ _)
      (scope ++ [innerName p.oid p.declared]) fun q hq => hnone q (by simp [hq])
    have hdeclares : p.declares = none := by rw [node]; rfl
    have hid : p.id = ⟨g.count⟩ := by rw [node]; rfl
    refine ⟨?_, by rwa [hid], ihNext hsound hrest scope fun q hq => hnone q (by simp [hq])⟩
    exact
      { found := hd.found p (by simp)
        parent := by rw [node]; rfl
        children := htree.children (by rw [node]; rfl)
        command := by
          rw [node]
          rintro ⟨⟩
        names := by
          rw [typeNames_eq_nil_iff.mpr (hnone p (by simp))]
          rfl
        distinct := by
          rw [typeNames_eq_nil_iff.mpr (hnone p (by simp))]
          exact .nil
        declared := by
          rw [hdeclares]
          rintro t ⟨⟩
        unstructured := by
          rw [node]
          rintro _ ⟨⟩
        barren := fun _ _ c hc => hnone c (by simp [Forest.mem_params_of_mem_roots hc]) }

end Copies

section Growth

variable {d : Device} {g : Ground} {site : Site} {oid : String} {q : Description.Declaration}
  {p : Param} {below : Forest} {rule : Option Constraint}

theorem isCommand_outermost (h : site.isCommand = true) : site.parent = none := by
  simp only [Slot.isCommand, Bool.and_eq_true, Option.isNone_iff_eq_none] at h
  exact h.2

theorem templated_placed {templateOid : String} {template : Param} {type : ValueType}
    {overElements : Bool}
    (hd : Holds d g
      (.tree p { rule, container := templatedContainer g site oid type overElements } below))
    (hg : Sound g) (referred : q.template = some templateOid) (known : template ∈ g.known)
    (hbelow : below.types = []) (hnone : ∀ c ∈ below.roots, declaresAnything d c = false)
    (settled : Settled g site oid q (some (bindingOf template type overElements))
      (templatedTyping g template type overElements) below
      { rule, container := templatedContainer g site oid type overElements } p) :
    Placed d site.parent site.scope p
      { rule, container := templatedContainer g site oid type overElements }
      below := by
  have hdeclares : p.declares = none := settled.declares
  have hcommand : p.isCommand = false := settled.isCommand.trans (settled.not_command referred)
  exact
    { found := hd.found p (by simp)
      parent := settled.parent
      children := hd.children settled.children
      command := by simp [hcommand]
      names := by
        simp only [typeNames, hdeclares,
          templated_ownContainer hd hg known hbelow settled.id settled.container, Share.types,
          templatedContainer, settled.oid, settled.id]
        split <;> simp
      distinct := by
        rw [typeNames, hdeclares]
        cases ownContainer d p <;> simp
      declared := by simp [hdeclares]
      unstructured := by simp [hcommand]
      barren := fun _ _ => hnone }

theorem composite_placed
    (hd : Holds d g (.tree p (compositeShare g site oid p.declared rule below) below))
    (settled : Settled g site oid q none (compositeTyping g p.declared below) below
      (compositeShare g site oid p.declared rule below) p) :
    Placed d site.parent site.scope p (compositeShare g site oid p.declared rule below) below := by
  have hdeclares : p.declares = some ⟨g.types.length + below.types.length⟩ := settled.declares
  exact
    { found := hd.found p (by simp)
      parent := settled.parent
      children := hd.children settled.children
      command := fun h => isCommand_outermost (settled.isCommand ▸ h)
      names := by
        simp only [typeNames, hdeclares, composite_ownContainer hd settled.id settled.container,
          Share.types, compositeShare, settled.oid, settled.id]
        split <;> simp
      distinct := by
        rw [typeNames, hdeclares, composite_ownContainer hd settled.id settled.container,
          elementName]
        cases p.declared.isArray <;> simp
      declared := by
        intro t ht
        cases hdeclares.symm.trans ht
        have hdecl := hd.typeDecl? (i := 0)
          (t := ⟨elementName oid p.declared, site.scope, ⟨g.count⟩,
          elementShape p.declared below.roots⟩) (by simp [compositeShare, Share.types])
        rw [settled.oid, settled.id]
        exact hdecl
      unstructured := by simp [hdeclares]
      barren := by simp [hdeclares] }

/-- What declares no type makes no struct. -/
theorem makesStruct_eq_false {declared : TypeCode} (h : declared.declaresType = false) :
    makesStruct declared = false := by
  cases declared with
  | empty => rfl
  | single kind | array kind =>
    revert h
    cases kind <;> decide

theorem plain_placed (hd : Holds d g (.tree p { rule } below))
    (undeclared : p.declared.declaresType = false)
    (hbelow : site.isCommand = false → below = .nil)
    (settled : Settled g site oid q none (plainTyping p.declared) below { rule } p) :
    Placed d site.parent site.scope p { rule } below := by
  have hdeclares : p.declares = none := settled.declares
  have hcontainer : p.container = none := settled.container
  exact
    { found := hd.found p (by simp)
      parent := settled.parent
      children := hd.children settled.children
      command := fun h => isCommand_outermost (settled.isCommand ▸ h)
      names := by simp [typeNames, hdeclares, ownContainer, hcontainer, Share.types]
      distinct := by simp [typeNames, hdeclares, ownContainer, hcontainer]
      declared := by simp [hdeclares]
      unstructured := fun _ _ => makesStruct_eq_false undeclared
      barren := by
        intro _ hcommand
        rw [hbelow (settled.isCommand ▸ hcommand)]
        simp }

end Growth

/-- What a description grows into stands where the site is. -/
theorem grown_allPlaced {d : Device} {source : Source} {opened : List Path} {g : Ground}
    {site : Site} {entries : List (String × Description.Param)} {f : Forest}
    (h : Grown source opened g site entries f) (hg : Sound g) (hd : Holds d g f) :
    AllPlaced d site.parent site.scope f := by
  induction h with
  | nil => trivial
  | cons first next ihFirst ihNext =>
    exact (ihFirst hg hd.left).append (ihNext (first.sound hg) hd.right)
  | imported _ _ _ ih => exact ih hg hd
  | @templated opened g site oid d' templateOid template p type overElements below rule _ referred
      known _ _ fits copied _ settled =>
    obtain ⟨_, ruled, _⟩ := settled.ruled
    have hentered : Sound (g.enter site.realm (site.fqoid oid) rule) := hg.enter ruled.owned
    have hinner : Holds d (g.enter site.realm (site.fqoid oid) rule) below := hd.inner _ _
    have hnone := copied_undeclaring copied hentered hinner
    refine ⟨templated_placed hd hg referred known copied.types
      (fun c hc => hnone c (Forest.mem_params_of_mem_roots hc)) settled, ?_, trivial⟩
    rw [settled.id]
    exact copied_allPlaced copied hentered hinner _
  | @composite opened g site oid d' params p below rule _ _ _ _ _ _ _ grown settled ih =>
    obtain ⟨_, ruled, _⟩ := settled.ruled
    have hbelow := ih (hg.enter ruled.owned) (hd.inner _ _)
    refine ⟨composite_placed hd settled, ?_, trivial⟩
    rw [settled.id, settled.oid]
    exact hbelow
  | @plain opened g site oid d' params p below rule _ _ undeclared _ allowed grown settled ih =>
    obtain ⟨_, ruled, _⟩ := settled.ruled
    have hbelow := ih (hg.enter ruled.owned) (hd.inner _ _)
    refine ⟨plain_placed hd undeclared ?_ settled, ?_, trivial⟩
    · intro hcommand
      obtain rfl : params = [] := allowed.resolve_right (by simp [hcommand])
      exact grown.eq_nil
    · rw [settled.id, innerName, makesStruct_eq_false undeclared, settled.oid]
      exact hbelow

/-- All that stand below the given parameter have the scope. -/
def Under (d : Device) (above : Option ParamId) (scope : List String) : Prop :=
  ∀ p : Param, p.parent = above → Scoped d scope p

namespace Scoped

variable {d : Device} {p : Param} {scope scope' : List String}

theorem unique (h : Scoped d scope p) (h' : Scoped d scope' p) : scope = scope' := by
  induction h generalizing scope' with
  | outermost root =>
    cases h' with
    | outermost => rfl
    | inside child => cases root.symm.trans child
  | inside child found _ ih =>
    cases h' with
    | outermost root => cases root.symm.trans child
    | inside child' found' outer' =>
      rw [Option.some.inj (child.symm.trans child')] at found
      cases found.symm.trans found'
      rw [ih outer']

end Scoped

namespace Placed

variable {d : Device} {above : Option ParamId} {scope : List String} {p : Param} {own : Share}
  {below : Forest}

theorem inScope (h : Placed d above scope p own below) (hs : Under d above scope) :
    Scoped d scope p := hs p h.parent

theorem under (h : Placed d above scope p own below) (hs : Under d above scope) :
    Under d (some p.id) (scope ++ [innerName p.oid p.declared]) :=
  fun _ child => .inside child h.found (h.inScope hs)

/-- A child that declares something does so in a struct or in a holder. -/
theorem block (h : Placed d above scope p own below) {c : Param} (hc : c ∈ below.roots)
    (hdeclares : declaresAnything d c = true) :
    p.declares.isSome = true ∧ makesStruct p.declared = true ∨ opensHolder d p = true := by
  have hany : (d.children p.id).any (declaresAnything d) = true := by
    rw [h.children]
    exact List.any_eq_true.mpr ⟨c, hc, hdeclares⟩
  cases hp : p.declares with
  | some t =>
    cases hstruct : makesStruct p.declared with
    | true => exact .inl ⟨rfl, rfl⟩
    | false => exact .inr (by simp [opensHolder, hp, hstruct, hany])
  | none =>
    cases hcommand : p.isCommand with
    | true => exact .inr (by simp [opensHolder, h.unstructured hp hcommand, hcommand, hany])
    | false =>
      rw [h.barren hp hcommand c hc] at hdeclares
      cases hdeclares

end Placed

namespace AllPlaced

variable {d : Device} {above : Option ParamId} {scope : List String} {f : Forest}

theorem mem_roots (h : AllPlaced d above scope f) :
    ∀ p ∈ f.roots, ∃ own below, Placed d above scope p own below := by
  induction f with
  | nil => simp
  | cons p own below rest _ ih =>
    intro q hq
    rcases List.mem_cons.mp hq with rfl | hq
    · exact ⟨own, below, h.1⟩
    · exact ih h.2.2 q hq

theorem mem (h : AllPlaced d above scope f) :
    ∀ p ∈ f.params, ∃ above scope own below, Placed d above scope p own below := by
  induction f generalizing above scope with
  | nil => simp
  | cons p own below rest ihBelow ihRest =>
    intro q hq
    simp only [Forest.params_cons, List.mem_cons, List.mem_append] at hq
    rcases hq with rfl | hq | hq
    · exact ⟨above, scope, own, below, h.1⟩
    · exact ihBelow h.2.1 q hq
    · exact ihRest h.2.2 q hq

/-- Every type has a name of its owner, in the scope of its owner. -/
theorem owner (h : AllPlaced d above scope f) (hs : Under d above scope) :
    ∀ t ∈ f.types, ∃ p ∈ f.params, t.owner = p.id ∧ Scoped d t.scope p ∧
      t.name ∈ typeNames d p := by
  induction f generalizing above scope with
  | nil => simp
  | cons p own below rest ihBelow ihRest =>
    obtain ⟨hp, hbelow, hrest⟩ := h
    intro t ht
    simp only [Forest.types_cons, List.mem_append] at ht
    simp only [Forest.params_cons, List.mem_cons, List.mem_append]
    rcases ht with ht | ht | ht
    · obtain ⟨q, hq, hname⟩ := ihBelow hbelow (hp.under hs) t ht
      exact ⟨q, .inr (.inl hq), hname⟩
    · have hm : (t.owner, t.scope, t.name) ∈ (typeNames d p).map fun name =>
          (p.id, scope, name) := by
        rw [← hp.names]
        exact List.mem_map.mpr ⟨t, ht, rfl⟩
      obtain ⟨name, hname, he⟩ := List.mem_map.mp hm
      simp only [Prod.mk.injEq] at he
      obtain ⟨howner, hscope, rfl⟩ := he
      exact ⟨p, .inl rfl, howner.symm, hscope ▸ hp.inScope hs, hname⟩
    · obtain ⟨q, hq, hname⟩ := ihRest hrest hs t ht
      exact ⟨q, .inr (.inr hq), hname⟩

/-- Every name of a parameter is that of a type. -/
theorem declared (h : AllPlaced d above scope f) :
    ∀ p ∈ f.params, ∀ name ∈ typeNames d p, ∃ t ∈ f.types, t.owner = p.id ∧ t.name = name := by
  induction f generalizing above scope with
  | nil => simp
  | cons p own below rest ihBelow ihRest =>
    obtain ⟨hp, hbelow, hrest⟩ := h
    intro q hq name hname
    simp only [Forest.params_cons, List.mem_cons, List.mem_append] at hq
    simp only [Forest.types_cons, List.mem_append]
    rcases hq with rfl | hq | hq
    · have hm : (q.id, scope, name) ∈ own.types.map fun t => (t.owner, t.scope, t.name) := by
        rw [hp.names]
        exact List.mem_map.mpr ⟨name, hname, rfl⟩
      obtain ⟨t, ht, he⟩ := List.mem_map.mp hm
      simp only [Prod.mk.injEq] at he
      exact ⟨t, .inr (.inl ht), he.1, he.2.2⟩
    · obtain ⟨t, ht, hname⟩ := ihBelow hbelow q hq name hname
      exact ⟨t, .inl ht, hname⟩
    · obtain ⟨t, ht, hname⟩ := ihRest hrest q hq name hname
      exact ⟨t, .inr (.inr ht), hname⟩

/-- A parameter is outermost or a child of one that is placed. -/
theorem parent (h : AllPlaced d above scope f) :
    ∀ p ∈ f.params, p ∈ f.roots ∨
      ∃ q ∈ f.params, p.parent = some q.id ∧
        ∃ above scope own below, Placed d above scope q own below ∧ p ∈ below.roots := by
  induction f generalizing above scope with
  | nil => simp
  | cons p own below rest ihBelow ihRest =>
    obtain ⟨hp, hbelow, hrest⟩ := h
    intro q hq
    simp only [Forest.params_cons, List.mem_cons, List.mem_append, Forest.roots_cons] at hq ⊢
    rcases hq with rfl | hq | hq
    · exact .inl (.inl rfl)
    · refine .inr ?_
      rcases ihBelow hbelow q hq with hroot | ⟨r, hr, hinner⟩
      · obtain ⟨_, _, hplaced⟩ := hbelow.mem_roots q hroot
        exact ⟨p, .inl rfl, hplaced.parent, above, scope, own, below, hp, hroot⟩
      · exact ⟨r, .inr (.inl hr), hinner⟩
    · rcases ihRest hrest q hq with hroot | ⟨r, hr, hinner⟩
      · exact .inl (.inr hroot)
      · exact .inr ⟨r, .inr (.inr hr), hinner⟩

/-- An owner has no two types of one name. -/
theorem nodup (h : AllPlaced d above scope f) (hs : Under d above scope)
    (hids : (f.params.map Param.id).Nodup) :
    (f.types.map fun t => (t.owner, t.name)).Nodup := by
  induction f generalizing above scope with
  | nil => simp
  | cons p own below rest ihBelow ihRest =>
    obtain ⟨hp, hbelow, hrest⟩ := h
    simp only [Forest.params_cons, List.map_cons, List.map_append, List.nodup_cons, List.mem_append,
      not_or, List.nodup_append] at hids
    obtain ⟨⟨hpBelow, hpRest⟩, hidsBelow, hidsRest, hapart⟩ := hids
    have hown : own.types.map (fun t => (t.owner, t.name)) = (typeNames d p).map fun name =>
        (p.id, name) := by
      have hnames := congrArg (List.map fun key => (key.1, key.2.2)) hp.names
      simpa [Function.comp_def] using hnames
    have hbelowIds : ∀ key ∈ below.types.map (fun t => (t.owner, t.name)),
        key.1 ∈ below.params.map Param.id := by
      intro key hkey
      obtain ⟨t, ht, rfl⟩ := List.mem_map.mp hkey
      obtain ⟨q, hq, howner, _⟩ := hbelow.owner (hp.under hs) t ht
      exact List.mem_map.mpr ⟨q, hq, howner.symm⟩
    have hrestIds : ∀ key ∈ rest.types.map (fun t => (t.owner, t.name)),
        key.1 ∈ rest.params.map Param.id := by
      intro key hkey
      obtain ⟨t, ht, rfl⟩ := List.mem_map.mp hkey
      obtain ⟨q, hq, howner, _⟩ := hrest.owner hs t ht
      exact List.mem_map.mpr ⟨q, hq, howner.symm⟩
    have hownIds : ∀ key ∈ (typeNames d p).map (fun name => (p.id, name)), key.1 = p.id := by
      intro key hkey
      obtain ⟨name, _, rfl⟩ := List.mem_map.mp hkey
      rfl
    -- Types of different parts have different owners.
    rw [Forest.types_cons, List.map_append, List.map_append, hown, List.nodup_append,
      List.nodup_append]
    refine ⟨ihBelow hbelow (hp.under hs) hidsBelow, ⟨?_, ihRest hrest hs hidsRest, ?_⟩, ?_⟩
    · exact List.Pairwise.map _ (fun _ _ hne he => hne (Prod.mk.inj he).2) hp.distinct
    · rintro key hkey _ hkey' rfl
      exact hpRest (hownIds key hkey ▸ hrestIds key hkey')
    · rintro key hkey _ hkey' rfl
      rcases List.mem_append.mp hkey' with hkey' | hkey'
      · exact hpBelow (hownIds key hkey' ▸ hbelowIds key hkey)
      · exact hapart _ (hbelowIds key hkey) _ (hrestIds key hkey') rfl

end AllPlaced

/-- The holders that lines open, with the scopes that they stand in. -/
def holdersIn (ws : List Written) : List (List String × String) :=
  ws.filterMap fun w =>
    match w.opens with
    | some (name, .holder _) => some (w.nest, name)
    | _ => none

@[simp] theorem holdersIn_append (ws ws' : List Written) :
    holdersIn (ws ++ ws') = holdersIn ws ++ holdersIn ws' := by
  simp [holdersIn]

theorem holdersIn_eq_nil {ws : List Written} (h : ∀ w ∈ ws, w.opens = none) :
    holdersIn ws = [] := by
  rw [holdersIn, List.filterMap_eq_nil_iff]
  intro w hw
  rw [h w hw]

section Holders

variable {d : Device}

theorem holdersIn_enclosed_struct (nest : List String) (name opening closing : String)
    (completes : Option Completed) (inner : List Written) :
    holdersIn (enclosed nest name .struct opening closing completes inner) = holdersIn inner := by
  simp [enclosed, holdersIn]

theorem holdersIn_enclosed_holder (nest : List String) (name opening closing : String)
    (inStruct : Bool) (inner : List Written) :
    holdersIn (enclosed nest name (.holder inStruct) opening closing none inner) =
      (nest, name) :: holdersIn inner := by
  simp [enclosed, holdersIn]

theorem holdersIn_ownContainer (nest : List String) (p : Param) :
    holdersIn (declsWritten d nest (ownContainer d p)) = [] := by
  unfold ownContainer
  split
  · simp [holdersIn]
  · split
    · split <;> simp [holdersIn, Decl.written]
    · simp [holdersIn]

/-- The lines of a struct open the holders inside it. -/
theorem holdersIn_struct (nest : List String) (t : TypeId) (name : String) (inner : List Decl)
    (members : List Param) :
    holdersIn (Decl.written d nest (.struct t name inner members)) =
      holdersIn (declsWritten d (nest ++ [name]) inner) := by
  rw [Decl.written, holdersIn_enclosed_struct, holdersIn_append, holdersIn_append]
  have hmembers : holdersIn (members.map fun p =>
      { line := ⟨nest.length + 2, member d p⟩, nest := nest ++ [name],
          spells := spelledByMember p }) = [] := by
    refine holdersIn_eq_nil ?_
    intro w hw
    obtain ⟨p, _, rfl⟩ := List.mem_map.mp hw
    rfl
  rw [hmembers]
  simp [holdersIn]

/-- The lines of a holder open it, if any child declares something, and those inside it. -/
theorem holdersIn_holder (nest : List String) (p : Param) (inStruct : Bool) (inner : List Decl) :
    holdersIn (declsWritten d nest (holder d p inStruct inner)) =
      if (d.children p.id).any (declaresAnything d) then
        (nest, holderName p.oid) :: holdersIn (declsWritten d (nest ++ [holderName p.oid]) inner)
      else [] := by
  unfold holder
  split
  · cases inStruct <;> simp [Decl.written, holdersIn_enclosed_holder, holderName]
  · simp [holdersIn]

variable {above : Option ParamId} {scope s : List String} {name : String} {p : Param} {own : Share}
  {below f : Forest}

/-- The holder of the parameter itself is open in this scope, under this name. -/
def HolderOf (d : Device) (s : List String) (name : String) (p : Param) : Prop :=
  opensHolder d p = true ∧ Scoped d s p ∧ name = holderName p.oid

/-- Where no child declares anything, the declarations of the children are empty. -/
theorem barren_declarations (hbelow : AllPlaced d (some p.id) scope below)
    (hnone : ∀ c ∈ below.roots, declaresAnything d c = false) (depth : Nat) (inStruct : Bool) :
    below.roots.flatMap (declarations d depth inStruct) = [] := by
  rw [List.flatMap_eq_nil_iff]
  intro c hc
  obtain ⟨_, _, hplaced⟩ := hbelow.mem_roots c hc
  have hcommand : c.isCommand = false := by
    cases h : c.isCommand with
    | false => rfl
    | true => cases hplaced.command h
  exact declarations_eq_nil (hnone c hc) hcommand depth inStruct

/-- A parameter opens its holder, if it has one, and those below it. -/
theorem declarations_holders (hp : Placed d above scope p own below) (hs : Under d above scope)
    (hbelow : AllPlaced d (some p.id) (scope ++ [innerName p.oid p.declared]) below) {depth : Nat}
    (ih : ∀ inStruct,
      (s, name) ∈ holdersIn
      (declsWritten d (scope ++ [innerName p.oid p.declared])
      (below.roots.flatMap (declarations d depth inStruct))) ↔
      ∃ q ∈ below.params, HolderOf d s name q)
    (inStruct : Bool) :
    (s, name) ∈ holdersIn (declsWritten d scope (declarations d (depth + 1) inStruct p)) ↔
      HolderOf d s name p ∨ ∃ q ∈ below.params, HolderOf d s name q := by
  have hself : HolderOf d s name p ↔ opensHolder d p = true ∧
      (s, name) = (scope, holderName p.oid) := by
    constructor
    · rintro ⟨hopens, hscope, rfl⟩
      exact ⟨hopens, by rw [(hp.inScope hs).unique hscope]⟩
    · rintro ⟨hopens, he⟩
      cases he
      exact ⟨hopens, hp.inScope hs, rfl⟩
  have hnone : (∀ c ∈ below.roots, declaresAnything d c = false) → ¬ ∃ q ∈ below.params,
      HolderOf d s name q := by
    intro hbarren
    rw [← ih inStruct, barren_declarations hbelow hbarren]
    simp [holdersIn]
  have hholder : makesStruct p.declared = false → (p.declares.isSome || p.isCommand) = true →
      ((s, name) ∈ holdersIn (declsWritten d scope
          (holder d p inStruct ((d.children p.id).flatMap (declarations d depth inStruct)))) ↔
        HolderOf d s name p ∨ ∃ q ∈ below.params, HolderOf d s name q) := by
    intro hstruct hhas
    rw [holdersIn_holder, hself, opensHolder, hstruct, hhas, hp.children]
    rw [innerName, hstruct, if_neg Bool.false_ne_true] at ih
    cases hany : below.roots.any (declaresAnything d) with
    | true =>
      rw [if_pos rfl, List.mem_cons, ih inStruct]
      simp
    | false =>
      have hbarren := hnone (by simpa using hany)
      simp [hbarren]
  cases hdeclares : p.declares with
  | some t =>
    have ht := hp.declared t hdeclares
    cases hstruct : makesStruct p.declared with
    | true =>
      rw [elementShape, hstruct, if_pos rfl] at ht
      rw [innerName, hstruct, if_pos rfl] at ih
      rw [declarations_struct hdeclares ht, declsWritten_cons, holdersIn_append, holdersIn_struct,
        holdersIn_ownContainer, List.append_nil, hp.children, ih true, hself, opensHolder, hstruct]
      simp
    | false =>
      rw [elementShape, hstruct, if_neg Bool.false_ne_true] at ht
      rw [declarations_variant hdeclares ht, declsWritten_append, declsWritten_cons,
        holdersIn_append, holdersIn_append, holdersIn_ownContainer, List.append_nil,
        List.mem_append, hholder hstruct (by simp [hdeclares])]
      simp [holdersIn, Decl.written]
  | none =>
    rw [declarations_undeclared hdeclares, declsWritten_append, holdersIn_append,
      holdersIn_ownContainer, List.append_nil]
    cases hcommand : p.isCommand with
    | true =>
      rw [if_pos rfl]
      exact hholder (hp.unstructured hdeclares hcommand) (by simp [hcommand])
    | false =>
      have hbarren := hnone (hp.barren hdeclares hcommand)
      simp [hself, opensHolder, hdeclares, hcommand, hbarren, holdersIn]

/-- The lines for a forest open the holders of its parameters. -/
theorem AllPlaced.holders (h : AllPlaced d above scope f) (hs : Under d above scope) {depth : Nat}
    (hn : f.params.length ≤ depth) (inStruct : Bool) :
    (s, name) ∈ holdersIn (declsWritten d scope (f.roots.flatMap (declarations d depth inStruct))) ↔
      ∃ p ∈ f.params, HolderOf d s name p := by
  induction f generalizing above scope depth inStruct with
  | nil => simp [holdersIn]
  | cons p own below rest ihBelow ihRest =>
    obtain ⟨hp, hbelow, hrest⟩ := h
    simp only [Forest.params_cons, List.length_cons, List.length_append] at hn
    obtain ⟨depth, rfl⟩ : ∃ n, depth = n + 1 := ⟨depth - 1, by omega⟩
    have hfirst := declarations_holders hp hs hbelow
      (fun inStruct => ihBelow hbelow (hp.under hs) (show below.params.length ≤ depth by omega)
        inStruct) inStruct
    have hnext := ihRest hrest hs (show rest.params.length ≤ depth + 1 by omega) inStruct
    rw [Forest.roots_cons, List.flatMap_cons, declsWritten_append, holdersIn_append,
      List.mem_append, hfirst, hnext]
    simp only [Forest.params_cons, List.mem_cons, List.mem_append, or_and_right, exists_or,
      exists_eq_left, or_assoc]

end Holders

section Whole

variable {source : Source} {importRoot : Path} {description : Description.Device} {d : Device}
  {shared : List Constraint} {params commands : Forest}

theorem under_outermost (d : Device) : Under d none [] := fun _ => .outermost

theorem resolved_allPlaced (h : Resolved source importRoot description d shared params commands) :
    AllPlaced d none [] (params.append commands) := by
  have hparams := grown_allPlaced h.params_grown (.start h.unowned) h.holds.left
  have hcommands := grown_allPlaced h.commands_grown h.sound h.holds.right
  exact hparams.append hcommands

/-- The holders that the header opens are those of parameters. -/
theorem resolved_holders (h : Resolved source importRoot description d shared params commands)
    {s : List String} {name : String} :
    (s, name) ∈ holdersIn (typesWritten d) ↔ ∃ p ∈ (params.append commands).params,
    HolderOf d s name p := by
  have hnodes : (params.append commands).params.length = d.nodes.size := by
    rw [← Array.length_toList, h.nodes, Forest.params_append]
  rw [typesWritten, types_eq h, ← List.flatMap_append, ← Forest.roots_append]
  exact (resolved_allPlaced h).holders (under_outermost d) (by omega) false

end Whole

end DeviceModel.Cpp
