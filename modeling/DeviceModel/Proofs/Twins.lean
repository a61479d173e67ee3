import DeviceModel.Proofs.TypeTwins

namespace DeviceModel

namespace Param

/-- What a parameter has from its declaration and its place, with no reference to anything else. -/
def plain (p : Param) : Param :=
  { p with
    id := ⟨0⟩
    parent := none
    type := .empty
    declares := none
    container := none
    template := none
    constraint := none
    value := none
    children := [] }

/-- What a parameter is found by. -/
def address (p : Param) : Realm × String := (p.realm, p.fqoid)

end Param

namespace Constraint

/-- A constraint without the id of its owner. -/
def face (c : Constraint) : Constraint := { c with owner := c.owner.map fun _ => ⟨0⟩ }

@[simp] theorem face_rule (c : Constraint) : c.face.rule = c.rule := rfl

@[simp] theorem face_isShared (c : Constraint) : c.face.isShared = c.isShared := by
  simp [face, isShared]

end Constraint

/-- The address of what is found under an id. -/
def Device.spot (d : Device) (id : ParamId) : Option (Realm × String) :=
  (d.param? id).map Param.address

/-- A name, and the address of what it leads to. -/
def placeIn (d : Device) (e : String × ParamId) : String × Option (Realm × String) :=
  (e.1, d.spot e.2)

namespace Cpp

open Resolve

theorem constraintName_face (c : Constraint) : constraintName c.face = constraintName c := by
  simp only [constraintName, Constraint.face_isShared]
  rfl

theorem constraintText_face (c : Constraint) : constraintText c.face = constraintText c := by
  simp only [constraintText, rangeText, choicesText, constraintName_face, Constraint.face_isShared]
  rfl

/-- The definition of a constraint does not say whose it is. -/
theorem constraint_text {d d' : Device} {c c' : ConstraintId} {k k' : Constraint}
    (hk : d.constraint? c = some k) (hk' : d'.constraint? c' = some k') (hface : k'.face = k.face) :
    Item.text d' (.constraint c') = Item.text d (.constraint c) := by
  simp only [Item.text, hk, hk', Option.map_some, Option.getD_some]
  rw [← constraintText_face, hface, constraintText_face]

/-- Parameters of two devices that are written alike and are at the same place. -/
structure Twin (d d' : Device) (p p' : Param) : Prop where
  plain : p'.plain = p.plain
  type : TypeTwin d d' p.type p'.type
  container : p'.container.map (declName d' .outside) = p.container.map (declName d .outside)
  template : (p'.template.bind d'.param?).map Param.fqoid =
    (p.template.bind d.param?).map Param.fqoid
  constraint :
    (p'.constraint.bind d'.constraint?).map Constraint.face =
      (p.constraint.bind d.constraint?).map Constraint.face
  value : p'.value.map (spelled d') = p.value.map (spelled d)
  parent : (p'.parent.bind d'.param?).map Param.ident = (p.parent.bind d.param?).map Param.ident
  owned : (ownedConstraint d' p').map (Item.text d') = (ownedConstraint d p).map (Item.text d)
  children : p'.children.map (placeIn d') = p.children.map (placeIn d)

namespace Twin

variable {d d' : Device} {p p' : Param} (h : Twin d d' p p')

include h

/-- Twins agree in whatever depends only on declaration and place. -/
theorem agree {β : Type} (f : Param → β) (hf : ∀ p, f p.plain = f p) : f p' = f p := by
  rw [← hf p', h.plain, hf p]

theorem oid_eq : p'.oid = p.oid := h.agree Param.oid fun _ => rfl

theorem fqoid_eq : p'.fqoid = p.fqoid := h.agree Param.fqoid fun _ => rfl

theorem address_eq : p'.address = p.address := h.agree Param.address fun _ => rfl

theorem ident_eq : p'.ident = p.ident := h.agree Param.ident fun _ => rfl

theorem descriptorName_eq : descriptorName p' = descriptorName p :=
  congrArg (· ++ "Descriptor") h.ident_eq

theorem constraintName_eq :
    (p'.constraint.bind d'.constraint?).map constraintName =
      (p.constraint.bind d.constraint?).map constraintName := by
  have hnames := congrArg (Option.map constraintName) h.constraint
  simpa only [Option.map_map, Function.comp_def, constraintName_face] using hnames

theorem parentName_eq :
    (p'.parent.bind d'.param?).map descriptorName =
      (p.parent.bind d.param?).map descriptorName := by
  have hnames := congrArg (Option.map (· ++ "Descriptor")) h.parent
  rw [Option.map_map, Option.map_map] at hnames
  exact hnames

theorem descriptorText_eq : descriptorText d' p' = descriptorText d p := by
  have haliases : p'.oidAliases = p.oidAliases := h.agree Param.oidAliases fun _ => rfl
  have hname : p'.name = p.name := h.agree Param.name fun _ => rfl
  have hwidget : p'.widget = p.widget := h.agree Param.widget fun _ => rfl
  have hscope : p'.accessScope = p.accessScope := h.agree Param.accessScope fun _ => rfl
  have hreadOnly : p'.readOnly = p.readOnly := h.agree Param.readOnly fun _ => rfl
  have hcommand : p'.isCommand = p.isCommand := h.agree Param.isCommand fun _ => rfl
  rw [descriptorText, descriptorText, h.descriptorName_eq, h.type.code_eq, haliases, hname, hwidget,
    hscope, hreadOnly, h.oid_eq, h.constraintName_eq, h.parentName_eq, hcommand]

theorem commandText_eq (type value : String) :
    paramText type value true p' = paramText type value true p := by
  rw [paramText, paramText, h.ident_eq, h.descriptorName_eq]

variable (ns : d'.ns = d.ns)

include ns

theorem paramType_eq : paramType d' .outside p' = paramType d .outside p := by
  have hcontainer := h.container
  unfold paramType
  cases hc : p.container with
  | none =>
    cases hc' : p'.container with
    | none => exact typeName_twin ns h.type
    | some t' => simp [hc, hc'] at hcontainer
  | some t =>
    cases hc' : p'.container with
    | none => simp [hc, hc'] at hcontainer
    | some t' =>
      rw [hc, hc'] at hcontainer
      exact Option.some.inj hcontainer

theorem valueText_eq : valueText d' p' = valueText d p := by
  have hvalue := h.value
  rw [valueText, valueText, h.paramType_eq ns, h.oid_eq]
  cases hv : p.value with
  | none =>
    cases hv' : p'.value with
    | none => rfl
    | some v' => simp [hv, hv'] at hvalue
  | some v =>
    cases hv' : p'.value with
    | none => simp [hv, hv'] at hvalue
    | some v' =>
      rw [hv, hv'] at hvalue
      have htext : initializer d' .outside v' = initializer d .outside v :=
        congrArg Prod.snd (Option.some.inj hvalue)
      simp only [htext]

theorem paramText_eq :
    paramText (paramType d' .outside p') p'.oid false p' =
      paramText (paramType d .outside p) p.oid false p := by
  rw [paramText, paramText, h.paramType_eq ns, h.oid_eq, h.ident_eq, h.descriptorName_eq]

end Twin

/-- Forests of the same shape, with twins at the same places. -/
inductive ForestTwin (d d' : Device) : Forest → Forest → Prop where
  | nil : ForestTwin d d' .nil .nil
  | cons {p p' : Param} {own own' : Share} {below below' rest rest' : Forest}
      (node : Twin d d' p p')
      (inner : ForestTwin d d' below below') (next : ForestTwin d d' rest rest') :
      ForestTwin d d' (.cons p own below rest) (.cons p' own' below' rest')

namespace ForestTwin

variable {d d' : Device} {f f' : Forest}

theorem tree {p p' : Param} {own own' : Share} {below below' : Forest} (node : Twin d d' p p')
    (inner : ForestTwin d d' below below') :
    ForestTwin d d' (.tree p own below) (.tree p' own' below') :=
  .cons node inner .nil

theorem append {h h' : Forest} (hf : ForestTwin d d' f f') (hh : ForestTwin d d' h h') :
    ForestTwin d d' (f.append h) (f'.append h') := by
  induction hf with
  | nil => exact hh
  | cons node inner _ _ ih => exact .cons node inner ih

/-- Every parameter has a twin. -/
theorem mem (h : ForestTwin d d' f f') {p : Param} (hp : p ∈ f.params) :
    ∃ p' ∈ f'.params, Twin d d' p p' := by
  induction h with
  | nil => cases hp
  | cons node _ _ ihInner ihNext =>
    simp only [Forest.params_cons, List.mem_cons, List.mem_append] at hp ⊢
    rcases hp with rfl | hp | hp
    · exact ⟨_, .inl rfl, node⟩
    · obtain ⟨p', hp', htwin⟩ := ihInner hp
      exact ⟨p', .inr (.inl hp'), htwin⟩
    · obtain ⟨p', hp', htwin⟩ := ihNext hp
      exact ⟨p', .inr (.inr hp'), htwin⟩

/-- The outermost parameters are the same members of a struct or variant. -/
theorem members (h : ForestTwin d d' f f') :
    MembersTwin d d' (f.roots.map fun p => (p.oid, p.type))
      (f'.roots.map fun p => (p.oid, p.type)) := by
  induction h with
  | nil => exact .nil
  | cons node _ _ _ ih =>
    simp only [Forest.roots_cons, List.map_cons, node.oid_eq]
    exact .cons node.type ih

/-- The outermost parameters are at the same addresses, under the same names. -/
theorem places (h : ForestTwin d d' f f') (found : ∀ p ∈ f.params, d.param? p.id = some p)
    (found' : ∀ p ∈ f'.params, d'.param? p.id = some p) :
    f'.entries.map (placeIn d') = f.entries.map (placeIn d) := by
  induction h with
  | nil => rfl
  | @cons p p' own own' below below' rest rest' node _ _ _ ih =>
    have hrest := ih (fun q hq => found q (by simp [hq])) (fun q hq => found' q (by simp [hq]))
    have hplace : placeIn d' (p'.oid, p'.id) = placeIn d (p.oid, p.id) := by
      simp only [placeIn, Device.spot, found p (by simp), found' p' (by simp), node.oid_eq,
        Option.map_some, node.address_eq]
    rw [Forest.entries_cons, Forest.entries_cons, List.map_cons, List.map_cons, hplace, hrest]

/-- The constraints and descriptors of a forest are written alike. -/
theorem descriptors (h : ForestTwin d d' f f') (found : ∀ p ∈ f.params, d.param? p.id = some p)
    (found' : ∀ p ∈ f'.params, d'.param? p.id = some p) :
    (f'.params.flatMap (nodeItems d')).map (Item.text d') =
      (f.params.flatMap (nodeItems d)).map (Item.text d) := by
  induction h with
  | nil => simp only [Forest.params_nil, List.flatMap_nil, List.map_nil]
  | @cons p p' own own' below below' rest rest' node _ _ ihInner ihNext =>
    have hbelow :=
      ihInner (fun q hq => found q (by simp [hq])) (fun q hq => found' q (by simp [hq]))
    have hrest := ihNext (fun q hq => found q (by simp [hq])) (fun q hq => found' q (by simp [hq]))
    have hnode : (nodeItems d' p').map (Item.text d') = (nodeItems d p).map (Item.text d) := by
      simp only [nodeItems, List.map_append, node.owned, List.map_cons, List.map_nil, Item.text,
        found p (by simp), found' p' (by simp), Option.map_some, node.descriptorText_eq]
    simp only [Forest.params_cons, List.flatMap_cons, List.flatMap_append, List.map_append, hnode,
      hbelow, hrest]

end ForestTwin

end Cpp

end DeviceModel
