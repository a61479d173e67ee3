import DeviceModel.Proofs.Agreement
import DeviceModel.Proofs.Preorder

namespace DeviceModel

/-- The value is one of the type, among the types that a device declares. -/
inductive HasType (d : Device) : Initializer → ValueType → Prop where
  | string {s : String} : HasType d (.string s) .string
  | int32 {i : Int32} : HasType d (.int32 i) .int32
  | float32 {x : Number.Single} : HasType d (.float32 x) .float32
  | list {items : List Initializer} {element : ValueType}
      (each : ∀ i ∈ items, HasType d i element) : HasType d (.list items) (.array element)
  /-- Fields may be left out, but are in order, and none is there twice. -/
  | struct {fields : List (String × Initializer)} {t : TypeId} {decl : TypeDecl}
      {declared : List Field}
      (found : d.typeDecl? t = some decl) (shape : decl.shape = .struct declared)
      (order : (fields.map Prod.fst).Sublist (declared.map Field.name))
      (distinct : (fields.map Prod.fst).Nodup)
      (each : ∀ e ∈ fields, ∀ f ∈ declared, f.name = e.1 → HasType d e.2 f.type) :
      HasType d (.struct fields) (.struct t)
  | variant {t : TypeId} {index : Nat} {alternative : String} {type : ValueType} {i : Initializer}
      {decl : TypeDecl}
      {alternatives : List Alternative} (found : d.typeDecl? t = some decl)
      (shape : decl.shape = .variant alternatives)
      (chosen : alternatives[index]? = some ⟨alternative, type⟩) (inner : HasType d i type) :
      HasType d (.variant t index alternative type i) (.variant t)

/-- A struct type is declared as a struct, and a variant type as a variant. -/
def Meant (d : Device) : ValueType → Prop
  | .struct t => ∃ decl fields, d.typeDecl? t = some decl ∧ decl.shape = .struct fields
  | .variant t =>
    ∃ decl alternatives, d.typeDecl? t = some decl ∧ decl.shape = .variant alternatives
  | .array element => Meant d element
  | _ => True

/-- Declared types are made of types that are declared as what they are, under different names. -/
structure Lawful (d : Device) : Prop where
  fields : ∀ t decl fields, d.typeDecl? t = some decl → decl.shape = .struct fields →
    (fields.map Field.name).Nodup ∧ ∀ f ∈ fields, Meant d f.type
  alternatives : ∀ t decl alternatives, d.typeDecl? t = some decl →
    decl.shape = .variant alternatives → ∀ a ∈ alternatives, Meant d a.type

/-- The value of a parameter, if it has one, has its type. -/
def WellValued (d : Device) (p : Param) : Prop := ∀ i, p.value = some i → HasType d i p.type

/-- Whatever is declared with a value has one. -/
def ValuesKept (source : Source) (d : Device) (folder : Path) (listed : Entries ParamId)
    (described : List (String × Description.Param)) : Prop :=
  ∀ oid q id declaration p v, (oid, q) ∈ described → (oid, id) ∈ listed →
    ComesTo source d folder id q declaration p → declaration.value = some v → ∃ i, p.value = some i

theorem Typed.meant {d : Device} {p : Param} (h : Typed d p) : Meant d p.type := by
  have helement : Meant d p.type.element := by
    cases he : p.type.element with
    | struct t =>
      obtain ⟨decl, hdecl, hshape⟩ := h.struct t he
      exact ⟨decl, _, hdecl, hshape⟩
    | variant t =>
      obtain ⟨decl, hdecl, hshape, _⟩ := h.variant t he
      exact ⟨decl, _, hdecl, hshape⟩
    | array element =>
      -- elements are no arrays themselves
      cases htype : p.type with
      | array inner =>
        have harray := (h.flat inner htype).1
        rw [htype] at he
        rw [show inner = .array element from he] at harray
        cases harray
      | _ =>
        rw [htype] at he
        cases he
    | _ => trivial
  cases htype : p.type with
  | array element =>
    rw [htype] at helement
    exact helement
  | _ =>
    rw [htype] at helement
    exact helement

namespace Resolve

open Description (Value Declaration)

section Values

variable {d : Device} {types : Array TypeDecl}

theorem findAlternative_getElem? {oid name : String} {alternatives : List Alternative} {index : Nat}
    {a : Alternative} (h : findAlternative oid name alternatives = .ok (index, a)) :
    alternatives[index]? = some a := by
  unfold findAlternative at h
  split at h
  · next hf =>
    cases h
    exact List.mem_zipIdx_iff_getElem?.mp (List.mem_of_find?_eq_some hf)
  · cases h

/-- The fields that are collected are declared ones, in order, each with its value. -/
theorem collectFields_ok {valueOf : Field → Option Valued} {declared : List Field}
    {given : List (String × Initializer)} (h : collectFields valueOf declared = .ok given) :
    (given.map Prod.fst).Sublist (declared.map Field.name) ∧
      ∀ e ∈ given, ∃ f ∈ declared, f.name = e.1 ∧ valueOf f = some (.ok e.2) := by
  induction declared generalizing given with
  | nil =>
    cases h
    exact ⟨List.Sublist.refl _, by simp⟩
  | cons f rest ih =>
    unfold collectFields at h
    cases hf : valueOf f with
    | none =>
      rw [hf] at h
      obtain ⟨horder, heach⟩ := ih h
      refine ⟨horder.cons _, ?_⟩
      intro e he
      obtain ⟨f', hf', hvalue⟩ := heach e he
      exact ⟨f', List.mem_cons_of_mem _ hf', hvalue⟩
    | some v =>
      simp only [hf, except_bind_ok, except_pure_ok] at h
      obtain ⟨i, rfl, others, hothers, rfl⟩ := h
      obtain ⟨horder, heach⟩ := ih hothers
      refine ⟨horder.cons_cons _, ?_⟩
      intro e he
      rcases List.mem_cons.mp he with rfl | he
      · exact ⟨f, List.mem_cons_self .., rfl, hf⟩
      · obtain ⟨f', hf', hvalue⟩ := heach e he
        exact ⟨f', List.mem_cons_of_mem _ hf', hvalue⟩

/-- Types that are found while a value is read are those of the device. -/
def Extends (d : Device) (types : Array TypeDecl) : Prop :=
  ∀ (t : Nat) (decl : TypeDecl), types[t]? = some decl → d.types[t]? = some decl

theorem Extends.declaration (h : Extends d types) {oid : String} {t : TypeId} {decl : TypeDecl}
    (hd : declaration types oid t = .ok decl) : d.typeDecl? t = some decl :=
  h t.index decl (declaration_ok hd)

/-- A struct value has the type, if the values of its fields have theirs. -/
theorem structValue_typed (hd : Extends d types) (lawful : Lawful d)
    {fields : List (String × Value)} {oid : String} {t : TypeId} {i : Initializer}
    (ht : Meant d (.struct t))
    (hfields : ∀ {name oid : String} {type : ValueType} {i : Initializer}, Meant d type →
      fieldValue types fields name oid type = some (.ok i) → HasType d i type)
    (h : structValue types (fields.map Prod.fst) (fieldValue types fields) oid t = .ok i) :
    HasType d i (.struct t) := by
  simp only [structValue, except_bind_ok, except_pure_ok] at h
  obtain ⟨decl, hdecl, _, _, given, hgiven, rfl⟩ := h
  have hfound := hd.declaration hdecl
  obtain ⟨decl', declared, hfound', hshape⟩ := ht
  cases hfound.symm.trans hfound'
  have hdeclared : decl.fields = declared := by rw [TypeDecl.fields, hshape]
  rw [hdeclared] at hgiven
  obtain ⟨hnodup, hmeant⟩ := lawful.fields t decl declared hfound hshape
  obtain ⟨horder, heach⟩ := collectFields_ok hgiven
  refine .struct hfound hshape horder (horder.nodup hnodup) ?_
  intro e he f hf hname
  obtain ⟨f', hf', hname', hvalue⟩ := heach e he
  rw [List.inj_on_of_nodup_map hnodup hf hf' (hname.trans hname'.symm)]
  exact hfields (hmeant f' hf') hvalue

theorem variant_typed (hd : Extends d types) (lawful : Lawful d) {oid name : String} {t : TypeId}
    {decl : TypeDecl} {index : Nat} {a : Alternative} {i : Initializer} (ht : Meant d (.variant t))
    (hdecl : declaration types oid t = .ok decl)
    (ha : findAlternative oid name decl.alternatives = .ok (index, a))
    (hinner : Meant d a.type → HasType d i a.type) :
    HasType d (.variant t index a.name a.type i) (.variant t) := by
  have hfound := hd.declaration hdecl
  obtain ⟨decl', alternatives, hfound', hshape⟩ := ht
  cases hfound.symm.trans hfound'
  have halternatives : decl.alternatives = alternatives := by rw [TypeDecl.alternatives, hshape]
  rw [halternatives] at ha
  refine .variant hfound hshape (findAlternative_getElem? ha) (hinner ?_)
  exact lawful.alternatives t decl alternatives hfound hshape a (findAlternative_mem ha)

theorem plain_typed {v : Value} (hv : isPlain v = true) {oid : String} {t : ValueType}
    {i : Initializer} (h : value types v oid t = .ok i) : HasType d i t := by
  unfold value at h
  split at h
  case h_1 | h_2 | h_3 =>
    cases h
    constructor
  case h_4 | h_5 | h_6 =>
    cases h
    refine .list ?_
    intro i hi
    obtain ⟨_, _, rfl⟩ := List.mem_map.mp hi
    constructor
  case h_7 | h_8 | h_9 | h_10 => cases hv
  case h_11 => cases h

mutual

/-- What a value is read as has the type that it is read at. -/
theorem value_typed (hd : Extends d types) (lawful : Lawful d) :
    ∀ (v : Value) {oid : String} {t : ValueType} {i : Initializer},
      Meant d t → value types v oid t = .ok i → HasType d i t
  | .string _, _, _, _, _, h | .int32 _, _, _, _, _, h | .float32 _, _, _, _, _, h
  | .strings _, _, _, _, _, h | .int32s _, _, _, _, _, h | .float32s _, _, _, _, _, h =>
    plain_typed rfl h
  | .struct fields, _, _, _, ht, h => by
    obtain ⟨u, rfl, hstruct⟩ := struct_ok h
    exact structValue_typed hd lawful ht (fieldValue_typed hd lawful fields) hstruct
  | .structs items, _, _, _, ht, h => by
    obtain ⟨u, is, rfl, his, rfl⟩ := structs_ok h
    exact .list (structItems_typed hd lawful items ht his)
  | .variant name v, _, _, _, ht, h => by
    obtain ⟨u, decl, index, a, j, rfl, hdecl, ha, hj, rfl⟩ := variant_ok h
    exact variant_typed hd lawful ht hdecl ha fun hmeant => value_typed hd lawful v hmeant hj
  | .variants items, _, _, _, ht, h => by
    obtain ⟨u, is, rfl, his, rfl⟩ := variants_ok h
    exact .list (variantItems_typed hd lawful items ht his)

theorem fieldValue_typed (hd : Extends d types) (lawful : Lawful d) :
    ∀ (fields : List (String × Value)) {name oid : String} {t : ValueType} {i : Initializer},
      Meant d t → fieldValue types fields name oid t = some (.ok i) → HasType d i t
  | [], _, _, _, _, _, h => by simp [fieldValue] at h
  | (key, v) :: rest, name, oid, t, i, ht, h => by
    unfold fieldValue at h
    split at h
    · exact value_typed hd lawful v ht (Option.some.inj h)
    · exact fieldValue_typed hd lawful rest ht h

theorem structItems_typed (hd : Extends d types) (lawful : Lawful d) :
    ∀ (items : List (List (String × Value))) {oid : String} {k : Nat} {t : TypeId}
      {is : List Initializer},
      Meant d (.struct t) → structItems types items oid k t = .ok is →
        ∀ i ∈ is, HasType d i (.struct t)
  | [], _, _, _, _, _, h => by
    simp only [structItems, Except.ok.injEq] at h
    simp [← h]
  | fields :: rest, _, _, _, _, ht, h => by
    simp only [structItems, except_bind_ok, except_pure_ok] at h
    obtain ⟨i, hi, is, his, rfl⟩ := h
    exact List.forall_mem_cons.mpr
      ⟨structValue_typed hd lawful ht (fieldValue_typed hd lawful fields) hi,
      structItems_typed hd lawful rest ht his⟩

theorem variantItems_typed (hd : Extends d types) (lawful : Lawful d) :
    ∀ (items : List (String × Value)) {oid : String} {k : Nat} {t : TypeId} {is : List Initializer},
      Meant d (.variant t) → variantItems types items oid k t = .ok is →
        ∀ i ∈ is, HasType d i (.variant t)
  | [], _, _, _, _, _, h => by
    simp only [variantItems, Except.ok.injEq] at h
    simp [← h]
  | (name, v) :: rest, _, _, _, _, ht, h => by
    simp only [variantItems, except_bind_ok, except_pure_ok] at h
    obtain ⟨decl, hdecl, ⟨index, a⟩, ha, i, hi, is, his, rfl⟩ := h
    exact List.forall_mem_cons.mpr
      ⟨variant_typed hd lawful ht hdecl ha fun hmeant => value_typed hd lawful v hmeant hi,
        variantItems_typed hd lawful rest ht his⟩

end

end Values

section Growth

variable {d : Device} {g : Ground} {f : Forest}

/-- A value that is given has the parameter's type; else the template's has. -/
theorem Settled.wellValued {site : Site} {oid : String} {declaration : Declaration}
    {binding : Option Binding} {typing : Typing} {below : Forest} {own : Share} {p : Param}
    (settled : Settled g site oid declaration binding typing below own p)
    (hd : Holds d g (.tree p own below)) (lawful : Lawful d) (typed : Typed d p)
    (hbinding : ∀ i, binding.bind Binding.value = some i → HasType d i p.type) :
    WellValued d p := by
  intro i hi
  cases hv : declaration.value with
  | none =>
    rw [settled.ungiven hv] at hi
    exact hbinding i hi
  | some v =>
    obtain ⟨i', hvalue, hi'⟩ := settled.given v hv
    cases hi.symm.trans hi'
    rw [← settled.type] at hvalue
    refine value_typed ?_ lawful v typed.meant hvalue
    intro t decl ht
    obtain ⟨rest, hr⟩ := hd.types
    rw [List.getElem?_toArray] at ht
    rw [← Array.getElem?_toList, ← hr, Forest.types_tree, ← List.append_assoc,
      List.getElem?_append_left (List.getElem?_eq_some_iff.mp ht).1]
    exact ht

theorem Copied.wellValued {realm : Realm} {parent : ParamId} {path : String}
    {entries : Entries ParamId} (h : Copied realm g parent path entries f)
    (hknown : ∀ p ∈ g.known, WellValued d p) :
    ∀ p ∈ f.params, WellValued d p := by
  induction h with
  | nil => simp
  | @cons g parent path key entries source p below rest known node _ _ _ ihInner ihNext =>
    have hp : WellValued d p := by
      rw [node]
      exact hknown source known
    have htree := Forest.forall_tree {} below hp (ihInner hknown)
    exact Forest.forall_append _ htree (ihNext (Ground.forall_after hknown htree))

theorem Grown.wellValued {source : Source} {opened : List Path} {site : Site}
    {entries : List (String × Description.Param)} (h : Grown source opened g site entries f)
    (hd : Holds d g f) (lawful : Lawful d) (typed : ∀ p ∈ f.params, Typed d p)
    (hknown : ∀ p ∈ g.known, WellValued d p) :
    ∀ p ∈ f.params, WellValued d p := by
  induction h with
  | nil => simp
  | cons _ _ ihFirst ihNext =>
    have hfirst := ihFirst hd.left (fun p hp => typed p (by simp [hp])) hknown
    exact Forest.forall_append _ hfirst
      (ihNext hd.right (fun p hp => typed p (by simp [hp])) (Ground.forall_after hknown hfirst))
  | imported _ _ _ ih => exact ih hd typed hknown
  | @templated opened g site oid _ _ template p type overElements below rule _ _ known _ _ fits
      copied _ settled =>
    refine Forest.forall_tree _ _ (settled.wellValued hd lawful (typed p (by simp)) ?_)
      (copied.wellValued hknown)
    intro i hi
    have htype : p.type = type := settled.type
    rw [htype]
    -- an array over the template's elements has no value from it
    rcases ValueType.ofTemplate?_cases fits with ⟨rfl, rfl⟩ | ⟨_, _, rfl⟩
    · exact hknown template known i hi
    · cases hi
  | @composite _ _ _ _ _ _ p _ _ _ _ _ _ _ _ _ _ settled ih
  | @plain _ _ _ _ _ _ p _ _ _ _ _ _ _ _ settled ih =>
    refine Forest.forall_tree _ _ (settled.wellValued hd lawful (typed p (by simp)) ?_)
      (ih (hd.inner _ _) (fun q hq => typed q (by simp [hq])) hknown)
    intro i hi
    cases hi

end Growth

/-- What is declared with a value has one, as deep as it is declared. -/
theorem Grown.kept {source : Source} {opened : List Path} {d : Device} {g : Ground} {site : Site}
    {entries : List (String × Description.Param)} {f : Forest}
    (h : Grown source opened g site entries f) (hd : Holds d g f)
    (hshared : d.sharedConstraints = g.shared) (hg : Patterned d g)
    (distinct : (entries.map Prod.fst).Nodup) :
    ValuesKept source d site.folder f.entries entries := by
  intro oid q id declaration p v hq hid comes hv
  obtain ⟨_, _, _, _, _, _, _, settled, _⟩ := h.came hd hshared hg distinct hq hid comes
  obtain ⟨i, _, hi⟩ := settled.given v hv
  exact ⟨i, hi⟩

namespace Resolved

variable {source : Source} {importRoot : Path} {description : Description.Device} {d : Device}
  {shared : List Constraint} {params commands : Forest}
  (h : Resolved source importRoot description d shared params commands)

include h

theorem mem_children {p q : Param} (hp : p ∈ d.nodes) (hq : q ∈ d.children p.id) :
    q ∈ d.nodes ∧ q.realm = p.realm ∧ q.fqoid = p.fqoid ++ "/" ++ q.oid := by
  rw [h.mem_nodes] at hp
  rw [Device.children_of_found (h.found p hp)] at hq
  obtain ⟨e, he, hfound⟩ := List.mem_filterMap.mp hq
  obtain ⟨q', hq', rfl, seat⟩ := h.child hp he
  cases (h.found q' hq').symm.trans hfound
  exact ⟨h.mem_nodes.mpr hq', seat.realm, seat.fqoid⟩

/-- No two children have the same name. -/
theorem children_oids_nodup {p : Param} (hp : p ∈ d.nodes) :
    ((d.children p.id).map Param.oid).Nodup := by
  have hids : ((d.children p.id).map Param.id).Nodup := by
    rw [(h.typed hp).listed]
    exact h.children_nodup (h.mem_nodes.mp hp)
  refine List.Nodup.map_on ?_ hids.of_map
  intro q hq r hr hoid
  obtain ⟨hq, hqrealm, hqfqoid⟩ := h.mem_children hp hq
  obtain ⟨hr, hrrealm, hrfqoid⟩ := h.mem_children hp hr
  apply h.orderly.stems q hq r hr
  rw [Param.ident, Param.ident, hqrealm, hqfqoid, hrrealm, hrfqoid, hoid]

/-- A struct or variant is made of the children of its owner. -/
theorem composite_shape {t : TypeId} {decl : TypeDecl} (ht : d.typeDecl? t = some decl)
    (hshape : decl.shape.isComposite = true) :
    ∃ p ∈ d.nodes, decl.shape = .struct ((d.children p.id).map Param.field) ∨
      decl.shape = .variant ((d.children p.id).map Param.alternative) := by
  obtain ⟨p, hfound, howns⟩ := h.owner ht
  have hp : p ∈ d.nodes := Array.mem_of_getElem? hfound
  have typed := h.typed hp
  have hdeclares : p.declares = some t := by
    have hown := howns.2
    split at hown
    · next hs =>
      rw [hs] at hshape
      cases hshape
    · exact hown
  have hdeclared := (typed.declares t hdeclares).1
  refine ⟨p, hp, ?_⟩
  cases helement : p.type.element with
  | struct u =>
    rw [helement] at hdeclared
    cases hdeclared
    obtain ⟨decl', hdecl, hstruct⟩ := typed.struct t helement
    cases ht.symm.trans hdecl
    exact .inl hstruct
  | variant u =>
    rw [helement] at hdeclared
    cases hdeclared
    obtain ⟨decl', hdecl, hvariant, _⟩ := typed.variant t helement
    cases ht.symm.trans hdecl
    exact .inr hvariant
  | _ =>
    rw [helement] at hdeclared
    cases hdeclared

theorem struct_fields {t : TypeId} {decl : TypeDecl} {fields : List Field}
    (ht : d.typeDecl? t = some decl) (hshape : decl.shape = .struct fields) :
    ∃ p ∈ d.nodes, fields = (d.children p.id).map Param.field := by
  obtain ⟨p, hp, hstruct | hvariant⟩ := h.composite_shape ht (by rw [hshape]; rfl)
  · exact ⟨p, hp, Shape.struct.inj (hshape.symm.trans hstruct)⟩
  · cases hshape.symm.trans hvariant

theorem variant_alternatives {t : TypeId} {decl : TypeDecl} {alternatives : List Alternative}
    (ht : d.typeDecl? t = some decl) (hshape : decl.shape = .variant alternatives) :
    ∃ p ∈ d.nodes, alternatives = (d.children p.id).map Param.alternative := by
  obtain ⟨p, hp, hstruct | hvariant⟩ := h.composite_shape ht (by rw [hshape]; rfl)
  · cases hshape.symm.trans hstruct
  · exact ⟨p, hp, Shape.variant.inj (hshape.symm.trans hvariant)⟩

theorem lawful : Lawful d where
  fields := by
    intro t decl fields ht hshape
    obtain ⟨p, hp, rfl⟩ := h.struct_fields ht hshape
    refine ⟨?_, ?_⟩
    · rw [List.map_map]
      exact h.children_oids_nodup hp
    · intro f hf
      obtain ⟨q, hq, rfl⟩ := List.mem_map.mp hf
      exact (h.typed (h.mem_children hp hq).1).meant
  alternatives := by
    intro t decl alternatives ht hshape a ha
    obtain ⟨p, hp, rfl⟩ := h.variant_alternatives ht hshape
    obtain ⟨q, hq, rfl⟩ := List.mem_map.mp ha
    exact (h.typed (h.mem_children hp hq).1).meant

theorem wellValued {p : Param} (hp : p ∈ d.nodes) : WellValued d p := by
  have typed : ∀ q ∈ (params.append commands).params, Typed d q := fun q hq =>
    h.typed (h.mem_nodes.mpr hq)
  have hparams := h.params_grown.wellValued h.holds.left h.lawful
    (fun q hq => typed q (by simp [hq])) (by simp [start])
  have hcommands := h.commands_grown.wellValued h.holds.right h.lawful
    (fun q hq => typed q (by simp [hq])) (Ground.forall_after (by simp [start]) hparams)
  rw [h.mem_nodes] at hp
  exact Forest.forall_append _ hparams hcommands p hp

end Resolved

end Resolve

open Resolve
open Description (Declaration)

/-- Every value in a device has the type that it is stored with, and no value that is given is
lost. -/
structure ValuesTyped (source : Source) (importRoot : Path) (description : Description.Device)
    (d : Device) : Prop where
  values : ∀ p ∈ d.nodes, ∀ i, p.value = some i → HasType d i p.type
  defaults : ∀ decl ∈ d.types, ∀ f ∈ decl.fields, ∀ i, f.default = some i → HasType d i f.type
  params : ValuesKept source d importRoot d.params description.params
  commands : ValuesKept source d importRoot d.commands description.commands

theorem resolved_valuesTyped {ns : String} {description : Description.Device} {importRoot : Path}
    {source : Source} {d : Device}
    (h : (resolveDevice ns description importRoot source).result = .ok d) :
    ValuesTyped source importRoot description d := by
  obtain ⟨shared, params, commands, hr⟩ := resolveDevice_resolved h
  constructor
  case values =>
    intro p hp
    exact hr.wellValued hp
  case defaults =>
    intro decl hdecl f hf i hi
    obtain ⟨t, ht⟩ := Array.mem_iff_getElem?.mp hdecl
    unfold TypeDecl.fields at hf
    split at hf
    · next fields hshape =>
      -- a default is the value of the child that the field is made of
      obtain ⟨p, hp, rfl⟩ := hr.struct_fields (t := ⟨t⟩) ht hshape
      obtain ⟨q, hq, rfl⟩ := List.mem_map.mp hf
      exact hr.wellValued (hr.mem_children hp hq).1 i hi
    · cases hf
  case params =>
    rw [hr.params_eq]
    exact hr.params_grown.kept hr.holds.left hr.shared_eq (.start d shared)
      (Entries.keys_nodup hr.distinctParams)
  case commands =>
    rw [hr.commands_eq]
    exact hr.commands_grown.kept hr.holds.right hr.shared_eq hr.params_patterned
      (Entries.keys_nodup hr.distinctCommands)

/-- A struct whose value has its fields the other way round, a variant that holds one, and a
parameter with the variant's value from its template. -/
def pointAndMarks : Description.Device :=
  .small
    [("point",
      ⟨{ Declaration.ofType
      "STRUCT" with value := some (.struct [("y", .int32 2), ("x", .int32 1)]) },
        [("x", ⟨{ Declaration.ofType "INT32" with value := some (.int32 5) }, []⟩),
          ("y", ⟨.ofType "INT32", []⟩)]⟩),
      ("mark",
        ⟨{ Declaration.ofType
        "STRUCT_VARIANT" with value := some (.variant "dot" (.struct [("y", .int32 3)])) },
        [("label", ⟨.ofType "STRING", []⟩),
          ("dot", ⟨{ Declaration.ofType "STRUCT" with template := some "point" }, []⟩)]⟩),
      ("last", ⟨{ Declaration.ofType "STRUCT_VARIANT" with template := some "mark" }, []⟩)]
    []

theorem pointAndMarks_valuesTyped :
    ∃ d, (resolveDevice "m" pointAndMarks ⟨"params"⟩ (Documents.source {})).result = .ok d ∧
      (d.nodes.toList.filter fun p => p.value.isSome).map (fun p => (p.fqoid, p.type)) =
        [("/point", .struct ⟨0⟩), ("/point/x", .int32), ("/mark", .variant ⟨1⟩),
          ("/mark/dot", .struct ⟨0⟩),
          ("/mark/dot/x", .int32), ("/last", .variant ⟨1⟩), ("/last/dot", .struct ⟨0⟩),
          ("/last/dot/x", .int32)] ∧
      ValuesTyped (Documents.source {}) ⟨"params"⟩ pointAndMarks d := by
  have hok :
      ((resolveDevice "m" pointAndMarks ⟨"params"⟩
      (Documents.source {})).result.toOption.map fun d =>
      (d.nodes.toList.filter fun p => p.value.isSome).map fun p => (p.fqoid, p.type)) = some
        [("/point", .struct ⟨0⟩), ("/point/x", .int32), ("/mark", .variant ⟨1⟩),
          ("/mark/dot", .struct ⟨0⟩),
          ("/mark/dot/x", .int32), ("/last", .variant ⟨1⟩), ("/last/dot", .struct ⟨0⟩),
          ("/last/dot/x", .int32)] := by
    decide +kernel
  obtain ⟨d, hd, hvalues⟩ := ok_of_toOption hok
  exact ⟨d, hd, hvalues, resolved_valuesTyped hd⟩

end DeviceModel
