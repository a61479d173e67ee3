import DeviceModel.Proofs.BodyOrder

namespace DeviceModel

namespace TypeDecl

/-- The names and types of fields. -/
def fieldTypes (t : TypeDecl) : List (String × ValueType) := t.fields.map fun f => (f.name, f.type)

/-- The names and types of alternatives. -/
def alternativeTypes (t : TypeDecl) : List (String × ValueType) :=
  t.alternatives.map fun a => (a.name, a.type)

end TypeDecl

mutual

/-- Types that mean the same in two devices. -/
inductive TypeTwin (d d' : Device) : ValueType → ValueType → Prop where
  | empty : TypeTwin d d' .empty .empty
  | string : TypeTwin d d' .string .string
  | int32 : TypeTwin d d' .int32 .int32
  | float32 : TypeTwin d d' .float32 .float32
  | struct {t t' : TypeId} (decl : DeclTwin d d' t t') : TypeTwin d d' (.struct t) (.struct t')
  | variant {t t' : TypeId} (decl : DeclTwin d d' t t') : TypeTwin d d' (.variant t) (.variant t')
  | array {a a' : ValueType} (element : TypeTwin d d' a a') : TypeTwin d d' (.array a) (.array a')

/-- Declarations of the same name, over members that mean the same. -/
inductive DeclTwin (d d' : Device) : TypeId → TypeId → Prop where
  | mk {t t' : TypeId} {decl decl' : TypeDecl} (found : d.typeDecl? t = some decl)
      (found' : d'.typeDecl? t' = some decl') (name : decl'.qualifiedName = decl.qualifiedName)
      (fields : MembersTwin d d' decl.fieldTypes decl'.fieldTypes)
      (alternatives : MembersTwin d d' decl.alternativeTypes decl'.alternativeTypes) :
      DeclTwin d d' t t'

inductive MembersTwin (d d' : Device) :
    List (String × ValueType) → List (String × ValueType) → Prop where
  | nil : MembersTwin d d' [] []
  | cons {name : String} {a a' : ValueType} {rest rest' : List (String × ValueType)}
      (type : TypeTwin d d' a a')
      (others : MembersTwin d d' rest rest') :
      MembersTwin d d' ((name, a) :: rest) ((name, a') :: rest')

end

namespace TypeTwin

variable {d d' : Device} {a a' : ValueType}

theorem code_eq (h : TypeTwin d d' a a') : a'.code = a.code := by
  induction a generalizing a' with
  | array element ih =>
    cases h with
    | array inner => rw [ValueType.code, ValueType.code, ih inner]
  | _ =>
    cases h
    rfl

theorem isArray_eq (h : TypeTwin d d' a a') : a'.isArray = a.isArray := by
  cases h <;> rfl

theorem element (h : TypeTwin d d' a a') : TypeTwin d d' a.element a'.element := by
  cases h with
  | array inner => exact inner
  | empty => exact .empty
  | string => exact .string
  | int32 => exact .int32
  | float32 => exact .float32
  | struct decl => exact .struct decl
  | variant decl => exact .variant decl

theorem declared?_isSome (h : TypeTwin d d' a a') : a'.declared?.isSome = a.declared?.isSome := by
  cases h <;> rfl

/-- Twins as templates give twins, and both or neither as one element. -/
theorem ofTemplate? {declared : TypeCode} {type type' : ValueType} {single single' : Bool}
    (h : TypeTwin d d' a a') (hf : ValueType.ofTemplate? declared a = some (type, single))
    (hf' : ValueType.ofTemplate? declared a' = some (type', single')) :
    TypeTwin d d' type type' ∧ single' = single := by
  unfold ValueType.ofTemplate? at hf hf'
  rw [h.code_eq, h.isArray_eq] at hf'
  split at hf
  · next hcode =>
    rw [if_pos hcode] at hf'
    cases hf
    cases hf'
    exact ⟨h, rfl⟩
  · next hcode =>
    rw [if_neg hcode] at hf'
    split at hf
    · next helement =>
      rw [if_pos helement] at hf'
      cases hf
      cases hf'
      exact ⟨.array h, rfl⟩
    · cases hf

end TypeTwin

theorem MembersTwin.uncons {d d' : Device} {name name' : String} {a a' : ValueType}
    {rest rest' : List (String × ValueType)}
    (h : MembersTwin d d' ((name, a) :: rest) ((name', a') :: rest')) :
    name' = name ∧ TypeTwin d d' a a' ∧ MembersTwin d d' rest rest' := by
  cases h with
  | cons type others => exact ⟨rfl, type, others⟩

/-- The types that are looked up are those of the device. -/
def Within (types : Array TypeDecl) (d : Device) : Prop :=
  ∀ t decl, types[t.index]? = some decl → d.typeDecl? t = some decl

/-- The types that a parameter's value may refer to lie in the device. -/
theorem Holds.within {d : Device} {g : Ground} {p : Param} {own : Share} {below : Forest}
    (hd : Holds d g (.tree p own below)) :
    Within (g.types ++ below.types ++ own.types).toArray d := by
  intro t decl ht
  obtain ⟨rest, hr⟩ := hd.types
  rw [Forest.types_tree, ← List.append_assoc] at hr
  rw [List.getElem?_toArray] at ht
  rw [Device.typeDecl?, ← Array.getElem?_toList, ← hr,
    List.getElem?_append_left (List.getElem?_eq_some_iff.mp ht).1]
  exact ht

namespace Cpp

open Resolve
open Description (Value)

variable {d d' : Device} (ns : d'.ns = d.ns)

section Names

include ns

theorem declName_twin {t t' : TypeId} (h : DeclTwin d d' t t') :
    declName d' .outside t' = declName d .outside t := by
  obtain ⟨found, found', name, _, _⟩ := h
  simp only [declName, found, found', name, ns]

theorem typeName_twin {a a' : ValueType} (h : TypeTwin d d' a a') :
    typeName d' .outside a' = typeName d .outside a := by
  induction a generalizing a' with
  | array element ih =>
    cases h with
    | array inner => rw [typeName, typeName, ih inner]
  | struct t =>
    cases h with
    | struct decl => exact declName_twin ns decl
  | variant t =>
    cases h with
    | variant decl => exact declName_twin ns decl
  | _ =>
    cases h
    rfl

end Names

/-- How a value is written, and whether its type is written before it. -/
def spelled (d : Device) (v : Initializer) : Bool × String :=
  (needsType v, initializer d .outside v)

section Values

/-- What a value with no struct or variant in it comes to. -/
def literal : Value → Initializer
  | .string s => .string s
  | .int32 i => .int32 i
  | .float32 x => .float32 x
  | .strings items => .list (items.map .string)
  | .int32s items => .list (items.map .int32)
  | .float32s items => .list (items.map .float32)
  | _ => .list []

theorem value_literal {types : Array TypeDecl} {v : Value} (hv : isPlain v = true) {oid : String}
    {a : ValueType} {i : Initializer} (h : value types v oid a = .ok i) : i = literal v := by
  unfold value at h
  split at h
  case h_1 | h_2 | h_3 | h_4 | h_5 | h_6 =>
    cases h
    rfl
  case h_7 | h_8 | h_9 | h_10 => cases hv
  case h_11 => cases h

theorem initializers_map {α : Type} {f : α → Initializer} {text : α → String}
    (hf : ∀ a, initializer d .outside (f a) = text a) (items : List α) :
    initializers d .outside (items.map f) = items.map text := by
  induction items with
  | nil => rfl
  | cons a rest ih => rw [List.map_cons, initializers, hf, ih, List.map_cons]

/-- A literal is the same everywhere. -/
theorem spelled_literal (d d' : Device) (v : Value) :
    spelled d' (literal v) = spelled d (literal v) := by
  have hlist {α : Type} (f : α → Initializer) (text : α → String)
      (hf : ∀ (d : Device) a, initializer d .outside (f a) = text a) (items : List α) :
      spelled d' (.list (items.map f)) = spelled d (.list (items.map f)) := by
    simp only [spelled, initializer, initializers_map (hf d), initializers_map (hf d')]
  cases v with
  | strings items => exact hlist .string quote (fun _ _ => rfl) items
  | int32s items => exact hlist .int32 int (fun _ _ => rfl) items
  | float32s items => exact hlist .float32 float (fun _ _ => rfl) items
  | _ => rfl

theorem plain_twin {types types' : Array TypeDecl} {v : Value} (hv : isPlain v = true)
    {oid : String} {a a' : ValueType} {i i' : Initializer} (h : value types v oid a = .ok i)
    (h' : value types' v oid a' = .ok i') :
    spelled d' i' = spelled d i := by
  rw [value_literal hv h, value_literal hv h']
  exact spelled_literal d d' v

/-- Whether a field is given does not depend on its type. -/
theorem fieldValue_isSome (types : Array TypeDecl) (fields : List (String × Value))
    (name oid : String) (a : ValueType) :
    (fieldValue types fields name oid a).isSome = fields.any (·.1 == name) := by
  induction fields with
  | nil => rw [fieldValue, Option.isSome_none, List.any_nil]
  | cons e rest ih =>
    obtain ⟨key, v⟩ := e
    rw [fieldValue, List.any_cons]
    cases key == name with
    | true => rfl
    | false => exact ih

/-- Fields of twin structs are written alike, if each of their values is. -/
theorem collectFields_twin {valueOf valueOf' : Field → Option Valued}
    (hsome : ∀ f f' : Field, f'.name = f.name → (valueOf' f').isSome = (valueOf f).isSome)
    (hvalue : ∀ {f f' : Field} {i i' : Initializer}, f'.name = f.name →
      TypeTwin d d' f.type f'.type → valueOf f = some (.ok i) → valueOf' f' = some (.ok i') →
      spelled d' i' = spelled d i) :
    ∀ {fields fields' : List Field} {given given' : List (String × Initializer)},
      MembersTwin d d' (fields.map fun f => (f.name, f.type))
        (fields'.map fun f => (f.name, f.type)) →
      collectFields valueOf fields = .ok given → collectFields valueOf' fields' = .ok given' →
      designators d' .outside given' = designators d .outside given
  | [], [], _, _, _, h, h' => by
    cases h
    cases h'
    rfl
  | f :: rest, f' :: rest', given, given', hm, h, h' => by
    obtain ⟨hname, htype, hothers⟩ := hm.uncons
    have hboth := hsome f f' hname
    unfold collectFields at h h'
    cases hf : valueOf f with
    | none =>
      cases hf' : valueOf' f' with
      | none =>
        rw [hf] at h
        rw [hf'] at h'
        exact collectFields_twin hsome hvalue hothers h h'
      | some _ => simp [hf, hf'] at hboth
    | some v =>
      cases hf' : valueOf' f' with
      | none => simp [hf, hf'] at hboth
      | some v' =>
        simp only [hf, except_bind_ok, except_pure_ok] at h
        simp only [hf', except_bind_ok, except_pure_ok] at h'
        obtain ⟨i, rfl, others, hc, rfl⟩ := h
        obtain ⟨i', rfl, others', hc', rfl⟩ := h'
        have hspelled : initializer d' .outside i' = initializer d .outside i :=
          congrArg Prod.snd (hvalue hname htype hf hf')
        rw [designators, designators, hname, hspelled,
          collectFields_twin hsome hvalue hothers hc hc']

/-- Twin variants have the alternative of a name at the same place. -/
theorem findAlternative_twin {oid name : String} {alternatives alternatives' : List Alternative}
    {index index' : Nat} {a a' : Alternative}
    (hm : MembersTwin d d' (alternatives.map fun a => (a.name, a.type))
      (alternatives'.map fun a => (a.name, a.type)))
    (h : findAlternative oid name alternatives = .ok (index, a))
    (h' : findAlternative oid name alternatives' = .ok (index', a')) :
    index' = index ∧ a'.name = a.name ∧ TypeTwin d d' a.type a'.type := by
  have hfound : ∀ (alternatives alternatives' : List Alternative) (n : Nat),
      MembersTwin d d' (alternatives.map fun a => (a.name, a.type))
        (alternatives'.map fun a => (a.name, a.type)) →
      (alternatives.zipIdx n).find? (·.1.name == name) = some (a, index) →
      (alternatives'.zipIdx n).find? (·.1.name == name) = some (a', index') →
      index' = index ∧ a'.name = a.name ∧ TypeTwin d d' a.type a'.type := by
    intro alternatives
    induction alternatives with
    | nil =>
      intro _ _ _ h _
      cases h
    | cons b rest ih =>
      intro alternatives' n hm h h'
      cases alternatives' with
      | nil => cases h'
      | cons b' rest' =>
        obtain ⟨hname, htype, hothers⟩ := hm.uncons
        simp only [List.zipIdx_cons, List.find?_cons] at h h'
        rw [hname] at h'
        cases hb : b.name == name with
        | true =>
          simp only [hb] at h h'
          cases h
          cases h'
          exact ⟨rfl, hname, htype⟩
        | false =>
          simp only [hb] at h h'
          exact ih rest' (n + 1) hothers h h'
  unfold findAlternative at h h'
  split at h
  · next hf =>
    split at h'
    · next hf' =>
      cases h
      cases h'
      exact hfound alternatives alternatives' 0 hm hf hf'
    · cases h'
  · cases h

variable {types types' : Array TypeDecl}

/-- The members of twins as they are looked up. -/
theorem declaration_twin (within : Within types d) (within' : Within types' d') {t t' : TypeId}
    {oid oid' : String} {decl decl' : TypeDecl} (htwin : DeclTwin d d' t t')
    (h : declaration types oid t = .ok decl) (h' : declaration types' oid' t' = .ok decl') :
    MembersTwin d d' decl.fieldTypes decl'.fieldTypes ∧
      MembersTwin d d' decl.alternativeTypes decl'.alternativeTypes := by
  obtain ⟨found, found', _, fields, alternatives⟩ := htwin
  cases (within _ _ (declaration_ok h)).symm.trans found
  cases (within' _ _ (declaration_ok h')).symm.trans found'
  exact ⟨fields, alternatives⟩

theorem structValue_twin (within : Within types d) (within' : Within types' d')
    {fields : List (String × Value)} {oid : String} {t t' : TypeId} {i i' : Initializer}
    (htwin : DeclTwin d d' t t')
    (hfields : ∀ {name oid : String} {a a' : ValueType} {i i' : Initializer}, TypeTwin d d' a a' →
      fieldValue types fields name oid a = some (.ok i) →
      fieldValue types' fields name oid a' = some (.ok i') → spelled d' i' = spelled d i)
    (h : structValue types (fields.map Prod.fst) (fieldValue types fields) oid t = .ok i)
    (h' : structValue types' (fields.map Prod.fst) (fieldValue types' fields) oid t' = .ok i') :
    spelled d' i' = spelled d i := by
  simp only [structValue, except_bind_ok, except_pure_ok] at h h'
  obtain ⟨decl, hd, _, _, given, hg, rfl⟩ := h
  obtain ⟨decl', hd', _, _, given', hg', rfl⟩ := h'
  have hmembers := (declaration_twin within within' htwin hd hd').1
  have hgiven : designators d' .outside given' = designators d .outside given := by
    refine collectFields_twin ?_ ?_ hmembers hg hg'
    · intro f f' hname
      rw [fieldValue_isSome, fieldValue_isSome, hname]
    · intro f f' i i' hname htype hi hi'
      rw [hname] at hi'
      exact hfields htype hi hi'
  rw [spelled, spelled, initializer, initializer, hgiven]
  rfl

include ns in
/-- Twin variants that hold values which are written alike. -/
theorem variant_twin (index : Nat) {t t' : TypeId} {a a' : Alternative} {i i' : Initializer}
    (hdecl : DeclTwin d d' t t') (htype : TypeTwin d d' a.type a'.type)
    (hi : spelled d' i' = spelled d i) :
    spelled d' (.variant t' index a'.name a'.type i') =
      spelled d (.variant t index a.name a.type i) := by
  obtain ⟨hneeds, htext⟩ := Prod.mk.inj hi
  rw [spelled, spelled, initializer, initializer, declName_twin ns hdecl, typeName_twin ns htype,
    hneeds, htext]
  rfl

mutual

/-- A value is written alike at twin types. -/
theorem value_twin (ns : d'.ns = d.ns) (within : Within types d) (within' : Within types' d') :
    ∀ (v : Value) {oid : String} {a a' : ValueType} {i i' : Initializer}, TypeTwin d d' a a' →
      value types v oid a = .ok i → value types' v oid a' = .ok i' → spelled d' i' = spelled d i
  | .string _, _, _, _, _, _, _, h, h' | .int32 _, _, _, _, _, _, _, h, h' | .float32 _, _, _, _,
    _, _, _, h, h'
  | .strings _, _, _, _, _, _, _, h, h' | .int32s _, _, _, _, _, _, _, h, h'
  | .float32s _, _, _, _, _, _, _, h, h' => plain_twin rfl h h'
  | .struct fields, _, _, _, _, _, htwin, h, h' => by
    obtain ⟨t, rfl, hstruct⟩ := struct_ok h
    obtain ⟨t', rfl, hstruct'⟩ := struct_ok h'
    cases htwin with
    | struct decl =>
      exact structValue_twin within within' decl (fieldValue_twin ns within within' fields)
        hstruct hstruct'
  | .structs items, _, _, _, _, _, htwin, h, h' => by
    obtain ⟨t, is, rfl, his, rfl⟩ := structs_ok h
    obtain ⟨t', is', rfl, his', rfl⟩ := structs_ok h'
    cases htwin with
    | array element =>
      cases element with
      | struct decl =>
        rw [spelled, spelled, initializer, initializer,
          structItems_twin ns within within' items decl his his']
        rfl
  | .variant name v, _, _, _, _, _, htwin, h, h' => by
    obtain ⟨t, decl, index, a, j, rfl, hd, ha, hj, rfl⟩ := variant_ok h
    obtain ⟨t', decl', index', a', j', rfl, hd', ha', hj', rfl⟩ := variant_ok h'
    cases htwin with
    | variant hdecl =>
      obtain ⟨rfl, hname, htype⟩ :=
        findAlternative_twin (declaration_twin within within' hdecl hd hd').2 ha ha'
      rw [hname] at hj'
      exact variant_twin ns _ hdecl htype (value_twin ns within within' v htype hj hj')
  | .variants items, _, _, _, _, _, htwin, h, h' => by
    obtain ⟨t, is, rfl, his, rfl⟩ := variants_ok h
    obtain ⟨t', is', rfl, his', rfl⟩ := variants_ok h'
    cases htwin with
    | array element =>
      cases element with
      | variant decl =>
        rw [spelled, spelled, initializer, initializer,
          variantItems_twin ns within within' items decl his his']
        rfl

theorem fieldValue_twin (ns : d'.ns = d.ns) (within : Within types d) (within' : Within types' d') :
    ∀ (fields : List (String × Value)) {name oid : String} {a a' : ValueType} {i i' : Initializer},
      TypeTwin d d' a a' → fieldValue types fields name oid a = some (.ok i) →
      fieldValue types' fields name oid a' = some (.ok i') → spelled d' i' = spelled d i
  | [], _, _, _, _, _, _, _, h, _ => by simp [fieldValue] at h
  | (key, v) :: rest, name, _, _, _, _, _, htwin, h, h' => by
    unfold fieldValue at h h'
    cases hkey : key == name with
    | true =>
      simp only [hkey, if_true] at h h'
      exact value_twin ns within within' v htwin (Option.some.inj h) (Option.some.inj h')
    | false =>
      simp only [hkey, Bool.false_eq_true, if_false] at h h'
      exact fieldValue_twin ns within within' rest htwin h h'

theorem structItems_twin (ns : d'.ns = d.ns) (within : Within types d)
    (within' : Within types' d') :
    ∀ (items : List (List (String × Value))) {oid : String} {k : Nat} {t t' : TypeId}
      {is is' : List Initializer},
      DeclTwin d d' t t' → structItems types items oid k t = .ok is →
        structItems types' items oid k t' = .ok is' →
      initializers d' .outside is' = initializers d .outside is
  | [], _, _, _, _, _, _, _, h, h' => by
    simp only [structItems, Except.ok.injEq] at h h'
    subst h h'
    rfl
  | fields :: rest, _, _, _, _, _, _, htwin, h, h' => by
    simp only [structItems, except_bind_ok, except_pure_ok] at h h'
    obtain ⟨i, hi, is, his, rfl⟩ := h
    obtain ⟨i', hi', is', his', rfl⟩ := h'
    have hfirst :=
      structValue_twin within within' htwin (fieldValue_twin ns within within' fields) hi hi'
    rw [initializers, initializers, structItems_twin ns within within' rest htwin his his']
    exact congrArg (· :: _) (congrArg Prod.snd hfirst)

theorem variantItems_twin (ns : d'.ns = d.ns) (within : Within types d)
    (within' : Within types' d') :
    ∀ (items : List (String × Value)) {oid : String} {k : Nat} {t t' : TypeId}
      {is is' : List Initializer},
      DeclTwin d d' t t' → variantItems types items oid k t = .ok is →
        variantItems types' items oid k t' = .ok is' →
      initializers d' .outside is' = initializers d .outside is
  | [], _, _, _, _, _, _, _, h, h' => by
    simp only [variantItems, Except.ok.injEq] at h h'
    subst h h'
    rfl
  | (name, v) :: rest, _, _, _, _, _, _, htwin, h, h' => by
    simp only [variantItems, except_bind_ok, except_pure_ok] at h h'
    obtain ⟨decl, hd, ⟨index, a⟩, ha, i, hi, is, his, rfl⟩ := h
    obtain ⟨decl', hd', ⟨index', a'⟩, ha', i', hi', is', his', rfl⟩ := h'
    obtain ⟨rfl, hname, htype⟩ :=
      findAlternative_twin (declaration_twin within within' htwin hd hd').2 ha ha'
    simp only [hname] at hi'
    have hfirst := variant_twin ns index' htwin htype (value_twin ns within within' v htype hi hi')
    rw [initializers, initializers, variantItems_twin ns within within' rest htwin his his']
    exact congrArg (· :: _) (congrArg Prod.snd hfirst)

end

end Values

end Cpp

end DeviceModel
