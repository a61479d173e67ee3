import DeviceModel.Proofs.Alignment

namespace DeviceModel

open Number

theorem Text.isLower_toUpper {c : Char} (h : isIdentifierStart c = true) :
    c.toUpper.isLower = false := by
  have hall : ∀ n < 128, (Char.ofNat n).toUpper.isLower = false := by decide
  have hc := hall c.toNat (isIdentifierStart_ascii h)
  rwa [Char.ofNat_toNat] at hc

mutual

/-- The floats of a value, at any depth. -/
def Initializer.singles : Initializer → List Single
  | .float32 x => [x]
  | .list items => itemSingles items
  | .struct fields => fieldSingles fields
  | .variant _ _ _ _ v => v.singles
  | _ => []

def itemSingles : List Initializer → List Single
  | [] => []
  | v :: rest => v.singles ++ itemSingles rest

def fieldSingles : List (String × Initializer) → List Single
  | [] => []
  | (_, v) :: rest => v.singles ++ fieldSingles rest

end

theorem itemSingles_eq (items : List Initializer) :
    itemSingles items = items.flatMap Initializer.singles := by
  induction items with
  | nil => rfl
  | cons v rest ih => rw [itemSingles, ih, List.flatMap_cons]

theorem fieldSingles_eq (fields : List (String × Initializer)) :
    fieldSingles fields = fields.flatMap fun e => e.2.singles := by
  induction fields with
  | nil => rfl
  | cons e rest ih => rw [fieldSingles, ih, List.flatMap_cons]

/-- Every float in the value is a number. -/
def Initializer.NaNFree (i : Initializer) : Prop := ∀ x ∈ i.singles, x.isNaN = false

theorem Initializer.NaNFree.items {items : List Initializer}
    (h : (Initializer.list items).NaNFree) :
    ∀ v ∈ items, v.NaNFree := by
  intro v hv x hx
  refine h x ?_
  rw [Initializer.singles, itemSingles_eq]
  exact List.mem_flatMap.mpr ⟨v, hv, hx⟩

theorem Initializer.NaNFree.fields {fields : List (String × Initializer)}
    (h : (Initializer.struct fields).NaNFree) :
    ∀ e ∈ fields, e.2.NaNFree := by
  intro e he x hx
  refine h x ?_
  rw [Initializer.singles, fieldSingles_eq]
  exact List.mem_flatMap.mpr ⟨e, he, hx⟩

theorem HasType.ne_empty {d : Device} {i : Initializer} {type : ValueType} (h : HasType d i type) :
    type ≠ .empty := by
  cases h <;> simp

namespace Cpp

section Values

variable {d : Device} {position : Position}

/-- What all names of declared types start with. -/
def front (d : Device) : Position → String
  | .inside => ""
  | .outside => d.ns ++ "::"

theorem front_colon : ∀ c ∈ (back (front d position)).head?, c = ':' := by
  cases position <;> simp [front, back]

theorem declName_eq {t : TypeId} {decl : TypeDecl} (found : d.typeDecl? t = some decl) :
    declName d position t = front d position ++ Text.join "::" (decl.scope ++ [decl.name]) := by
  rw [declName, found]
  cases position <;> simp [front, TypeDecl.qualifiedName]

/-- Names are identifiers, no name of a type starts like the last word of a scalar, and what is an
alternative has a type with a name. -/
structure Legible (d : Device) : Prop where
  fields : ∀ t decl declared, d.typeDecl? t = some decl → decl.shape = .struct declared →
    ∀ f ∈ declared, Text.isIdentifier f.name = true
  alternatives : ∀ t decl alternatives, d.typeDecl? t = some decl →
    decl.shape = .variant alternatives → ∀ a ∈ alternatives, a.type.Flat ∧ Meant d a.type
  names : ∀ t decl, d.typeDecl? t = some decl → ∀ s ∈ decl.scope ++ [decl.name],
    Text.isIdentifier s = true
  capital : ∀ t decl, d.typeDecl? t = some decl → ∀ c ∈ decl.name.toList.head?, c ∉ ['s', 'i', 'f']

theorem Legible.declName (legible : Legible d) {t : TypeId} {decl : TypeDecl}
    (found : d.typeDecl? t = some decl) :
    TypeText (front d position) (declName d position t) := by
  rw [declName_eq found]
  exact .declared (legible.names t decl found) (legible.capital t decl found)

theorem Legible.typeName (legible : Legible d) {type : ValueType} (given : type ≠ .empty)
    (flat : type.Flat) (meant : Meant d type) :
    TypeText (front d position) (typeName d position type) := by
  induction type with
  | empty => exact absurd rfl given
  | string => exact .scalar (e := ("std::", "string")) (by simp [scalars])
  | int32 => exact .scalar (e := ("", "int32_t")) (by simp [scalars])
  | float32 => exact .scalar (e := ("", "float")) (by simp [scalars])
  | struct t =>
    obtain ⟨decl, _, found, _⟩ := meant
    exact legible.declName found
  | variant t =>
    obtain ⟨decl, _, found, _⟩ := meant
    exact legible.declName found
  | array element ih =>
    obtain ⟨hplain, helement⟩ := flat element rfl
    refine .container (ih helement ?_ meant)
    rintro inner rfl
    cases hplain

def designator (d : Device) (position : Position) (e : String × Initializer) : String :=
  "." ++ e.1 ++ " = " ++ initializer d position e.2

theorem initializers_eq (items : List Initializer) :
    initializers d position items = items.map (initializer d position) := by
  induction items with
  | nil => rfl
  | cons v rest ih => rw [initializers, ih, List.map_cons]

theorem designators_eq (fields : List (String × Initializer)) :
    designators d position fields = fields.map (designator d position) := by
  induction fields with
  | nil => rfl
  | cons e rest ih => rw [designators, ih, List.map_cons, designator]

theorem needsType_eq {i j : Initializer} {type : ValueType} (hi : HasType d i type)
    (hj : HasType d j type) :
    needsType i = needsType j := by
  cases hi <;> cases hj <;> rfl

theorem int_ne_empty (i : Int32) : int i ≠ "" := by
  intro h
  have hlist := congrArg String.toList h
  rw [int, Text.toList_int] at hlist
  split at hlist <;> simp at hlist

theorem float_ne_empty {x : Single} (hx : x.isNaN = false) : float x ≠ "" := by
  intro h
  obtain ⟨body, hbody, _⟩ := float_body hx
  rw [h] at hbody
  simp at hbody

theorem declared_field {fields : List (String × Initializer)} {declared : List Field}
    (order : (fields.map Prod.fst).Sublist (declared.map Field.name)) {e : String × Initializer}
    (he : e ∈ fields) :
    ∃ f ∈ declared, f.name = e.1 :=
  List.mem_map.mp (order.subset (List.mem_map_of_mem he))

theorem Legible.field (legible : Legible d) {t : TypeId} {decl : TypeDecl}
    {fields : List (String × Initializer)} {declared : List Field}
    (found : d.typeDecl? t = some decl) (shape : decl.shape = .struct declared)
    (order : (fields.map Prod.fst).Sublist (declared.map Field.name)) {e : String × Initializer}
    (he : e ∈ fields) :
    Text.isIdentifier e.1 = true := by
  obtain ⟨f, hf, hname⟩ := declared_field order he
  exact hname ▸ legible.fields t decl declared found shape f hf

/-- What is written for a value, by itself or behind the name of its type. -/
theorem initializer_behind (legible : Legible d) {i : Initializer} {type : ValueType}
    (hi : HasType d i type) :
    ∀ {ahead : String}, i.NaNFree → ahead = "" ∨ needsType i = true ∧
      TypeText (front d position) ahead →
      Spelled (front d position) .value (ahead ++ initializer d position i) := by
  induction hi with
  | string =>
    rintro ahead _ (rfl | ⟨hneeds, _⟩)
    · exact .quoted
    · cases hneeds
  | int32 =>
    rintro ahead _ (rfl | ⟨hneeds, _⟩)
    · rw [String.empty_append]
      exact .number (int_ne_empty _) (int_chars _)
    · cases hneeds
  | @float32 x =>
    rintro ahead hfree (rfl | ⟨hneeds, _⟩)
    · have hx := hfree x (by simp [Initializer.singles])
      rw [String.empty_append]
      exact .number (float_ne_empty hx) (float_chars hx)
    · cases hneeds
  | @list items element each ih =>
    intro ahead hfree hahead
    rw [initializer, initializers_eq]
    refine .block (hahead.imp_right And.right) ?_
    intro s hs
    obtain ⟨v, hv, rfl⟩ := List.mem_map.mp hs
    have hvalue := ih v hv (hfree.items v hv) (.inl rfl)
    rw [String.empty_append] at hvalue
    exact .alone hvalue
  | @struct fields t decl declared found shape order _ each ih =>
    intro ahead hfree hahead
    rw [initializer, designators_eq]
    refine .block (hahead.imp_right And.right) ?_
    intro s hs
    obtain ⟨e, he, rfl⟩ := List.mem_map.mp hs
    obtain ⟨f, hf, hname⟩ := declared_field order he
    have hvalue := ih e he f hf hname (hfree.fields e he) (.inl rfl)
    rw [String.empty_append] at hvalue
    exact .field (legible.field found shape order he) hvalue
  | @variant t index alternative type i decl alternatives found shape chosen inner ih =>
    rintro ahead hfree (rfl | ⟨hneeds, _⟩)
    · rw [String.empty_append, initializer]
      refine .block (.inr (legible.declName found)) ?_
      intro s hs
      simp only [List.mem_cons, List.not_mem_nil, or_false] at hs
      rcases hs with rfl | rfl
      · exact .index
      · refine .alone (ih hfree ?_)
        split
        · next hneeds =>
          obtain ⟨flat, meant⟩ :=
            legible.alternatives t decl alternatives found shape _ (List.mem_of_getElem? chosen)
          exact .inr ⟨hneeds, legible.typeName inner.ne_empty flat meant⟩
        · exact .inl rfl
    · cases hneeds

theorem initializer_spelled (legible : Legible d) {i : Initializer} {type : ValueType}
    (hi : HasType d i type) (hfree : i.NaNFree) :
    Spelled (front d position) .value (initializer d position i) := by
  have hvalue : Spelled (front d position) .value ("" ++ initializer d position i) :=
    initializer_behind legible hi hfree (.inl rfl)
  rwa [String.empty_append] at hvalue

theorem item_spelled (position : Position) (legible : Legible d) {items : List Initializer}
    {element : ValueType} (hitems : HasType d (.list items) (.array element))
    (hfree : (Initializer.list items).NaNFree) :
    ∀ v ∈ items, Spelled (front d position) .item (initializer d position v) := by
  intro v hv
  cases hitems with
  | list each => exact .alone (initializer_spelled legible (each v hv) (hfree.items v hv))

theorem designator_spelled (position : Position) (legible : Legible d)
    {fields : List (String × Initializer)} {t : TypeId}
    (hfields : HasType d (.struct fields) (.struct t))
    (hfree : (Initializer.struct fields).NaNFree) :
    ∀ e ∈ fields, Spelled (front d position) .item (designator d position e) := by
  intro e he
  cases hfields with
  | struct found shape order _ each =>
    obtain ⟨f, hf, hname⟩ := declared_field order he
    exact .field (legible.field found shape order he)
      (initializer_spelled legible (each e he f hf hname) (hfree.fields e he))

theorem designator_inj {e e' : String × Initializer} (hname : Text.isIdentifier e.1 = true)
    (hname' : Text.isIdentifier e'.1 = true)
    (h : designator d position e = designator d position e') :
    e.1 = e'.1 ∧ initializer d position e.2 = initializer d position e'.2 := by
  have hlists : e.1.toList ++ (" = ".toList ++ (initializer d position e.2).toList) =
      e'.1.toList ++ (" = ".toList ++ (initializer d position e'.2).toList) := by
    simpa [designator, ← String.toList_inj] using h
  obtain ⟨hsame, hrest⟩ := Text.run_append_inj
    (List.all_eq_true.mp (Text.isIdentifier_iff.mp hname).1)
    (List.all_eq_true.mp (Text.isIdentifier_iff.mp hname').1) (by simp; decide)
      (by simp; decide) hlists
  exact ⟨String.toList_inj.mp hsame, String.toList_inj.mp (List.append_cancel_left hrest)⟩

/-- What is written in front of an alternative's value. -/
def typeAhead (d : Device) (position : Position) (type : ValueType) (i : Initializer) : String :=
  if needsType i then typeName d position type else ""

theorem variant_inj {t : TypeId} {index index' : Nat} {alternative alternative' : String}
    {type type' : ValueType} {i i' : Initializer}
    (h : initializer d position (.variant t index alternative type i) =
      initializer d position (.variant t index' alternative' type' i')) :
    index = index' ∧ typeAhead d position type i ++ initializer d position i =
      typeAhead d position type' i' ++ initializer d position i' := by
  have hlists : (toString index).toList ++
        (">, ".toList ++
          ((typeAhead d position type i ++ initializer d position i).toList ++ ['\x7d'])) =
      (toString index').toList ++
        (">, ".toList ++
            ((typeAhead d position type' i' ++ initializer d position i').toList ++ ['\x7d'])) := by
    simpa [initializer, typeAhead, braced, Text.join, ← String.toList_inj] using h
  obtain ⟨hindex, hrest⟩ :=
    Text.run_append_inj toString_digits toString_digits (by simp) (by simp) hlists
  have hdigits : Nat.toDigits 10 index = Nat.toDigits 10 index' := by
    simpa [Nat.toString_eq_ofList_toDigits] using hindex
  exact ⟨Text.toDigits_injective hdigits,
    String.toList_inj.mp (List.append_cancel_right (List.append_cancel_left hrest))⟩

/-- Two values of one type are told apart by their texts. The proof goes along the first value; the
second one has the same shape, since its type is the same. -/
theorem initializer_injective (legible : Legible d) {i : Initializer} {type : ValueType}
    (hi : HasType d i type) :
    ∀ {j : Initializer}, HasType d j type → i.NaNFree → j.NaNFree →
      initializer d position i = initializer d position j →
      i = j := by
  induction hi with
  | @string s =>
    intro j hj _ _ h
    cases hj with
    | @string s' =>
      have hquote : quote s = quote s' := h
      exact congrArg _ (quote_append_inj (r := []) (t := []) (by rw [hquote])).1
  | int32 =>
    intro j hj _ _ h
    cases hj
    exact congrArg _ (int_injective h)
  | @float32 x =>
    intro j hj hfree hfree' h
    cases hj with
    | @float32 y =>
      have hx := hfree x (by simp [Initializer.singles])
      have hy := hfree' y (by simp [Initializer.singles])
      exact congrArg _ (float_injective hx hy h)
  | @list items element each ih =>
    intro j hj hfree hfree' h
    have hitem := item_spelled position legible (.list each) hfree
    cases hj with
    | @list items' _ each' =>
      have hitem' := item_spelled position legible (.list each') hfree'
      rw [initializer, initializer, initializers_eq, initializers_eq] at h
      refine congrArg _
        (braced_inj (r := []) (t := [])
        (fun v hv w hw => (hitem v hv).aligned front_colon (hitem' w hw))
        ?_ (fun v hv => (hitem v hv).ends) (fun w hw => (hitem' w hw).ends) (by rw [h])).1
      intro v hv w hw
      exact ih v hv (each' w hw) (hfree.items v hv) (hfree'.items w hw)
  | @struct fields t decl declared found shape order distinct each ih =>
    intro j hj hfree hfree' h
    have hfield :=
      designator_spelled position legible (.struct found shape order distinct each) hfree
    cases hj with
    | @struct fields' _ decl' declared' found' shape' order' distinct' each' =>
      have hfield' :=
        designator_spelled position legible (.struct found' shape' order' distinct' each') hfree'
      cases found.symm.trans found'
      cases shape.symm.trans shape'
      rw [initializer, initializer, designators_eq, designators_eq] at h
      refine congrArg _
        (braced_inj (r := []) (t := [])
        (fun e he e' he' => (hfield e he).aligned front_colon (hfield' e' he'))
        ?_ (fun e he => (hfield e he).ends) (fun e' he' => (hfield' e' he').ends) (by rw [h])).1
      intro e he e' he' htext
      obtain ⟨hsame, htext⟩ :=
        designator_inj (legible.field found shape order he)
        (legible.field found shape order' he') htext
      obtain ⟨f, hf, hname⟩ := declared_field order he
      exact Prod.ext hsame
        (ih e he f hf hname (each' e' he' f hf (hname.trans hsame)) (hfree.fields e he)
          (hfree'.fields e' he') htext)
  | @variant t index alternative type i decl alternatives found shape chosen inner ih =>
    intro j hj hfree hfree' h
    cases hj with
    | @variant _ index' alternative' type' i' decl' alternatives' found' shape' chosen' inner' =>
      cases found.symm.trans found'
      cases shape.symm.trans shape'
      -- the index says which alternative it is, and so which type is written ahead
      obtain ⟨rfl, htext⟩ := variant_inj h
      cases chosen.symm.trans chosen'
      rw [typeAhead, typeAhead, needsType_eq inner inner'] at htext
      rw [ih inner' hfree hfree' ((String.append_right_inj _).mp htext)]

end Values

open Resolve

theorem resolved_legible {source : Source} {importRoot : Path} {description : Description.Device}
    {d : Device} {shared : List Constraint} {params commands : Forest}
    (h : Resolved source importRoot description d shared params commands)
    (hoids : ∀ p ∈ d.nodes, Text.isIdentifier p.oid = true) : Legible d where
  fields := by
    intro t decl declared ht hshape f hf
    obtain ⟨p, hp, rfl⟩ := h.struct_fields ht hshape
    obtain ⟨q, hq, rfl⟩ := List.mem_map.mp hf
    exact hoids q (h.mem_children hp hq).1
  alternatives := by
    intro t decl alternatives ht hshape a ha
    refine ⟨?_, h.lawful.alternatives t decl alternatives ht hshape a ha⟩
    obtain ⟨p, hp, rfl⟩ := h.variant_alternatives ht hshape
    obtain ⟨q, hq, rfl⟩ := List.mem_map.mp ha
    exact (h.typed (h.mem_children hp hq).1).flat
  names := by
    intro t decl ht s hs
    obtain ⟨p, hp, hmade⟩ := type_spelled h (Array.mem_of_getElem? ht) s hs
    exact Text.isIdentifier_spellings (hoids p hp) hmade
  capital := by
    intro t decl ht
    obtain ⟨p, hp, _, _, hname⟩ :=
      type_owner h (Array.mem_toList_iff.mpr (Array.mem_of_getElem? ht))
    obtain ⟨c, rest, _, hstart, _, htext⟩ := Text.toList_capitalize (hoids p (h.mem_nodes.mpr hp))
    have hhead : decl.name.toList.head? = some c.toUpper := by
      simp only [typeNames, elementName, List.mem_append] at hname
      rcases hname with hname | hname
      · split at hname
        · split at hname <;> simp_all
        · cases hname
      · split at hname
        · cases hname
        · simp_all
    have hupper := Text.isLower_toUpper hstart
    rw [hhead]
    rintro _ ⟨⟩ hsmall
    simp only [List.mem_cons, List.not_mem_nil, or_false] at hsmall
    rcases hsmall with hc | hc | hc <;> rw [hc] at hupper <;> cases hupper

/-- Two values of one type, without a NaN in them, are written alike only if they are the same. -/
theorem resolved_initializer_eq_iff {ns : String} {description : Description.Device}
    {importRoot : Path} {source : Source} {d : Device}
    (h : (resolveDevice ns description importRoot source).result = .ok d)
    (hoids : ∀ p ∈ d.nodes, Text.isIdentifier p.oid = true) {position : Position} {type : ValueType}
    {i j : Initializer} (hi : HasType d i type) (hj : HasType d j type) (hi' : i.NaNFree)
    (hj' : j.NaNFree) :
    initializer d position i = initializer d position j ↔ i = j := by
  obtain ⟨shared, params, commands, hr⟩ := resolveDevice_resolved h
  constructor
  · exact initializer_injective (resolved_legible hr hoids) hi hj hi' hj'
  · rintro rfl
    rfl

open Description (Declaration) in
/-- A struct with a float, a string and a list of variants, and another one like it that leaves out
the string. -/
def signals : Description.Device :=
  .small
    [("near", ⟨{ Declaration.ofType "STRUCT" with
        value := some (.struct [("gain", .float32 ⟨0x3f000000⟩), ("label", .string "a\", b"),
          ("marks", .variants [("at", .int32 3)])]) },
      [("gain", ⟨.ofType "FLOAT32", []⟩), ("label", ⟨.ofType "STRING", []⟩),
        ("marks",
          ⟨.ofType "STRUCT_VARIANT_ARRAY",
          [("at", ⟨.ofType "INT32", []⟩), ("named", ⟨.ofType "STRING", []⟩)]⟩)]⟩),
      ("far", ⟨{ Declaration.ofType "STRUCT" with
        template := some "near", value :=
          some (.struct [("gain", .float32 ⟨1⟩), ("marks", .variants [])]) }, []⟩)]
    []

/-- The type and text of a parameter's value that is free of NaNs. -/
def numberedValue? (d : Device) (id : ParamId) : Option (ValueType × String) := do
  let p ← d.param? id
  let i ← p.value
  if i.singles.any Single.isNaN then none else some (p.type, initializer d .outside i)

theorem numberedValue?_eq_some {d : Device} {id : ParamId} {type : ValueType} {text : String}
    (h : numberedValue? d id = some (type, text)) : ∃ p ∈ d.nodes, p.type = type ∧
      ∃ i, p.value = some i ∧ initializer d .outside i = text ∧ i.NaNFree := by
  obtain ⟨p, hp, hvalue⟩ := Option.bind_eq_some_iff.mp h
  obtain ⟨i, hi, hnumbers⟩ := Option.bind_eq_some_iff.mp hvalue
  split at hnumbers
  · cases hnumbers
  · rename_i hfree
    cases hnumbers
    exact ⟨p, Array.mem_of_getElem? hp, rfl, i, hi, rfl, by simpa [Initializer.NaNFree] using hfree⟩

/-- The namespace looks like the end of a list. -/
theorem signals_initializer_eq_iff :
    ∃ d type i j, (resolveDevice "\x7d" signals ⟨"params"⟩ (Documents.source {})).result = .ok d ∧
      (∀ p ∈ d.nodes, Text.isIdentifier p.oid = true) ∧ d.ns = "\x7d" ∧
      HasType d i type ∧ HasType d j type ∧ i.NaNFree ∧ j.NaNFree ∧
      initializer d .outside i =
        "\x7b.gain = 0.5f, .label = \"a\\\", b\", " ++
          ".marks = \x7b\x7d::Near::Marks_elem\x7bstd::in_place_index<0>, 3\x7d\x7d\x7d" ∧
      initializer d .outside j = "\x7b.gain = 1e-45f, .marks = \x7b\x7d\x7d" ∧
      (initializer d .outside i = initializer d .outside j ↔ i = j) := by
  have hok :
      ((resolveDevice "\x7d" signals ⟨"params"⟩ (Documents.source {})).result.toOption.map fun d =>
        (d.ns == "\x7d" && d.nodes.toList.all fun p => Text.isIdentifier p.oid,
          numberedValue? d ⟨0⟩, numberedValue? d ⟨6⟩)) =
      some (true,
        some (.struct ⟨2⟩,
          "\x7b.gain = 0.5f, .label = \"a\\\", b\", " ++
            ".marks = \x7b\x7d::Near::Marks_elem\x7bstd::in_place_index<0>, 3\x7d\x7d\x7d"),
        some (.struct ⟨2⟩, "\x7b.gain = 1e-45f, .marks = \x7b\x7d\x7d")) := by
    decide +kernel
  obtain ⟨d, hd, hwritten⟩ := ok_of_toOption hok
  simp only [Prod.mk.injEq, Bool.and_eq_true, beq_iff_eq, List.all_eq_true,
    Array.mem_toList_iff] at hwritten
  obtain ⟨⟨hns, hoids⟩, hnear, hfar⟩ := hwritten
  obtain ⟨shared, params, commands, hr⟩ := resolveDevice_resolved hd
  obtain ⟨p, hp, htype, i, hi, htext, hfree⟩ := numberedValue?_eq_some hnear
  obtain ⟨q, hq, htype', j, hj, htext', hfree'⟩ := numberedValue?_eq_some hfar
  have hi := htype ▸ hr.wellValued hp i hi
  have hj := htype' ▸ hr.wellValued hq j hj
  exact ⟨d, _, i, j, hd, hoids, hns, hi, hj, hfree, hfree', htext, htext',
    resolved_initializer_eq_iff hd hoids hi hj hfree hfree'⟩

end Cpp

end DeviceModel
