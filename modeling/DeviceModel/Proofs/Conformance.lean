import DeviceModel.Proofs.Initializers

namespace DeviceModel

open Description (Value)

/-- The value is one of the type, as it is written. -/
inductive Conforms (d : Device) : Value → ValueType → Prop where
  | string {s : String} : Conforms d (.string s) .string
  | int32 {i : Int32} : Conforms d (.int32 i) .int32
  | float32 {x : Number.Single} : Conforms d (.float32 x) .float32
  | strings {items : List String} : Conforms d (.strings items) (.array .string)
  | int32s {items : List Int32} : Conforms d (.int32s items) (.array .int32)
  | float32s {items : List Number.Single} : Conforms d (.float32s items) (.array .float32)
  /-- Fields may be left out, but only declared ones are given, and none twice. -/
  | struct {fields : List (String × Value)} {t : TypeId} {decl : TypeDecl} {declared : List Field}
      (found : d.typeDecl? t = some decl) (shape : decl.shape = .struct declared)
      (distinct : (fields.map Prod.fst).Nodup) (known : ∀ e ∈ fields, e.1 ∈ declared.map Field.name)
      (each : ∀ e ∈ fields, ∀ f ∈ declared, f.name = e.1 → Conforms d e.2 f.type) :
      Conforms d (.struct fields) (.struct t)
  | structs {items : List (List (String × Value))} {t : TypeId}
      (each : ∀ fields ∈ items, Conforms d (.struct fields) (.struct t)) :
      Conforms d (.structs items) (.array (.struct t))
  | variant {name : String} {v : Value} {t : TypeId} {decl : TypeDecl}
      {alternatives : List Alternative}
      {a : Alternative} (found : d.typeDecl? t = some decl)
      (shape : decl.shape = .variant alternatives)
      (declared : a ∈ alternatives) (named : a.name = name) (inner : Conforms d v a.type) :
      Conforms d (.variant name v) (.variant t)
  | variants {items : List (String × Value)} {t : TypeId}
      (each : ∀ e ∈ items, Conforms d (.variant e.1 e.2) (.variant t)) :
      Conforms d (.variants items) (.array (.variant t))

/-- The initializer is what the value stands for at the type. -/
inductive Initializes (d : Device) : Value → ValueType → Initializer → Prop where
  | string {s : String} : Initializes d (.string s) .string (.string s)
  | int32 {i : Int32} : Initializes d (.int32 i) .int32 (.int32 i)
  | float32 {x : Number.Single} : Initializes d (.float32 x) .float32 (.float32 x)
  | strings {items : List String} : Initializes d (.strings items) (.array .string)
      (.list (items.map .string))
  | int32s {items : List Int32} : Initializes d (.int32s items) (.array .int32)
      (.list (items.map .int32))
  | float32s {items : List Number.Single} :
      Initializes d (.float32s items) (.array .float32) (.list (items.map .float32))
  /-- The declared fields that are given, in the order of their declaration. -/
  | struct {fields : List (String × Value)} {t : TypeId} {decl : TypeDecl} {declared : List Field}
      {set : List (String × Initializer)}
      (found : d.typeDecl? t = some decl) (shape : decl.shape = .struct declared)
      (distinct : (fields.map Prod.fst).Nodup) (known : ∀ e ∈ fields, e.1 ∈ declared.map Field.name)
      (order : set.map Prod.fst = (declared.map Field.name).filter (· ∈ fields.map Prod.fst))
      (each : ∀ e ∈ set, ∀ v, (e.1, v) ∈ fields → ∀ f ∈ declared, f.name = e.1 →
        Initializes d v f.type e.2) :
      Initializes d (.struct fields) (.struct t) (.struct set)
  | structs {items : List (List (String × Value))} {t : TypeId} {set : List Initializer}
      (length : set.length = items.length)
      (each : ∀ (k : Nat) fields i, items[k]? = some fields → set[k]? = some i →
        Initializes d (.struct fields) (.struct t) i) :
      Initializes d (.structs items) (.array (.struct t)) (.list set)
  | variant {name : String} {v : Value} {t : TypeId} {decl : TypeDecl}
      {alternatives : List Alternative} {index : Nat}
      {type : ValueType} {i : Initializer} (found : d.typeDecl? t = some decl)
      (shape : decl.shape = .variant alternatives)
      (chosen : alternatives[index]? = some ⟨name, type⟩)
      (inner : Initializes d v type i) :
      Initializes d (.variant name v) (.variant t) (.variant t index name type i)
  | variants {items : List (String × Value)} {t : TypeId} {set : List Initializer}
      (length : set.length = items.length)
      (each : ∀ (k : Nat) e i, items[k]? = some e → set[k]? = some i →
        Initializes d (.variant e.1 e.2) (.variant t) i) :
      Initializes d (.variants items) (.array (.variant t)) (.list set)

/-- Declared types are lawful, and names tell the alternatives of a variant apart. -/
structure WellDeclared (d : Device) : Prop extends Lawful d where
  distinct : ∀ t decl alternatives, d.typeDecl? t = some decl → decl.shape = .variant alternatives →
    (alternatives.map Alternative.name).Nodup

namespace Description.Value

/-- What holds of a value whenever it holds of all values in it holds of every value. -/
@[elab_as_elim]
theorem nested {P : Value → Prop} (plain : ∀ v, Resolve.isPlain v = true → P v)
    (struct : ∀ fields, (∀ e ∈ fields, P e.2) → P (.struct fields))
    (structs : ∀ items, (∀ fields ∈ items, ∀ e ∈ fields, P e.2) → P (.structs items))
    (variant : ∀ name v, P v → P (.variant name v))
    (variants : ∀ items, (∀ e ∈ items, P e.2) → P (.variants items)) (v : Value) : P v := by
  refine @Value.rec P (fun fields => ∀ e ∈ fields, P e.2)
    (fun items => ∀ fields ∈ items, ∀ e ∈ fields, P e.2)
    (fun e => P e.2) ?_ ?_ ?_ ?_ ?_ ?_ struct structs variant variants ?_ ?_ ?_ ?_
      (fun _ _ h => h) v
  case refine_1 | refine_2 | refine_3 | refine_4 | refine_5 | refine_6 => exact fun _ => plain _ rfl
  case refine_7 | refine_9 => simp
  case refine_8 | refine_10 => exact fun _ _ first rest => List.forall_mem_cons.mpr ⟨first, rest⟩

end Description.Value

/-- Entries under the same names are the same, if each name has the same in both. -/
theorem entries_ext {α : Type} {l l' : List (String × α)} (names : l.map Prod.fst = l'.map Prod.fst)
    (same : ∀ e ∈ l, ∀ e' ∈ l', e.1 = e'.1 → e.2 = e'.2) : l = l' := by
  induction l generalizing l' with
  | nil =>
    rw [List.map_nil, eq_comm, List.map_eq_nil_iff] at names
    exact names.symm
  | cons e rest ih =>
    cases l' with
    | nil => cases names
    | cons e' rest' =>
      obtain ⟨hname, hrest⟩ := List.cons.inj names
      have he : e = e' := Prod.ext hname (same e List.mem_cons_self e' List.mem_cons_self hname)
      rw [he, ih hrest fun f hf f' hf' => same f (List.mem_cons_of_mem _ hf) f'
        (List.mem_cons_of_mem _ hf')]

namespace Initializes

variable {d : Device} {v : Value} {t : ValueType} {i : Initializer}

/-- What stands for something conforms. -/
theorem conforms (h : Initializes d v t i) : Conforms d v t := by
  induction h with
  | string => exact .string
  | int32 => exact .int32
  | float32 => exact .float32
  | strings => exact .strings
  | int32s => exact .int32s
  | float32s => exact .float32s
  | @struct fields t decl declared set found shape distinct known order each ih =>
    refine .struct found shape distinct known ?_
    intro e he f hf hname
    -- the field is given and declared, so it is among those that are set
    have hset : e.1 ∈ set.map Prod.fst := by
      rw [order, List.mem_filter]
      exact ⟨known e he, by simpa using ⟨e.2, he⟩⟩
    obtain ⟨given, hgiven, hsame⟩ := List.mem_map.mp hset
    exact ih given hgiven e.2 (by rw [hsame]; exact he) f hf (hname.trans hsame.symm)
  | @structs items t set length each ih =>
    refine .structs ?_
    intro fields hf
    obtain ⟨k, hk⟩ := List.mem_iff_getElem?.mp hf
    have hlt : k < set.length := by
      rw [length]
      exact (List.getElem?_eq_some_iff.mp hk).1
    exact ih k fields set[k] hk (List.getElem?_eq_getElem hlt)
  | variant found shape chosen _ ih =>
    exact .variant found shape (List.mem_of_getElem? chosen) rfl ih
  | @variants items t set length each ih =>
    refine .variants ?_
    intro e he
    obtain ⟨k, hk⟩ := List.mem_iff_getElem?.mp he
    have hlt : k < set.length := by
      rw [length]
      exact (List.getElem?_eq_some_iff.mp hk).1
    exact ih k e set[k] hk (List.getElem?_eq_getElem hlt)

/-- Lists of one length are the same if they are at every place. -/
private theorem items_ext {α : Type} {items : List α} {set set' : List Initializer}
    (length : set.length = items.length) (length' : set'.length = items.length)
    (same : ∀ (k : Nat) a i i', items[k]? = some a → set[k]? = some i →
      set'[k]? = some i' → i = i') :
    set = set' := by
  apply List.ext_getElem (length.trans length'.symm)
  intro k hk hk'
  have hlt : k < items.length := by
    rw [← length]
    exact hk
  exact same k items[k] _ _ (List.getElem?_eq_getElem hlt) (List.getElem?_eq_getElem hk)
    (List.getElem?_eq_getElem hk')

/-- A value stands for one thing only. -/
theorem unique (h : Initializes d v t i)
    (distinct : ∀ t decl alternatives, d.typeDecl? t = some decl →
      decl.shape = .variant alternatives → (alternatives.map Alternative.name).Nodup) :
    ∀ {i'}, Initializes d v t i' → i = i' := by
  induction h with
  | string | int32 | float32 | strings | int32s | float32s =>
    intro i' h'
    cases h'
    rfl
  | @struct fields t decl declared set found shape _ known order each ih =>
    intro i' h'
    cases h' with
    | @struct _ _ decl' declared' set' found' shape' _ _ order' each' =>
      cases found.symm.trans found'
      cases shape.symm.trans shape'
      rw [entries_ext (order.trans order'.symm)]
      intro e he e' he' hsame
      have hname : e.1 ∈ set.map Prod.fst := List.mem_map.mpr ⟨e, he, rfl⟩
      rw [order, List.mem_filter, decide_eq_true_eq] at hname
      obtain ⟨f, hf, hdeclared⟩ := List.mem_map.mp hname.1
      obtain ⟨given, hgiven, hkey⟩ := List.mem_map.mp hname.2
      have hfield : (e.1, given.2) ∈ fields := by
        rw [← hkey]
        exact hgiven
      exact ih e he given.2 hfield f hf hdeclared
        (each' e' he' given.2 (hsame ▸ hfield) f hf (hdeclared.trans hsame))
  | @structs items t set length each ih =>
    intro i' h'
    cases h' with
    | structs length' each' =>
      rw [items_ext length length']
      intro k fields i i' hk hi hi'
      exact ih k fields i hk hi (each' k fields i' hk hi')
  | @variant name v t decl alternatives index type i found shape chosen _ ih =>
    intro i' h'
    cases h' with
    | @variant _ _ _ decl' alternatives' index' type' i' found' shape' chosen' inner' =>
      cases found.symm.trans found'
      cases shape.symm.trans shape'
      have hindex : index = index' := by
        have hlt := (List.getElem?_eq_some_iff.mp chosen).1
        have hnames := distinct t decl alternatives found shape
        refine (List.getElem?_inj (by simpa using hlt) hnames).mp ?_
        rw [List.getElem?_map, List.getElem?_map, chosen, chosen']
        rfl
      subst hindex
      cases chosen.symm.trans chosen'
      rw [ih inner']
  | @variants items t set length each ih =>
    intro i' h'
    cases h' with
    | variants length' each' =>
      rw [items_ext length length']
      intro k e i i' hk hi hi'
      exact ih k e i hk hi (each' k e i' hk hi')

end Initializes

namespace Resolve

section Parts

variable {types : Array TypeDecl} {oid name : String} {fields : List (String × Value)}
  {declared : List Field}

theorem checkFields_repeated (oid : String) (declared : List Field) {given : List String}
    (h : ¬ given.Nodup) :
    ∃ name, checkFields oid declared given = .error (.duplicateOid ("value of " ++ oid) name) := by
  unfold checkFields
  cases hrepeat : firstRepeat? [] given with
  | some name => exact ⟨name, rfl⟩
  | none => exact absurd (nodup_of_firstRepeat? hrepeat).1 h

theorem checkFields_unknown (oid : String) {given : List String} (distinct : given.Nodup)
    (hname : name ∈ given) (hunknown : name ∉ declared.map Field.name) :
    ∃ other, checkFields oid declared given = .error (.unknownField oid other) := by
  unfold checkFields
  rw [firstRepeat?_eq_none distinct (by simp)]
  cases hfind : given.find? fun name => !declared.any (·.name == name) with
  | some other => exact ⟨other, rfl⟩
  | none =>
    have hknown := List.find?_eq_none.mp hfind name hname
    simp only [Bool.not_eq_true, Bool.not_eq_false', List.any_eq_true, beq_iff_eq] at hknown
    exact absurd (List.mem_map.mpr hknown) hunknown

theorem checkFields_known {given : List String} (distinct : given.Nodup)
    (known : ∀ name ∈ given, name ∈ declared.map Field.name) :
    checkFields oid declared given = .ok () := by
  have hfind : (given.find? fun name => !declared.any (·.name == name)) = none := by
    rw [List.find?_eq_none]
    intro name hname
    simpa using known name hname
  rw [checkFields, firstRepeat?_eq_none distinct (by simp), hfind]

theorem checkFields_ok_iff {given : List String} :
    checkFields oid declared given = .ok () ↔
      given.Nodup ∧ ∀ name ∈ given, name ∈ declared.map Field.name := by
  refine ⟨fun h => ?_, fun h => checkFields_known h.1 h.2⟩
  by_cases distinct : given.Nodup
  · refine ⟨distinct, fun name hname => ?_⟩
    by_contra hunknown
    obtain ⟨other, hother⟩ := checkFields_unknown oid distinct hname hunknown
    cases h.symm.trans hother
  · obtain ⟨name, hname⟩ := checkFields_repeated oid declared distinct
    cases h.symm.trans hname

/-- The value of a field is that of an entry under its name. -/
theorem fieldValue_eq_some {t : ValueType} {r : Valued}
    (h : fieldValue types fields name oid t = some r) :
    ∃ v, (name, v) ∈ fields ∧ r = value types v oid t := by
  induction fields with
  | nil => simp [fieldValue] at h
  | cons e rest ih =>
    obtain ⟨key, v⟩ := e
    rw [fieldValue] at h
    split at h
    · next hkey =>
      rw [← eq_of_beq hkey]
      exact ⟨v, List.mem_cons_self, (Option.some.inj h).symm⟩
    · obtain ⟨w, hw, hr⟩ := ih h
      exact ⟨w, List.mem_cons_of_mem _ hw, hr⟩

/-- Where no name repeats, the value of a field is that of its entry. -/
theorem fieldValue_of_mem (distinct : (fields.map Prod.fst).Nodup) {v : Value}
    (hv : (name, v) ∈ fields) (oid : String) (t : ValueType) :
    fieldValue types fields name oid t = some (value types v oid t) := by
  induction fields with
  | nil => cases hv
  | cons e rest ih =>
    obtain ⟨key, w⟩ := e
    obtain ⟨hkey, hrest⟩ := List.nodup_cons.mp distinct
    rw [fieldValue]
    rcases List.mem_cons.mp hv with heq | hv
    · cases heq
      rw [if_pos (beq_self_eq_true _)]
    · have hne : key ≠ name := by
        rintro rfl
        exact hkey (List.mem_map.mpr ⟨(key, v), hv, rfl⟩)
      rw [if_neg (by simpa using hne)]
      exact ih hrest hv

theorem fieldValue_isSome_eq (distinct : (fields.map Prod.fst).Nodup) {t : ValueType} :
    (fieldValue types fields name oid t).isSome = decide (name ∈ fields.map Prod.fst) := by
  rw [Bool.eq_iff_iff, decide_eq_true_eq, Option.isSome_iff_exists]
  constructor
  · rintro ⟨r, hr⟩
    obtain ⟨v, hv, _⟩ := fieldValue_eq_some hr
    exact List.mem_map.mpr ⟨(name, v), hv, rfl⟩
  · intro hname
    obtain ⟨e, he, rfl⟩ := List.mem_map.mp hname
    exact ⟨_, fieldValue_of_mem distinct he oid t⟩

theorem collectFields_names {valueOf : Field → Option Valued} {set : List (String × Initializer)}
    (h : collectFields valueOf declared = .ok set) :
    set.map Prod.fst = (declared.filter fun f => (valueOf f).isSome).map Field.name := by
  induction declared generalizing set with
  | nil =>
    cases h
    rfl
  | cons f rest ih =>
    unfold collectFields at h
    cases hf : valueOf f with
    | none =>
      rw [hf] at h
      rw [List.filter_cons_of_neg (by simp [hf])]
      exact ih h
    | some r =>
      simp only [hf, except_bind_ok, except_pure_ok] at h
      obtain ⟨i, _, others, hothers, rfl⟩ := h
      rw [List.filter_cons_of_pos (by simp [hf]), List.map_cons, List.map_cons, ih hothers]

/-- Fields are collected where none of their values is refused. -/
theorem collectFields_total {valueOf : Field → Option Valued}
    (h : ∀ f ∈ declared, ∀ r, valueOf f = some r → ∃ i, r = .ok i) :
    ∃ set, collectFields valueOf declared = .ok set := by
  induction declared with
  | nil => exact ⟨[], rfl⟩
  | cons f rest ih =>
    obtain ⟨set, hset⟩ := ih fun f' hf' => h f' (List.mem_cons_of_mem _ hf')
    cases hf : valueOf f with
    | none => exact ⟨set, by rw [collectFields, hf]; exact hset⟩
    | some r =>
      obtain ⟨i, rfl⟩ := h f List.mem_cons_self r hf
      exact ⟨(f.name, i) :: set, by rw [collectFields, hf]; simp only [hset]; rfl⟩

/-- A struct is read where only declared fields are given, none twice, and their values are read. -/
theorem structValue_ok_iff {t : TypeId} {decl : TypeDecl} {i : Initializer}
    (found : types[t.index]? = some decl) :
    structValue types (fields.map Prod.fst) (fieldValue types fields) oid t = .ok i ↔
      (fields.map Prod.fst).Nodup ∧ (∀ e ∈ fields, e.1 ∈ decl.fields.map Field.name) ∧
        ∃ set, collectFields (fun f => fieldValue types fields f.name (oid ++ "/" ++ f.name) f.type)
          decl.fields =
          .ok set ∧ i = .struct set := by
  have hdecl : declaration types oid t = .ok decl := by rw [declaration, found]
  have hkeys : (∀ name ∈ fields.map Prod.fst, name ∈ decl.fields.map Field.name) ↔
      ∀ e ∈ fields, e.1 ∈ decl.fields.map Field.name := List.forall_mem_map
  simp only [structValue, except_bind_ok, except_pure_ok]
  constructor
  · rintro ⟨decl', hdecl', _, hcheck, set, hset, rfl⟩
    cases hdecl.symm.trans hdecl'
    obtain ⟨hnodup, hknown⟩ := checkFields_ok_iff.mp hcheck
    exact ⟨hnodup, hkeys.mp hknown, set, hset, rfl⟩
  · rintro ⟨hnodup, hknown, set, hset, rfl⟩
    exact ⟨decl, hdecl, (), checkFields_ok_iff.mpr ⟨hnodup, hkeys.mpr hknown⟩, set, hset, rfl⟩

theorem findAlternative_name {alternatives : List Alternative} {index : Nat} {a : Alternative}
    (h : findAlternative oid name alternatives = .ok (index, a)) : a.name = name := by
  unfold findAlternative at h
  split at h
  · next hf =>
    cases h
    have hname := List.find?_some hf
    exact eq_of_beq hname
  · cases h

/-- A declared alternative is found. -/
theorem findAlternative_total {alternatives : List Alternative} {a : Alternative}
    (ha : a ∈ alternatives) (oid : String) :
    ∃ index b, findAlternative oid a.name alternatives = .ok (index, b) := by
  obtain ⟨k, hk⟩ := List.mem_iff_getElem?.mp ha
  have hmem : (a, k) ∈ alternatives.zipIdx := List.mem_zipIdx_iff_getElem?.mpr hk
  unfold findAlternative
  split
  · next b index _ => exact ⟨index, b, rfl⟩
  · next hnone => exact absurd (List.find?_eq_none.mp hnone (a, k) hmem) (by simp)

/-- Structs of an array are read one by one. -/
theorem structItems_ok {items : List (List (String × Value))} {k : Nat} {t : TypeId}
    {set : List Initializer} (h : structItems types items oid k t = .ok set) :
    set.length = items.length ∧ ∀ (n : Nat) fields i, items[n]? = some fields → set[n]? = some i →
      ∃ label,
        structValue types (fields.map Prod.fst) (fieldValue types fields) label t = .ok i := by
  induction items generalizing k set with
  | nil =>
    simp only [structItems, Except.ok.injEq] at h
    subst h
    exact ⟨rfl, by simp⟩
  | cons first rest ih =>
    simp only [structItems, except_bind_ok, except_pure_ok] at h
    obtain ⟨i, hi, others, hothers, rfl⟩ := h
    obtain ⟨hlength, heach⟩ := ih hothers
    refine ⟨by rw [List.length_cons, List.length_cons, hlength], ?_⟩
    intro n fields j hfields hj
    cases n with
    | zero =>
      cases hfields
      cases hj
      exact ⟨_, hi⟩
    | succ n => exact heach n fields j hfields hj

theorem structItems_total {items : List (List (String × Value))} {t : TypeId}
    (h : ∀ fields ∈ items, ∀ label, ∃ i,
      structValue types (fields.map Prod.fst) (fieldValue types fields) label t = .ok i)
    (oid : String) (k : Nat) : ∃ set, structItems types items oid k t = .ok set := by
  induction items generalizing k with
  | nil => exact ⟨[], by rw [structItems]⟩
  | cons first rest ih =>
    obtain ⟨i, hi⟩ := h first List.mem_cons_self (oid ++ "[" ++ toString k ++ "]")
    obtain ⟨set, hset⟩ := ih (fun fields hf => h fields (List.mem_cons_of_mem _ hf)) (k + 1)
    refine ⟨i :: set, ?_⟩
    simp only [structItems, except_bind_ok, except_pure_ok]
    exact ⟨i, hi, set, hset, rfl⟩

/-- Variants of an array are read one by one. -/
theorem variantItems_ok {items : List (String × Value)} {k : Nat} {t : TypeId}
    {set : List Initializer} (h : variantItems types items oid k t = .ok set) :
    set.length = items.length ∧ ∀ (n : Nat) e i, items[n]? = some e → set[n]? = some i →
      ∃ label, value types (.variant e.1 e.2) label (.variant t) = .ok i := by
  induction items generalizing k set with
  | nil =>
    simp only [variantItems, Except.ok.injEq] at h
    subst h
    exact ⟨rfl, by simp⟩
  | cons first rest ih =>
    obtain ⟨name, v⟩ := first
    simp only [variantItems, except_bind_ok, except_pure_ok] at h
    obtain ⟨decl, hdecl, ⟨index, a⟩, ha, i, hi, others, hothers, rfl⟩ := h
    obtain ⟨hlength, heach⟩ := ih hothers
    refine ⟨by rw [List.length_cons, List.length_cons, hlength], ?_⟩
    intro n e j he hj
    cases n with
    | zero =>
      cases he
      cases hj
      refine ⟨oid ++ "[" ++ toString k ++ "]", ?_⟩
      simp only [value, except_bind_ok, except_pure_ok]
      exact ⟨decl, hdecl, (index, a), ha, i, hi, rfl⟩
    | succ n => exact heach n e j he hj

theorem variantItems_total {items : List (String × Value)} {t : TypeId}
    (h : ∀ e ∈ items, ∀ label, ∃ i, value types (.variant e.1 e.2) label (.variant t) = .ok i)
    (oid : String) (k : Nat) :
    ∃ set, variantItems types items oid k t = .ok set := by
  induction items generalizing k with
  | nil => exact ⟨[], by rw [variantItems]⟩
  | cons first rest ih =>
    obtain ⟨name, v⟩ := first
    obtain ⟨i, hi⟩ := h (name, v) List.mem_cons_self (oid ++ "[" ++ toString k ++ "]")
    obtain ⟨u, decl, index, a, j, hu, hdecl, ha, hj, rfl⟩ := variant_ok hi
    cases hu
    obtain ⟨set, hset⟩ := ih (fun e he => h e (List.mem_cons_of_mem _ he)) (k + 1)
    refine ⟨.variant t index a.name a.type j :: set, ?_⟩
    simp only [variantItems, except_bind_ok, except_pure_ok]
    exact ⟨decl, hdecl, (index, a), ha, j, hj, set, hset, rfl⟩

end Parts

section Whole

variable {d : Device} {oid : String} {t : ValueType} {i : Initializer}

/-- What a struct is read as, if its fields are read as what they stand for. -/
theorem structValue_initializes (lawful : Lawful d) {fields : List (String × Value)} {t : TypeId}
    (ht : Meant d (.struct t))
    (hfields : ∀ e ∈ fields, ∀ {oid : String} {t : ValueType} {i : Initializer}, Meant d t →
      value d.types e.2 oid t = .ok i → Initializes d e.2 t i)
    (h : structValue d.types (fields.map Prod.fst) (fieldValue d.types fields) oid t = .ok i) :
    Initializes d (.struct fields) (.struct t) i := by
  obtain ⟨decl, declared, found, shape⟩ := ht
  have hdeclared : decl.fields = declared := by rw [TypeDecl.fields, shape]
  obtain ⟨hnames, hmeant⟩ := lawful.fields t decl declared found shape
  obtain ⟨distinct, known, set, hset, rfl⟩ := (structValue_ok_iff found).mp h
  rw [hdeclared] at known hset
  refine .struct found shape distinct known ?_ ?_
  · rw [collectFields_names hset, List.filter_map]
    congr 1
    apply List.filter_congr
    intro f _
    rw [fieldValue_isSome_eq distinct]
    rfl
  · intro e he v hv f hf hname
    obtain ⟨f', hf', hname', hvalue⟩ := (collectFields_ok hset).2 e he
    cases List.inj_on_of_nodup_map hnames hf hf' (hname.trans hname'.symm)
    rw [hname, fieldValue_of_mem distinct hv] at hvalue
    exact hfields (e.1, v) hv (hmeant f hf) (Option.some.inj hvalue)

theorem variant_initializes (lawful : Lawful d) {name : String} {v : Value} (ht : Meant d t)
    (hinner : ∀ {oid : String} {t : ValueType} {i : Initializer}, Meant d t →
      value d.types v oid t = .ok i → Initializes d v t i)
    (h : value d.types (.variant name v) oid t = .ok i) : Initializes d (.variant name v) t i := by
  obtain ⟨u, decl, index, a, j, rfl, hdecl, ha, hj, rfl⟩ := variant_ok h
  obtain ⟨decl', alternatives, found, shape⟩ := ht
  cases found.symm.trans (declaration_ok hdecl)
  have halternatives : decl.alternatives = alternatives := by rw [TypeDecl.alternatives, shape]
  rw [halternatives] at ha
  have hmeant := lawful.alternatives u decl alternatives found shape a (findAlternative_mem ha)
  have hname := findAlternative_name ha
  subst hname
  exact .variant found shape (findAlternative_getElem? ha) (hinner hmeant hj)

/-- What a value is read as is what it stands for. -/
theorem value_initializes (lawful : Lawful d) (v : Value) :
    ∀ {oid : String} {t : ValueType} {i : Initializer}, Meant d t → value d.types v oid t = .ok i →
      Initializes d v t i := by
  induction v using Value.nested with
  | plain v hv =>
    intro oid t i _ h
    unfold value at h
    split at h
    case h_1 | h_2 | h_3 | h_4 | h_5 | h_6 =>
      cases h
      constructor
    case h_7 | h_8 | h_9 | h_10 => cases hv
    case h_11 => cases h
  | struct fields ih =>
    intro oid t i ht h
    obtain ⟨u, rfl, hstruct⟩ := struct_ok h
    exact structValue_initializes lawful ht ih hstruct
  | structs items ih =>
    intro oid t i ht h
    obtain ⟨u, set, rfl, hset, rfl⟩ := structs_ok h
    obtain ⟨length, each⟩ := structItems_ok hset
    refine .structs length ?_
    intro k fields j hk hj
    obtain ⟨label, hstruct⟩ := each k fields j hk hj
    exact structValue_initializes lawful ht (ih fields (List.mem_of_getElem? hk)) hstruct
  | variant name v ih =>
    intro oid t i ht h
    exact variant_initializes lawful ht ih h
  | variants items ih =>
    intro oid t i ht h
    obtain ⟨u, set, rfl, hset, rfl⟩ := variants_ok h
    obtain ⟨length, each⟩ := variantItems_ok hset
    refine .variants length ?_
    intro k e j hk hj
    obtain ⟨label, hvariant⟩ := each k e j hk hj
    exact variant_initializes lawful ht (ih e (List.mem_of_getElem? hk)) hvariant

/-- A value that conforms is read, under whatever label. -/
theorem value_total (declared : WellDeclared d) {v : Value} (h : Conforms d v t) :
    ∀ oid, ∃ i, value d.types v oid t = .ok i := by
  induction h with
  | string | int32 | float32 | strings | int32s | float32s =>
    intro oid
    exact ⟨_, by rw [value]⟩
  | @struct fields t decl declared found shape distinct known each ih =>
    intro oid
    have hdeclared : decl.fields = declared := by rw [TypeDecl.fields, shape]
    have hset : ∃ set,
        collectFields (fun f => fieldValue d.types fields f.name (oid ++ "/" ++ f.name) f.type)
          decl.fields = .ok set := by
      apply collectFields_total
      intro f hf r hr
      obtain ⟨v, hv, rfl⟩ := fieldValue_eq_some hr
      exact ih (f.name, v) hv f (hdeclared ▸ hf) rfl _
    obtain ⟨set, hset⟩ := hset
    rw [← hdeclared] at known
    refine ⟨.struct set, ?_⟩
    rw [value]
    exact (structValue_ok_iff found).mpr ⟨distinct, known, set, hset, rfl⟩
  | @structs items t each ih =>
    intro oid
    have hitems : ∀ fields ∈ items, ∀ label, ∃ i,
        structValue d.types (fields.map Prod.fst) (fieldValue d.types fields) label t = .ok i := by
      intro fields hf label
      obtain ⟨i, hi⟩ := ih fields hf label
      rw [value] at hi
      exact ⟨i, hi⟩
    obtain ⟨set, hset⟩ := structItems_total hitems oid 0
    exact ⟨.list set, by simp only [value, except_bind_ok, except_pure_ok]; exact ⟨set, hset, rfl⟩⟩
  | @variant name v t decl alternatives a found shape ha named inner ih =>
    intro oid
    subst named
    have hdecl : declaration d.types oid t = .ok decl := by
      rw [declaration, show d.types[t.index]? = some decl from found]
    have halternatives : decl.alternatives = alternatives := by rw [TypeDecl.alternatives, shape]
    obtain ⟨index, b, hb⟩ := findAlternative_total ha oid
    cases List.inj_on_of_nodup_map (declared.distinct t decl alternatives found shape)
      (findAlternative_mem hb) ha (findAlternative_name hb)
    obtain ⟨i, hi⟩ := ih (oid ++ "/" ++ a.name)
    refine ⟨.variant t index a.name a.type i, ?_⟩
    simp only [value, except_bind_ok, except_pure_ok]
    exact ⟨decl, hdecl, (index, a), halternatives ▸ hb, i, hi, rfl⟩
  | @variants items t each ih =>
    intro oid
    obtain ⟨set, hset⟩ := variantItems_total ih oid 0
    exact ⟨.list set, by simp only [value, except_bind_ok, except_pure_ok]; exact ⟨set, hset, rfl⟩⟩

theorem value_ok_iff (declared : WellDeclared d) {v : Value} (ht : Meant d t) :
    value d.types v oid t = .ok i ↔ Initializes d v t i := by
  constructor
  · exact value_initializes declared.toLawful v ht
  · intro h
    obtain ⟨j, hj⟩ := value_total declared h.conforms oid
    rw [h.unique declared.distinct (value_initializes declared.toLawful v ht hj)]
    exact hj

end Whole

theorem Resolved.wellDeclared {source : Source} {importRoot : Path}
    {description : Description.Device} {d : Device} {shared : List Constraint}
    {params commands : Forest}
    (h : Resolved source importRoot description d shared params commands) : WellDeclared d where
  toLawful := h.lawful
  distinct := by
    intro t decl alternatives ht hshape
    obtain ⟨p, hp, rfl⟩ := h.variant_alternatives ht hshape
    rw [List.map_map]
    exact h.children_oids_nodup hp

end Resolve

end DeviceModel
