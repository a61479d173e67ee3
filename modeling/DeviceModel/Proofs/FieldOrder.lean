import DeviceModel.Proofs.Conformance
import DeviceModel.Proofs.Faults

namespace DeviceModel

open Description (Value)

/-- The same value, with the fields of structs anywhere in it in another order. -/
inductive Rearranged : Value → Value → Prop where
  | fields {fields fields' : List (String × Value)} (perm : fields.Perm fields') :
      Rearranged (.struct fields) (.struct fields')
  | field {before after : List (String × Value)} {name : String} {v v' : Value}
      (inner : Rearranged v v') :
      Rearranged (.struct (before ++ (name, v) :: after)) (.struct (before ++ (name, v') :: after))
  | item {before after : List (List (String × Value))} {fields fields' : List (String × Value)}
      (inner : Rearranged (.struct fields) (.struct fields')) :
      Rearranged (.structs (before ++ fields :: after)) (.structs (before ++ fields' :: after))
  | variant {name : String} {v v' : Value} (inner : Rearranged v v') :
      Rearranged (.variant name v) (.variant name v')
  | choice {before after : List (String × Value)} {name : String} {v v' : Value}
      (inner : Rearranged v v') :
      Rearranged (.variants (before ++ (name, v) :: after))
        (.variants (before ++ (name, v') :: after))
  | trans {u v w : Value} (first : Rearranged u v) (next : Rearranged v w) : Rearranged u w

namespace Resolve

/-- The same fault in the same place. Of several fields that are repeated or unknown, another may be
named. -/
inductive SameFault : ResolveError → ResolveError → Prop where
  | same {e : ResolveError} : SameFault e e
  | repeated {scope name name' : String} : SameFault (.duplicateOid scope name)
      (.duplicateOid scope name')
  | unknown {oid name name' : String} : SameFault (.unknownField oid name) (.unknownField oid name')

theorem SameFault.trans {e e' e'' : ResolveError} (h : SameFault e e') (h' : SameFault e' e'') :
    SameFault e e'' := by
  cases h with
  | same => exact h'
  | repeated => cases h' <;> constructor
  | unknown => cases h' <;> constructor

/-- The same result, or the same fault. -/
inductive SameOutcome {α : Type} : Except ResolveError α → Except ResolveError α → Prop where
  | ok {a : α} : SameOutcome (.ok a) (.ok a)
  | error {e e' : ResolveError} (fault : SameFault e e') : SameOutcome (.error e) (.error e')

namespace SameOutcome

variable {α β : Type} {x x' x'' : Except ResolveError α}

theorem refl (x : Except ResolveError α) : SameOutcome x x := by
  cases x with
  | ok => exact .ok
  | error => exact .error .same

theorem rel_refl (x : Option (Except ResolveError α)) : Option.Rel SameOutcome x x := by
  cases x with
  | none => exact .none
  | some r => exact .some (.refl r)

theorem trans (h : SameOutcome x x') (h' : SameOutcome x' x'') : SameOutcome x x'' := by
  cases h with
  | ok => exact h'
  | error fault =>
    cases h' with
    | error fault' => exact .error (fault.trans fault')

theorem bind {f f' : α → Except ResolveError β} (h : SameOutcome x x')
    (hf : ∀ a, x = .ok a → SameOutcome (f a) (f' a)) : SameOutcome (x >>= f) (x' >>= f') := by
  cases h with
  | ok => exact hf _ rfl
  | error fault => exact .error fault

theorem ok_iff {a : α} (h : SameOutcome x x') : x = .ok a ↔ x' = .ok a := by
  cases h with
  | ok => rfl
  | error => simp

end SameOutcome

section Rearranging

variable {types : Array TypeDecl}

theorem checkFields_perm {oid : String} {declared : List Field} {given given' : List String}
    (perm : given.Perm given') :
    SameOutcome (checkFields oid declared given) (checkFields oid declared given') := by
  by_cases distinct : given.Nodup
  · by_cases known : ∀ name ∈ given, name ∈ declared.map Field.name
    · rw [checkFields_known distinct known, checkFields_known (perm.nodup_iff.mp distinct)]
      · exact .ok
      · exact fun name hname => known name (perm.mem_iff.mpr hname)
    · push Not at known
      obtain ⟨name, hname, hunknown⟩ := known
      obtain ⟨other, hother⟩ := checkFields_unknown oid distinct hname hunknown
      obtain ⟨other', hother'⟩ :=
        checkFields_unknown oid (perm.nodup_iff.mp distinct) (perm.mem_iff.mp hname) hunknown
      rw [hother, hother']
      exact .error .unknown
  · obtain ⟨name, hname⟩ := checkFields_repeated oid declared distinct
    obtain ⟨name', hname'⟩ := checkFields_repeated oid declared (mt perm.nodup_iff.mpr distinct)
    rw [hname, hname']
    exact .error .repeated

theorem fieldValue_perm {fields fields' : List (String × Value)}
    (distinct : (fields.map Prod.fst).Nodup) (perm : fields.Perm fields') (name oid : String)
    (t : ValueType) :
    fieldValue types fields name oid t = fieldValue types fields' name oid t := by
  have distinct' := (perm.map Prod.fst).nodup_iff.mp distinct
  ext r
  constructor
  · intro h
    obtain ⟨v, hv, rfl⟩ := fieldValue_eq_some h
    exact fieldValue_of_mem distinct' (perm.mem_iff.mp hv) oid t
  · intro h
    obtain ⟨v, hv, rfl⟩ := fieldValue_eq_some h
    exact fieldValue_of_mem distinct (perm.mem_iff.mpr hv) oid t

/-- Replacing the value of an entry by one that comes to the same. -/
theorem fieldValue_replace {before after : List (String × Value)} {key : String} {v v' : Value}
    (hv : ∀ oid t, SameOutcome (value types v oid t) (value types v' oid t)) (name oid : String)
    (t : ValueType) :
    Option.Rel SameOutcome (fieldValue types (before ++ (key, v) :: after) name oid t)
      (fieldValue types (before ++ (key, v') :: after) name oid t) := by
  induction before with
  | nil =>
    simp only [List.nil_append, fieldValue]
    split
    · exact .some (hv oid t)
    · exact SameOutcome.rel_refl _
  | cons e rest ih =>
    simp only [List.cons_append, fieldValue]
    split
    · exact .some (.refl _)
    · exact ih

theorem collectFields_same {valueOf valueOf' : Field → Option Valued} {declared : List Field}
    (h : ∀ f, Option.Rel SameOutcome (valueOf f) (valueOf' f)) :
    SameOutcome (collectFields valueOf declared) (collectFields valueOf' declared) := by
  induction declared with
  | nil => exact .refl _
  | cons f rest ih =>
    rw [collectFields, collectFields]
    have hf := h f
    generalize valueOf f = r, valueOf' f = r' at hf ⊢
    cases hf with
    | none => exact ih
    | some hr => exact hr.bind fun i _ => ih.bind fun set _ => .refl _

theorem structValue_same {given given' : List String}
    {valueOf valueOf' : String → String → ValueType → Option Valued} {oid : String} {t : TypeId}
    (hgiven : ∀ declared,
      SameOutcome (checkFields oid declared given) (checkFields oid declared given'))
    (hvalue : given.Nodup → ∀ name oid t,
      Option.Rel SameOutcome (valueOf name oid t) (valueOf' name oid t)) :
    SameOutcome (structValue types given valueOf oid t)
      (structValue types given' valueOf' oid t) := by
  refine (SameOutcome.refl _).bind fun decl _ => (hgiven _).bind fun _ hcheck => ?_
  have hdistinct := (checkFields_ok_iff.mp hcheck).1
  exact (collectFields_same fun f => hvalue hdistinct _ _ _).bind fun set _ => .refl _

theorem structItems_replace {before after : List (List (String × Value))}
    {fields fields' : List (String × Value)} {t : TypeId}
    (h : ∀ oid,
      SameOutcome (structValue types (fields.map Prod.fst) (fieldValue types fields) oid t)
      (structValue types (fields'.map Prod.fst) (fieldValue types fields') oid t))
    (oid : String) (k : Nat) :
    SameOutcome (structItems types (before ++ fields :: after) oid k t)
      (structItems types (before ++ fields' :: after) oid k t) := by
  induction before generalizing k with
  | nil =>
    rw [List.nil_append, List.nil_append, structItems, structItems]
    exact (h _).bind fun i _ => .refl _
  | cons first rest ih =>
    rw [List.cons_append, List.cons_append, structItems, structItems]
    exact (SameOutcome.refl _).bind fun i _ => (ih (k + 1)).bind fun set _ => .refl _

theorem variantItems_replace {before after : List (String × Value)} {name : String} {v v' : Value}
    {t : TypeId} (h : ∀ oid t, SameOutcome (value types v oid t) (value types v' oid t))
    (oid : String) (k : Nat) :
    SameOutcome (variantItems types (before ++ (name, v) :: after) oid k t)
      (variantItems types (before ++ (name, v') :: after) oid k t) := by
  induction before generalizing k with
  | nil =>
    rw [List.nil_append, List.nil_append, variantItems, variantItems]
    refine (SameOutcome.refl _).bind fun decl _ => (SameOutcome.refl _).bind fun found _ => ?_
    exact (h _ _).bind fun i _ => .refl _
  | cons first rest ih =>
    obtain ⟨key, w⟩ := first
    rw [List.cons_append, List.cons_append, variantItems, variantItems]
    refine (SameOutcome.refl _).bind fun decl _ => (SameOutcome.refl _).bind fun found _ => ?_
    exact (SameOutcome.refl _).bind fun i _ => (ih (k + 1)).bind fun set _ => .refl _

/-- The order of fields does not matter to what a value is read as. -/
theorem value_rearranged {v v' : Value} (h : Rearranged v v') :
    ∀ oid t, SameOutcome (value types v oid t) (value types v' oid t) := by
  induction h with
  | fields perm =>
    intro oid t
    cases t with
    | struct u =>
      rw [value, value]
      refine structValue_same (fun declared => checkFields_perm (perm.map _)) ?_
      intro distinct name oid t
      rw [fieldValue_perm distinct perm]
      exact SameOutcome.rel_refl _
    | _ =>
      simp only [value]
      exact .refl _
  | @field before after name v v' _ ih =>
    intro oid t
    cases t with
    | struct u =>
      rw [value, value]
      refine structValue_same ?_ (fun _ => fieldValue_replace ih)
      intro declared
      rw [List.map_append, List.map_append, List.map_cons, List.map_cons]
      exact .refl _
    | _ =>
      simp only [value]
      exact .refl _
  | item _ ih =>
    intro oid t
    cases t with
    | array element =>
      cases element with
      | struct u =>
        rw [value, value]
        refine (structItems_replace ?_ oid 0).bind fun set _ => .refl _
        intro label
        have hstruct := ih label (.struct u)
        rw [value, value] at hstruct
        exact hstruct
      | _ =>
        simp only [value]
        exact .refl _
    | _ =>
      simp only [value]
      exact .refl _
  | variant _ ih =>
    intro oid t
    cases t with
    | variant u =>
      rw [value, value]
      refine (SameOutcome.refl _).bind fun decl _ => (SameOutcome.refl _).bind fun found _ => ?_
      exact (ih _ _).bind fun i _ => .refl _
    | _ =>
      simp only [value]
      exact .refl _
  | choice _ ih =>
    intro oid t
    cases t with
    | array element =>
      cases element with
      | variant u =>
        rw [value, value]
        exact (variantItems_replace ih oid 0).bind fun set _ => .refl _
      | _ =>
        simp only [value]
        exact .refl _
    | _ =>
      simp only [value]
      exact .refl _
  | trans _ _ ihFirst ihNext =>
    intro oid t
    exact (ihFirst oid t).trans (ihNext oid t)

end Rearranging

section Mismatch

variable {types : Array TypeDecl}

/-- The value is written under the tag for the type. -/
inductive Tagged : Value → ValueType → Prop where
  | string {s : String} : Tagged (.string s) .string
  | int32 {i : Int32} : Tagged (.int32 i) .int32
  | float32 {x : Number.Single} : Tagged (.float32 x) .float32
  | strings {items : List String} : Tagged (.strings items) (.array .string)
  | int32s {items : List Int32} : Tagged (.int32s items) (.array .int32)
  | float32s {items : List Number.Single} : Tagged (.float32s items) (.array .float32)
  | struct {fields : List (String × Value)} {t : TypeId} : Tagged (.struct fields) (.struct t)
  | structs {items : List (List (String × Value))} {t : TypeId} :
      Tagged (.structs items) (.array (.struct t))
  | variant {name : String} {v : Value} {t : TypeId} : Tagged (.variant name v) (.variant t)
  | variants {items : List (String × Value)} {t : TypeId} : Tagged (.variants items)
      (.array (.variant t))

theorem tagged_of_expectedTag_eq {v : Value} {t : ValueType} (h : t.expectedTag = v.tag) :
    Tagged v t := by
  cases t with
  | array element =>
    cases element <;> cases v <;> simp [ValueType.expectedTag, Value.tag] at h <;> constructor
  | _ => cases v <;> simp [ValueType.expectedTag, Value.tag] at h <;> constructor

/-- Where the error is about a tag, the tag that is found is not the one that is expected. -/
def TagsApart (e : ResolveError) : Prop :=
  ∀ oid expected found, e = .valueMismatch oid expected found → expected ≠ found

theorem value_of_not_tagged {v : Value} {oid : String} {t : ValueType} (h : ¬ Tagged v t) :
    value types v oid t = .error (.valueMismatch oid t.expectedTag v.tag) := by
  unfold value
  split
  case h_11 => rfl
  all_goals exact absurd (by constructor) h

/-- It is enough to look at values that are written under the tag for their type. -/
theorem tagsApart_of_tagged {v : Value} {oid : String} {t : ValueType} {e : ResolveError}
    (h : value types v oid t = .error e) (htagged : Tagged v t → TagsApart e) : TagsApart e := by
  by_cases htag : Tagged v t
  · exact htagged htag
  · cases (value_of_not_tagged htag).symm.trans h
    intro place expected found he htags
    cases he
    exact htag (tagged_of_expectedTag_eq htags)

theorem declaration_tagsApart {oid : String} {t : TypeId} {e : ResolveError}
    (h : declaration types oid t = .error e) :
    TagsApart e := by
  unfold declaration at h
  split at h
  · cases h
  · cases h
    rintro _ _ _ ⟨⟩

theorem collectFields_tagsApart {valueOf : Field → Option Valued} {declared : List Field}
    {e : ResolveError} (hvalue : ∀ f e, valueOf f = some (.error e) → TagsApart e)
    (h : collectFields valueOf declared = .error e) :
    TagsApart e := by
  induction declared with
  | nil => cases h
  | cons f rest ih =>
    unfold collectFields at h
    cases hf : valueOf f with
    | none =>
      rw [hf] at h
      exact ih h
    | some r =>
      simp only [hf, except_bind_error] at h
      rcases h with rfl | ⟨i, _, h | ⟨set, _, h⟩⟩
      · exact hvalue f e hf
      · exact ih h
      · cases h

theorem structValue_tagsApart {fields : List (String × Value)} {oid : String} {t : TypeId}
    {e : ResolveError}
    (hfields : ∀ entry ∈ fields, ∀ {oid : String} {t : ValueType} {e : ResolveError},
      value types entry.2 oid t = .error e → TagsApart e)
    (h : structValue types (fields.map Prod.fst) (fieldValue types fields) oid t = .error e) :
    TagsApart e := by
  simp only [structValue, except_bind_error] at h
  rcases h with h | ⟨decl, _, h | ⟨_, _, h | ⟨set, _, h⟩⟩⟩
  · exact declaration_tagsApart h
  · unfold checkFields at h
    split at h
    · cases h
      rintro _ _ _ ⟨⟩
    · split at h
      · cases h
        rintro _ _ _ ⟨⟩
      · cases h
  · refine collectFields_tagsApart ?_ h
    intro f e' he
    obtain ⟨v, hv, he⟩ := fieldValue_eq_some he
    exact hfields (f.name, v) hv he.symm
  · cases h

theorem structItems_error {items : List (List (String × Value))} {oid : String} {k : Nat}
    {t : TypeId} {e : ResolveError} (h : structItems types items oid k t = .error e) :
    ∃ fields ∈ items, ∃ label,
      structValue types (fields.map Prod.fst) (fieldValue types fields) label t = .error e := by
  induction items generalizing k with
  | nil =>
    rw [structItems] at h
    cases h
  | cons first rest ih =>
    simp only [structItems, except_bind_error] at h
    rcases h with h | ⟨i, _, h | ⟨set, _, h⟩⟩
    · exact ⟨first, List.mem_cons_self, _, h⟩
    · obtain ⟨fields, hf, hstruct⟩ := ih h
      exact ⟨fields, List.mem_cons_of_mem _ hf, hstruct⟩
    · cases h

theorem variantItems_error {items : List (String × Value)} {oid : String} {k : Nat} {t : TypeId}
    {e : ResolveError} (h : variantItems types items oid k t = .error e) :
    ∃ item ∈ items, ∃ label, value types (.variant item.1 item.2) label (.variant t) =
      .error e := by
  induction items generalizing k with
  | nil =>
    rw [variantItems] at h
    cases h
  | cons first rest ih =>
    obtain ⟨name, v⟩ := first
    have hfirst : ∀ label, value types (.variant name v) label (.variant t) = .error e →
        ∃ item ∈ (name, v) :: rest, ∃ label,
            value types (.variant item.1 item.2) label (.variant t) = .error e :=
      fun label hlabel => ⟨(name, v), List.mem_cons_self, label, hlabel⟩
    simp only [variantItems, except_bind_error] at h
    rcases h with h | ⟨decl, hdecl, h | ⟨found, hfound, h | ⟨i, hi, h | ⟨set, _, h⟩⟩⟩⟩
    · apply hfirst
      simp only [value, except_bind_error]
      exact .inl h
    · apply hfirst
      simp only [value, except_bind_error]
      exact .inr ⟨decl, hdecl, .inl h⟩
    · apply hfirst
      simp only [value, except_bind_error]
      exact .inr ⟨decl, hdecl, .inr ⟨found, hfound, .inl h⟩⟩
    · obtain ⟨item, hitem, hvariant⟩ := ih h
      exact ⟨item, List.mem_cons_of_mem _ hitem, hvariant⟩
    · cases h

theorem variant_tagsApart {name oid : String} {v : Value} {t : TypeId} {e : ResolveError}
    (hinner : ∀ {oid : String} {t : ValueType} {e : ResolveError}, value types v oid t = .error e →
      TagsApart e)
    (h : value types (.variant name v) oid (.variant t) = .error e) : TagsApart e := by
  simp only [value, except_bind_error] at h
  rcases h with h | ⟨decl, _, h | ⟨found, _, h | ⟨i, _, h⟩⟩⟩
  · exact declaration_tagsApart h
  · unfold findAlternative at h
    split at h
    · cases h
    · cases h
      rintro _ _ _ ⟨⟩
  · exact hinner h
  · cases h

/-- A tag is refused only if it is not the one that is expected. -/
theorem value_tagsApart (v : Value) :
    ∀ {oid : String} {t : ValueType} {e : ResolveError}, value types v oid t = .error e →
      TagsApart e := by
  induction v using Value.nested with
  | plain v hv =>
    intro oid t e h
    refine tagsApart_of_tagged h fun htag => ?_
    cases htag with
    | struct | structs | variant | variants => cases hv
    | _ =>
      rw [value] at h
      cases h
  | struct fields ih =>
    intro oid t e h
    refine tagsApart_of_tagged h fun htag => ?_
    cases htag
    rw [value] at h
    exact structValue_tagsApart ih h
  | structs items ih =>
    intro oid t e h
    refine tagsApart_of_tagged h fun htag => ?_
    cases htag
    simp only [value, except_bind_error] at h
    rcases h with h | ⟨set, _, h⟩
    · obtain ⟨fields, hf, label, hstruct⟩ := structItems_error h
      exact structValue_tagsApart (ih fields hf) hstruct
    · cases h
  | variant name v ih =>
    intro oid t e h
    refine tagsApart_of_tagged h fun htag => ?_
    cases htag
    exact variant_tagsApart ih h
  | variants items ih =>
    intro oid t e h
    refine tagsApart_of_tagged h fun htag => ?_
    cases htag
    simp only [value, except_bind_error] at h
    rcases h with h | ⟨set, _, h⟩
    · obtain ⟨item, hitem, label, hvariant⟩ := variantItems_error h
      exact variant_tagsApart (ih item hitem) hvariant
    · cases h

end Mismatch

end Resolve

open Resolve

/-- How values are read at a type: which are, as what, and what the others are refused for. -/
structure ReadExactly (d : Device) (oid : String) (t : ValueType) (v : Value) : Prop where
  accepted : (∃ i, value d.types v oid t = .ok i) ↔ Conforms d v t
  reads : ∀ i, value d.types v oid t = .ok i ↔ Initializes d v t i
  unordered : ∀ v', Rearranged v v' →
    ∀ i, value d.types v oid t = .ok i ↔ value d.types v' oid t = .ok i
  faults : ∀ v', Rearranged v v' → SameOutcome (value d.types v oid t) (value d.types v' oid t)
  mismatch : ∀ place expected found, value d.types v oid t =
    .error (.valueMismatch place expected found) → expected ≠ found

theorem value_readExactly {d : Device} (declared : WellDeclared d) {t : ValueType} (ht : Meant d t)
    (oid : String) (v : Value) : ReadExactly d oid t v where
  accepted := by
    constructor
    · rintro ⟨i, hi⟩
      exact (value_initializes declared.toLawful v ht hi).conforms
    · intro h
      exact value_total declared h oid
  reads := fun i => value_ok_iff declared ht
  unordered := fun v' h i => (value_rearranged h oid t).ok_iff
  faults := fun v' h => value_rearranged h oid t
  mismatch := fun place expected found h => value_tagsApart v h place expected found rfl

/-- A value for the last of the marks, whose fields are not in the order of their declaration. -/
def turnedDot : Value := .variant "dot" (.struct [("y", .int32 3), ("x", .int32 1)])

theorem pointAndMarks_readExactly :
    ∃ d p, (resolveDevice "m" pointAndMarks ⟨"params"⟩ (Documents.source {})).result = .ok d ∧
      d.param? ⟨8⟩ = some p ∧
      p.fqoid = "/last" ∧ WellDeclared d ∧ Meant d p.type ∧
        (∃ i, value d.types turnedDot "/last" p.type = .ok i) ∧
      ReadExactly d "/last" p.type turnedDot := by
  have hok :
      ((resolveDevice "m" pointAndMarks ⟨"params"⟩
      (Documents.source {})).result.toOption.map fun d =>
      (d.param? ⟨8⟩).map fun p =>
        (p.fqoid, (value d.types turnedDot "/last" p.type).toOption.isSome)) =
        some (some ("/last", true)) := by
    decide +kernel
  obtain ⟨d, hd, hlast⟩ := ok_of_toOption hok
  obtain ⟨p, hp, hlast⟩ := Option.map_eq_some_iff.mp hlast
  obtain ⟨hfqoid, hvalue⟩ := Prod.mk.inj hlast
  obtain ⟨shared, params, commands, hr⟩ := resolveDevice_resolved hd
  have hmeant := (hr.typed (Array.mem_of_getElem? hp)).meant
  have hread := value_readExactly hr.wellDeclared hmeant "/last" turnedDot
  refine ⟨d, p, hd, hp, hfqoid, hr.wellDeclared, hmeant, ?_, hread⟩
  cases hi : value d.types turnedDot "/last" p.type with
  | ok i => exact ⟨i, rfl⟩
  | error e =>
    rw [hi] at hvalue
    cases hvalue

end DeviceModel
