import DeviceModel.Proofs.Resolved

namespace DeviceModel

namespace ValueType

/-- The declared types that a type refers to. -/
def typeIds : ValueType → List TypeId
  | .struct t => [t]
  | .variant t => [t]
  | .array t => t.typeIds
  | _ => []

end ValueType

mutual

/-- The declared types that a value refers to. -/
def Initializer.typeIds : Initializer → List TypeId
  | .list items => itemTypeIds items
  | .struct fields => fieldTypeIds fields
  | .variant t _ _ type v => t :: (type.typeIds ++ v.typeIds)
  | _ => []

def itemTypeIds : List Initializer → List TypeId
  | [] => []
  | v :: rest => v.typeIds ++ itemTypeIds rest

def fieldTypeIds : List (String × Initializer) → List TypeId
  | [] => []
  | (_, v) :: rest => v.typeIds ++ fieldTypeIds rest

end

/-- The declared types that a value refers to, if there is one. -/
def valueTypeIds (v : Option Initializer) : List TypeId := v.toList.flatMap Initializer.typeIds

/-- The declared types that a parameter refers to. -/
def Param.typeIds (p : Param) : List TypeId :=
  p.type.typeIds ++ (p.container.toList ++ valueTypeIds p.value)

namespace Shape

/-- The declared types that fields, alternatives or elements refer to. -/
def typeIds : Shape → List TypeId
  | .struct fields => fields.flatMap fun f => f.type.typeIds ++ valueTypeIds f.default
  | .variant alternatives => alternatives.flatMap fun a => a.type.typeIds
  | .array element => element.typeIds

end Shape

/-- All of the types are among the first ones. -/
def Among (n : Nat) (ids : List TypeId) : Prop := ∀ t ∈ ids, t.index < n

/-- A declared type refers only to types before it. -/
def Backward (types : List TypeDecl) : Prop :=
  ∀ i decl, types[i]? = some decl → Among i decl.shape.typeIds

namespace Among

variable {n m : Nat} {ids ids' : List TypeId}

theorem nil : Among n [] := by simp [Among]

theorem append (h : Among n ids) (h' : Among n ids') : Among n (ids ++ ids') := by
  intro t ht
  rcases List.mem_append.mp ht with ht | ht
  · exact h t ht
  · exact h' t ht

theorem left (h : Among n (ids ++ ids')) : Among n ids :=
  fun t ht => h t (List.mem_append_left _ ht)

theorem right (h : Among n (ids ++ ids')) : Among n ids' :=
  fun t ht => h t (List.mem_append_right _ ht)

theorem mono (h : Among n ids) (le : n ≤ m) : Among m ids :=
  fun t ht => Nat.lt_of_lt_of_le (h t ht) le

end Among

namespace Backward

variable {types : List TypeDecl}

/-- A type at the end refers to any of those before it. -/
theorem push {decl : TypeDecl} (h : Backward types) (hd : Among types.length decl.shape.typeIds) :
    Backward (types ++ [decl]) := by
  intro i found hf
  by_cases hi : i < types.length
  · rw [List.getElem?_append_left hi] at hf
    exact h i found hf
  · rw [List.getElem?_append_right (by omega)] at hf
    obtain ⟨rfl, rfl⟩ : i = types.length ∧ decl = found := by
      rw [List.getElem?_singleton] at hf
      split at hf
      · next he => exact ⟨by omega, Option.some.inj hf⟩
      · simp at hf
    exact hd

end Backward

namespace Resolve

open Description (Value)

theorem declaration_ok {types : Array TypeDecl} {oid : String} {t : TypeId} {decl : TypeDecl}
    (h : declaration types oid t = .ok decl) : types[t.index]? = some decl := by
  unfold declaration at h
  split at h
  · next hf =>
    cases h
    exact hf
  · simp at h

theorem findAlternative_mem {oid name : String} {alternatives : List Alternative} {index : Nat}
    {a : Alternative} (h : findAlternative oid name alternatives = .ok (index, a)) :
    a ∈ alternatives := by
  unfold findAlternative at h
  split at h
  · next hf =>
    cases h
    exact List.fst_mem_of_mem_zipIdx (List.mem_of_find?_eq_some hf)
  · simp at h

/-- An alternative of a declared type refers only to types before that one. -/
theorem alternative_among {types : Array TypeDecl} {oid name : String} {t : TypeId}
    {decl : TypeDecl} {index : Nat} {a : Alternative} (hb : Backward types.toList)
    (hd : declaration types oid t = .ok decl)
    (ha : findAlternative oid name decl.alternatives = .ok (index, a)) :
    Among types.size a.type.typeIds := by
  have hf := declaration_ok hd
  have hlt : t.index < types.size := (Array.getElem?_eq_some_iff.mp hf).1
  intro u hu
  refine Nat.lt_trans (hb t.index decl (by rwa [Array.getElem?_toList]) u ?_) hlt
  have hm := findAlternative_mem ha
  unfold TypeDecl.alternatives at hm
  split at hm
  · next hs =>
    rw [hs]
    exact List.mem_flatMap.mpr ⟨a, hm, hu⟩
  · simp at hm

/-- Fields of a declared type refer only to types before that one. -/
theorem fields_among {types : Array TypeDecl} {oid : String} {t : TypeId} {decl : TypeDecl}
    (hb : Backward types.toList) (hd : declaration types oid t = .ok decl) :
    ∀ f ∈ decl.fields, Among types.size f.type.typeIds := by
  intro f hm u hu
  have hf := declaration_ok hd
  have hlt : t.index < types.size := (Array.getElem?_eq_some_iff.mp hf).1
  refine Nat.lt_trans (hb t.index decl (by rwa [Array.getElem?_toList]) u ?_) hlt
  unfold TypeDecl.fields at hm
  split at hm
  · next hs =>
    rw [hs]
    exact List.mem_flatMap.mpr ⟨f, hm, List.mem_append_left _ hu⟩
  · simp at hm

theorem collectFields_among {n : Nat} {valueOf : Field → Option Valued} :
    ∀ {fields : List Field} {given : List (String × Initializer)},
      (∀ f ∈ fields, ∀ i, valueOf f = some (.ok i) → Among n i.typeIds) →
      collectFields valueOf fields = .ok given → Among n (fieldTypeIds given)
  | [], _, _, h => by
    cases h
    exact .nil
  | f :: rest, given, hv, h => by
    have hrest : ∀ r ∈ rest, ∀ i, valueOf r = some (.ok i) → Among n i.typeIds :=
      fun r hr => hv r (List.mem_cons_of_mem _ hr)
    unfold collectFields at h
    cases hf : valueOf f with
    | none =>
      rw [hf] at h
      exact collectFields_among hrest h
    | some v =>
      simp only [hf, except_bind_ok, except_pure_ok] at h
      obtain ⟨i, rfl, others, hc, rfl⟩ := h
      exact (hv f (by simp) i hf).append (collectFields_among hrest hc)

theorem itemTypeIds_map {α : Type} (f : α → Initializer) (hf : ∀ a, (f a).typeIds = [])
    (items : List α) :
    itemTypeIds (items.map f) = [] := by
  induction items with
  | nil => rfl
  | cons a rest ih => simp [itemTypeIds, hf, ih]

theorem variant_among {n index : Nat} {t : TypeId} {a : Alternative} {i : Initializer}
    (ht : Among n [t]) (ha : Among n a.type.typeIds) (hi : Among n i.typeIds) :
    Among n (Initializer.variant t index a.name a.type i).typeIds := by
  rw [Initializer.typeIds]
  exact ht.append (ha.append hi)

section Values

variable {types : Array TypeDecl}

/-- A value with no struct or variant in it. -/
def isPlain : Value → Bool
  | .struct _ | .structs _ | .variant .. | .variants _ => false
  | _ => true

theorem plain_typeIds {v : Value} (hv : isPlain v = true) {oid : String} {t : ValueType}
    {i : Initializer} (h : value types v oid t = .ok i) : i.typeIds = [] := by
  unfold value at h
  split at h
  case h_1 | h_2 | h_3 =>
    cases h
    rfl
  case h_4 | h_5 | h_6 =>
    cases h
    rw [Initializer.typeIds, itemTypeIds_map _ fun _ => rfl]
  case h_7 | h_8 | h_9 | h_10 => cases hv
  case h_11 => cases h

theorem struct_ok {fields : List (String × Value)} {oid : String} {t : ValueType} {i : Initializer}
    (h : value types (.struct fields) oid t = .ok i) :
    ∃ u, t = .struct u ∧
      structValue types (fields.map Prod.fst) (fieldValue types fields) oid u = .ok i := by
  cases t with
  | struct u => exact ⟨u, rfl, by rwa [value] at h⟩
  | _ => simp [value] at h

theorem structs_ok {items : List (List (String × Value))} {oid : String} {t : ValueType}
    {i : Initializer} (h : value types (.structs items) oid t = .ok i) :
    ∃ u is, t = .array (.struct u) ∧ structItems types items oid 0 u = .ok is ∧ i = .list is := by
  cases t with
  | array element =>
    cases element with
    | struct u =>
      simp only [value, except_bind_ok, except_pure_ok] at h
      obtain ⟨is, his, rfl⟩ := h
      exact ⟨u, is, rfl, his, rfl⟩
    | _ => simp [value] at h
  | _ => simp [value] at h

theorem variant_ok {name oid : String} {v : Value} {t : ValueType} {i : Initializer}
    (h : value types (.variant name v) oid t = .ok i) :
    ∃ u decl index a j, t = .variant u ∧ declaration types oid u = .ok decl ∧
      findAlternative oid name decl.alternatives = .ok (index, a) ∧
      value types v (oid ++ "/" ++ a.name) a.type = .ok j ∧
        i = .variant u index a.name a.type j := by
  cases t with
  | variant u =>
    simp only [value, except_bind_ok, except_pure_ok] at h
    obtain ⟨decl, hd, ⟨index, a⟩, ha, j, hj, rfl⟩ := h
    exact ⟨u, decl, index, a, j, rfl, hd, ha, hj, rfl⟩
  | _ => simp [value] at h

theorem variants_ok {items : List (String × Value)} {oid : String} {t : ValueType} {i : Initializer}
    (h : value types (.variants items) oid t = .ok i) :
    ∃ u is, t = .array (.variant u) ∧ variantItems types items oid 0 u = .ok is ∧ i = .list is := by
  cases t with
  | array element =>
    cases element with
    | variant u =>
      simp only [value, except_bind_ok, except_pure_ok] at h
      obtain ⟨is, his, rfl⟩ := h
      exact ⟨u, is, rfl, his, rfl⟩
    | _ => simp [value] at h
  | _ => simp [value] at h

/-- A struct value refers to what the values of its fields refer to. -/
theorem structValue_among (hb : Backward types.toList) {fields : List (String × Value)}
    {oid : String} {t : TypeId} {i : Initializer}
    (hfields : ∀ {name oid : String} {t : ValueType} {i : Initializer}, Among types.size t.typeIds →
      fieldValue types fields name oid t = some (.ok i) → Among types.size i.typeIds)
    (h : structValue types (fields.map Prod.fst) (fieldValue types fields) oid t = .ok i) :
    Among types.size i.typeIds := by
  simp only [structValue, except_bind_ok, except_pure_ok] at h
  obtain ⟨decl, hd, _, _, given, hg, rfl⟩ := h
  refine collectFields_among ?_ hg
  intro f hf j hj
  exact hfields (fields_among hb hd f hf) hj

mutual

/-- A value at a type refers only to declared types. -/
theorem value_among (hb : Backward types.toList) :
    ∀ (v : Value) {oid : String} {t : ValueType} {i : Initializer},
      Among types.size t.typeIds → value types v oid t = .ok i → Among types.size i.typeIds
  | .string _, _, _, _, _, h | .int32 _, _, _, _, _, h | .float32 _, _, _, _, _, h
  | .strings _, _, _, _, _, h | .int32s _, _, _, _, _, h | .float32s _, _, _, _, _, h => by
    rw [plain_typeIds rfl h]
    exact .nil
  | .struct fields, _, _, _, _, h => by
    obtain ⟨u, _, hstruct⟩ := struct_ok h
    exact structValue_among hb (fieldValue_among hb fields) hstruct
  | .structs items, _, _, _, _, h => by
    obtain ⟨u, is, rfl, his, rfl⟩ := structs_ok h
    exact structItems_among hb items his
  | .variant name v, _, _, _, ht, h => by
    obtain ⟨u, decl, index, a, j, rfl, hd, ha, hj, rfl⟩ := variant_ok h
    have halt := alternative_among hb hd ha
    exact variant_among ht halt (value_among hb v halt hj)
  | .variants items, _, _, _, ht, h => by
    obtain ⟨u, is, rfl, his, rfl⟩ := variants_ok h
    exact variantItems_among hb items (ht u (by simp [ValueType.typeIds])) his

theorem fieldValue_among (hb : Backward types.toList) :
    ∀ (fields : List (String × Value)) {name oid : String} {t : ValueType} {i : Initializer},
      Among types.size t.typeIds → fieldValue types fields name oid t = some (.ok i) →
        Among types.size i.typeIds
  | [], _, _, _, _, _, h => by simp [fieldValue] at h
  | (key, v) :: rest, name, oid, t, i, ht, h => by
    unfold fieldValue at h
    split at h
    · exact value_among hb v ht (Option.some.inj h)
    · exact fieldValue_among hb rest ht h

theorem structItems_among (hb : Backward types.toList) :
    ∀ (items : List (List (String × Value))) {oid : String} {k : Nat} {t : TypeId}
      {is : List Initializer}, structItems types items oid k t = .ok is → Among types.size
      (itemTypeIds is)
  | [], _, _, _, _, h => by
    simp only [structItems, Except.ok.injEq] at h
    subst h
    exact .nil
  | fields :: rest, _, _, _, _, h => by
    simp only [structItems, except_bind_ok, except_pure_ok] at h
    obtain ⟨i, hi, is, his, rfl⟩ := h
    exact (structValue_among hb (fieldValue_among hb fields) hi).append
      (structItems_among hb rest his)

theorem variantItems_among (hb : Backward types.toList) :
    ∀ (items : List (String × Value)) {oid : String} {k : Nat} {t : TypeId}
      {is : List Initializer}, t.index < types.size → variantItems types items oid k t = .ok is →
      Among types.size (itemTypeIds is)
  | [], _, _, _, _, _, h => by
    simp only [variantItems, Except.ok.injEq] at h
    subst h
    exact .nil
  | (name, v) :: rest, _, _, _, _, ht, h => by
    simp only [variantItems, except_bind_ok, except_pure_ok] at h
    obtain ⟨decl, hd, ⟨index, a⟩, ha, i, hi, is, his, rfl⟩ := h
    have halt := alternative_among hb hd ha
    exact (variant_among (by simpa [Among] using ht) halt (value_among hb v halt hi)).append
      (variantItems_among hb rest ht his)

end

end Values

/-- Every index on the ground leads to something on it. -/
structure Sound (g : Ground) : Prop where
  shared : ∀ e ∈ g.shared, e.2.index < g.constraints.length
  owned : ∀ c ∈ g.constraints, ∀ id, c.owner = some id → id.index < g.count
  constrained : ∀ p ∈ g.known, ∀ c, p.constraint = some c → c.index < g.constraints.length
  owners : ∀ t ∈ g.types, t.owner.index < g.count
  typed : ∀ p ∈ g.known, Among g.types.length p.typeIds
  backward : Backward g.types

namespace Sound

variable {g : Ground}

theorem start {shared : List Constraint} (unowned : ∀ c ∈ shared, c.owner = none) :
    Sound (start shared) where
  shared := by
    intro e he
    obtain ⟨⟨c, i⟩, hc, rfl⟩ := List.mem_map.mp he
    exact (List.mem_zipIdx' hc).1
  owned := by
    intro c hc id ho
    rw [unowned c hc] at ho
    cases ho
  constrained := by simp [Resolve.start]
  owners := by simp [Resolve.start]
  typed := by simp [Resolve.start]
  backward := by simp [Resolve.start, Backward]

/-- Constraints that are found by name are there. -/
theorem shared_lt (h : Sound g) {reference : String} {c : ConstraintId}
    (hc : g.shared.get? reference = some c) :
    c.index < g.constraints.length := by
  obtain ⟨before, after, he, _⟩ := List.lookup_eq_some_iff.mp hc
  exact h.shared (reference, c) (by simp [he])

/-- A constraint of the parameter that is entered is owned by it. -/
theorem enter (h : Sound g) {realm : Realm} {fqoid : String} {rule : Option Constraint}
    (hr : ∀ c ∈ rule, c.owner = some ⟨g.count⟩) : Sound (g.enter realm fqoid rule) where
  shared := by
    intro e he
    have := h.shared e he
    simp only [Ground.enter_constraints, List.length_append]
    omega
  owned := by
    intro c hc id ho
    rw [Ground.enter_count]
    rw [Ground.enter_constraints, List.mem_append] at hc
    rcases hc with hc | hc
    · exact Nat.lt_succ_of_lt (h.owned c hc id ho)
    · rw [hr c (by simpa using hc)] at ho
      cases ho
      exact Nat.lt_succ_self _
  constrained := by
    intro p hp c hc
    have := h.constrained p hp c hc
    simp only [Ground.enter_constraints, List.length_append]
    omega
  owners := fun t ht => Nat.lt_succ_of_lt (h.owners t ht)
  typed := h.typed
  backward := h.backward

/-- A parameter is finished after those below it, with its own types last. -/
theorem finish {realm : Realm} {fqoid : String} {p : Param} {own : Share} {below : Forest}
    (h : Sound ((g.enter realm fqoid own.rule).after below))
    (constrained : ∀ c, p.constraint = some c →
      c.index < (g.constraints ++ own.rule.toList ++ below.constraints).length)
    (owners : ∀ t ∈ own.types, t.owner = ⟨g.count⟩)
    (typed : Among (g.types ++ below.types ++ own.types).length p.typeIds)
    (backward : Backward (g.types ++ below.types ++ own.types)) :
    Sound (g.after (.tree p own below)) where
  shared := by simpa [Nat.add_assoc] using h.shared
  owned := by simpa [Nat.add_assoc, Nat.add_comm 1] using h.owned
  constrained := by
    intro q hq c hc
    simp only [Ground.after_known, Forest.params_tree, List.mem_append, List.mem_cons] at hq
    have old : q ∈ g.known ++ below.params →
        c.index < (g.after (.tree p own below)).constraints.length := by
      intro hm
      simpa [Nat.add_assoc] using h.constrained q hm c hc
    rcases hq with hq | rfl | hq
    · exact old (List.mem_append_left _ hq)
    · simpa [Nat.add_assoc] using constrained c hc
    · exact old (List.mem_append_right _ hq)
  owners := by
    intro t ht
    simp only [Ground.after_types, Forest.types_tree, ← List.append_assoc, List.mem_append] at ht
    rw [Ground.after_count, Forest.params_tree, List.length_cons]
    rcases ht with ht | ht
    · have := h.owners t (List.mem_append.mpr ht)
      simp only [Ground.after_count, Ground.enter_count] at this
      omega
    · rw [owners t ht]
      simp only
      omega
  typed := by
    intro q hq
    simp only [Ground.after_known, Forest.params_tree, List.mem_append, List.mem_cons] at hq
    have old : q ∈ g.known ++ below.params →
        Among (g.after (.tree p own below)).types.length q.typeIds := by
      intro hm
      refine (h.typed q hm).mono ?_
      simp
    rcases hq with hq | rfl | hq
    · exact old (List.mem_append_left _ hq)
    · simpa using typed
    · exact old (List.mem_append_right _ hq)
  backward := by simpa using backward

end Sound

/-- A copy refers to what its original refers to. -/
theorem Sound.graft {realm : Realm} {g : Ground} {parent : ParamId} {path : String}
    {source p : Param} {below : Forest} (hg : Sound g) (known : source ∈ g.known)
    (node : p = graft source parent path realm ⟨g.count⟩ below.entries) (hbelow : below.types = [])
    (hinner : Sound ((g.enter realm p.fqoid none).after below)) :
    Sound (g.after (.tree p {} below)) := by
  refine hinner.finish ?_ (by simp [Share.types]) ?_ ?_
  · intro c hc
    rw [node] at hc
    have := hg.constrained source known c hc
    simp only [List.length_append, Option.toList_none, List.append_nil]
    omega
  · have := hg.typed source known
    rw [node]
    exact this.mono (by simp)
  · simpa [hbelow, Share.types] using hg.backward

theorem Copied.sound {realm : Realm} {g : Ground} {parent : ParamId} {path : String}
    {entries : Entries ParamId} {f : Forest} (h : Copied realm g parent path entries f)
    (hg : Sound g) :
    Sound (g.after f) := by
  induction h with
  | nil => rwa [Ground.after_nil]
  | @cons g parent path key entries source p below rest known node fresh inner next ihInner
      ihNext =>
    have hrest := ihNext (hg.graft known node inner.types (ihInner (hg.enter (by simp))))
    rwa [← Ground.after_append] at hrest

/-- The constraint that a parameter adds is its own. -/
theorem Ruled.owned {g : Ground} {site : Site} {oid : String} {c : Option Description.Constraint}
    {rule : Option Constraint} {id : Option ConstraintId} (h : Ruled g site oid c rule id) :
    ∀ k ∈ rule, k.owner = some ⟨g.count⟩ := by
  cases h with
  | none => simp
  | shared => simp
  | inline => simp

/-- All constraints of a forest have an owner. -/
theorem Grown.constraints_owned {source : Source} {opened : List Path} {g : Ground} {site : Site}
    {entries : List (String × Description.Param)} {f : Forest}
    (h : Grown source opened g site entries f) :
    ∀ c ∈ f.constraints, c.owner ≠ none := by
  have htree : ∀ {g : Ground} {site : Site} {oid : String}
      {c : Option Description.Constraint} {p : Param}
        {own : Share} {below : Forest} {id : Option ConstraintId}, Ruled g site oid c own.rule id →
        (∀ c ∈ below.constraints, c.owner ≠ none) → ∀ c ∈ (Forest.tree p own below).constraints,
        c.owner ≠ none := by
    intro g site oid c p own below id ruled hbelow k hk
    rw [Forest.constraints_tree, List.mem_append] at hk
    rcases hk with hk | hk
    · simp [ruled.owned k (by simpa using hk)]
    · exact hbelow k hk
  induction h with
  | nil => simp
  | cons _ _ first next =>
    intro c hc
    rw [Forest.constraints_append, List.mem_append] at hc
    rcases hc with hc | hc
    · exact first c hc
    · exact next c hc
  | imported _ _ _ ih => exact ih
  | templated _ _ _ _ _ _ copied _ settled =>
    obtain ⟨_, ruled, _⟩ := settled.ruled
    exact htree ruled (by simp [copied.constraints])
  | composite _ _ _ _ _ _ _ _ settled ih =>
    obtain ⟨_, ruled, _⟩ := settled.ruled
    exact htree ruled ih
  | plain _ _ _ _ _ _ settled ih =>
    obtain ⟨_, ruled, _⟩ := settled.ruled
    exact htree ruled ih

section Settled

variable {g : Ground} {site : Site} {oid : String} {d : Description.Declaration}
  {binding : Option Binding} {typing : Typing} {below : Forest} {own : Share} {p : Param}

theorem Settled.constrained (h : Settled g site oid d binding typing below own p) :
    ∀ c, p.constraint = some c →
      c.index < (g.constraints ++ own.rule.toList ++ below.constraints).length := by
  intro c hc
  obtain ⟨k, hk, _⟩ := h.checked c hc
  exact (List.getElem?_eq_some_iff.mp hk).1

/-- A declared parameter refers to what its type and its template refer to. -/
theorem Settled.typed (h : Settled g site oid d binding typing below own p)
    (hb : Backward (g.types ++ below.types ++ own.types))
    (type : Among (g.types ++ below.types ++ own.types).length typing.type.typeIds)
    (container : Among (g.types ++ below.types ++ own.types).length typing.container.toList)
    (inherited : Among (g.types ++ below.types ++ own.types).length
      (valueTypeIds (binding.bind Binding.value))) :
    Among (g.types ++ below.types ++ own.types).length p.typeIds := by
  have hvalue : Among (g.types ++ below.types ++ own.types).length (valueTypeIds p.value) := by
    cases hv : d.value with
    | none =>
      rw [h.ungiven hv]
      exact inherited
    | some v =>
      obtain ⟨i, hi, he⟩ := h.given v hv
      have hsome := @value_among (g.types ++ below.types ++ own.types).toArray hb v _ _ _ type hi
      rw [he]
      simpa [valueTypeIds] using hsome
  rw [Param.typeIds, h.type, h.container]
  exact type.append (container.append hvalue)

end Settled

/-- A type from a template refers to what the template's type refers to. -/
theorem ofTemplate?_typeIds {declared : TypeCode} {template type : ValueType} {overElements : Bool}
    (h : ValueType.ofTemplate? declared template = some (type, overElements)) :
    type.typeIds = template.typeIds := by
  unfold ValueType.ofTemplate? at h
  split at h
  · cases h
    rfl
  · split at h
    · cases h
      rfl
    · simp at h

theorem element_typeIds (t : ValueType) : t.element.typeIds = t.typeIds := by cases t <;> rfl

theorem elementType_typeIds (declared : TypeCode) (t : TypeId) :
    (elementType declared t).typeIds = [t] := by
  unfold elementType
  split <;> rfl

/-- A struct or variant refers to what its children refer to. -/
theorem elementShape_among {n : Nat} {declared : TypeCode} {children : List Param}
    (h : ∀ c ∈ children, Among n c.typeIds) : Among n (elementShape declared children).typeIds := by
  unfold elementShape
  split
  · intro t ht
    simp only [structShape, Shape.typeIds, List.flatMap_map, List.mem_flatMap] at ht
    obtain ⟨c, hc, ht⟩ := ht
    refine h c hc t ?_
    rw [Param.typeIds]
    rcases List.mem_append.mp ht with ht | ht
    · exact List.mem_append_left _ ht
    · exact List.mem_append_right _ (List.mem_append_right _ ht)
  · intro t ht
    simp only [variantShape, Shape.typeIds, List.flatMap_map, List.mem_flatMap] at ht
    obtain ⟨c, hc, ht⟩ := ht
    exact h c hc t (List.mem_append_left _ ht)

section Kinds

variable {g : Ground} {below : Forest}

/-- The container over a template's elements refers to what the template refers to. -/
theorem templated_backward (site : Site) (oid : String) {template : Param} {type : ValueType}
    {overElements : Bool} {declared : TypeCode} (hg : Sound g) (known : template ∈ g.known)
    (fits : ValueType.ofTemplate? declared template.type = some (type, overElements)) :
    Backward (g.types ++ (templatedContainer g site oid type overElements).toList) := by
  unfold templatedContainer
  split
  · refine hg.backward.push ?_
    change Among _ type.element.typeIds
    rw [element_typeIds, ofTemplate?_typeIds fits]
    exact (hg.typed template known).left
  · simpa using hg.backward

/-- What a composite parameter declares refers to what is below it. -/
theorem composite_backward (site : Site) (oid : String) (declared : TypeCode) {realm : Realm}
    {fqoid : String} {rule : Option Constraint}
    (hb : Sound ((g.enter realm fqoid rule).after below)) :
    Backward (g.types ++ below.types ++ (compositeShare g site oid declared rule below).types) := by
  have hroots : ∀ c ∈ below.roots, Among (g.types ++ below.types).length c.typeIds := by
    intro c hc
    exact hb.typed c (List.mem_append_right _ (Forest.mem_params_of_mem_roots hc))
  have hbelow : Backward (g.types ++ below.types) := hb.backward
  have helement : Backward (g.types ++ below.types ++
      [⟨elementName oid declared, site.scope, ⟨g.count⟩, elementShape declared below.roots⟩]) :=
    hbelow.push (elementShape_among hroots)
  cases harray : declared.isArray with
  | false => simpa [compositeShare, Share.types, harray] using helement
  | true =>
    have hcontainer : Backward (g.types ++ below.types ++
        [⟨elementName oid declared, site.scope, ⟨g.count⟩, elementShape declared below.roots⟩] ++
        [⟨Text.capitalize oid, site.scope, ⟨g.count⟩,
          .array (elementType declared ⟨g.types.length + below.types.length⟩)⟩]) :=
      helement.push (by simp [Shape.typeIds, elementType_typeIds, Among])
    simpa [compositeShare, Share.types, harray] using hcontainer

/-- The type of a parameter with a template is the template's, or an array with its own
container. -/
theorem templatedTyping_among (site : Site) (oid : String) {template : Param} {type : ValueType}
    {overElements : Bool} {declared : TypeCode} (hg : Sound g) (known : template ∈ g.known)
    (fits : ValueType.ofTemplate? declared template.type = some (type, overElements)) :
    Among (g.types ++ (templatedContainer g site oid type overElements).toList).length
        (templatedTyping g template type overElements).type.typeIds ∧
      Among (g.types ++ (templatedContainer g site oid type overElements).toList).length
        (templatedTyping g template type overElements).container.toList ∧
      Among (g.types ++ (templatedContainer g site oid type overElements).toList).length
        (valueTypeIds (bindingOf template type overElements).value) := by
  have htemplate :
      Among (g.types ++ (templatedContainer g site oid type overElements).toList).length
          template.typeIds :=
    (hg.typed template known).mono (by simp)
  refine ⟨?_, ?_, ?_⟩
  · change Among _ type.typeIds
    rw [ofTemplate?_typeIds fits]
    exact htemplate.left
  · cases overElements with
    | false => exact htemplate.right.left
    | true =>
      cases hd :
        type.element.declared?.isSome <;> simp [templatedTyping, templatedContainer, hd, Among]
  · cases overElements with
    | false => exact htemplate.right.right
    | true => exact .nil

theorem compositeTyping_among (g : Ground) (site : Site) (oid : String) (declared : TypeCode)
    (rule : Option Constraint) (below : Forest) :
    Among (g.types ++ below.types ++ (compositeShare g site oid declared rule below).types).length
        (compositeTyping g declared below).type.typeIds ∧
      Among (g.types ++ below.types ++ (compositeShare g site oid declared rule below).types).length
        (compositeTyping g declared below).container.toList := by
  cases harray : declared.isArray with
  | false => simp [compositeTyping, compositeShare, Share.types, harray, elementType_typeIds, Among]
  | true =>
    -- an array adds the type of its elements and its container
    have htwo : (compositeShare g site oid declared rule below).types.length = 2 := by
      simp [compositeShare, Share.types, harray]
    simp only [compositeTyping, harray, if_true, ValueType.typeIds, elementType_typeIds, Among,
      List.mem_singleton, Option.toList_some, forall_eq, List.length_append, htwo]
    omega

theorem plainTyping_typeIds (declared : TypeCode) : (plainTyping declared).type.typeIds = [] := by
  rcases declared with _ | k | k
  · rfl
  · cases k <;> rfl
  · cases k <;> rfl

/-- What a parameter declares is owned by it. -/
theorem templatedContainer_owner {site : Site} {oid : String} {type : ValueType}
    {overElements : Bool} (rule : Option Constraint) :
    ∀ t ∈ ({ rule, container := templatedContainer g site oid type overElements } : Share).types,
      t.owner = ⟨g.count⟩ := by
  intro t ht
  unfold Share.types templatedContainer at ht
  split at ht
  · simp only [Option.toList_none, Option.toList_some, List.nil_append, List.mem_singleton] at ht
    rw [ht]
  · simp at ht

theorem compositeShare_owner {site : Site} {oid : String} {declared : TypeCode}
    {rule : Option Constraint} :
    ∀ t ∈ (compositeShare g site oid declared rule below).types, t.owner = ⟨g.count⟩ := by
  intro t ht
  cases harray : declared.isArray with
  | false =>
    simp only [compositeShare, Share.types, harray, Bool.false_eq_true, if_false,
      Option.toList_some, Option.toList_none, List.append_nil, List.mem_singleton] at ht
    rw [ht]
  | true =>
    simp only [compositeShare, Share.types, harray, if_true, Option.toList_some, List.cons_append,
      List.nil_append, List.mem_cons, List.not_mem_nil, or_false] at ht
    rcases ht with rfl | rfl <;> rfl

end Kinds

/-- Whatever a description grows into refers only to what is there. -/
theorem Grown.sound {source : Source} {opened : List Path} {g : Ground} {site : Site}
    {entries : List (String × Description.Param)} {f : Forest}
    (h : Grown source opened g site entries f) (hg : Sound g) : Sound (g.after f) := by
  induction h with
  | nil => rwa [Ground.after_nil]
  | cons _ _ first next =>
    rw [Ground.after_append]
    exact next (first hg)
  | imported _ _ _ ih => exact ih hg
  | @templated opened g site oid d templateOid template p type overElements below rule _ _ known _ _
      fits copied _ settled =>
    obtain ⟨_, ruled, _⟩ := settled.ruled
    have hback := templated_backward site oid hg known fits
    obtain ⟨htype, hcontainer, hvalue⟩ := templatedTyping_among site oid hg known fits
    have hall : g.types ++ below.types ++
        ({ rule, container := templatedContainer g site oid type overElements } : Share).types =
        g.types ++ (templatedContainer g site oid type overElements).toList := by
      simp [copied.types, Share.types]
    rw [← hall] at hback htype hcontainer hvalue
    exact (copied.sound (hg.enter ruled.owned)).finish settled.constrained
      (templatedContainer_owner rule) (settled.typed hback htype hcontainer hvalue) hback
  | @composite opened g site oid d params p below rule _ _ _ _ _ _ _ _ settled ih =>
    obtain ⟨_, ruled, _⟩ := settled.ruled
    have hbelow := ih (hg.enter ruled.owned)
    have hback := composite_backward site oid p.declared hbelow
    obtain ⟨htype, hcontainer⟩ := compositeTyping_among g site oid p.declared rule below
    exact hbelow.finish settled.constrained compositeShare_owner
      (settled.typed hback htype hcontainer .nil) hback
  | @plain opened g site oid d params p below rule _ _ _ _ _ _ settled ih =>
    obtain ⟨_, ruled, _⟩ := settled.ruled
    have hbelow := ih (hg.enter ruled.owned)
    have hback : Backward (g.types ++ below.types ++ ({ rule } : Share).types) := by
      simpa [Share.types] using hbelow.backward
    refine hbelow.finish settled.constrained (by simp [Share.types])
      (settled.typed hback ?_ .nil .nil) hback
    rw [plainTyping_typeIds]
    exact .nil

end Resolve

end DeviceModel
