import DeviceModel.Proofs.HeaderText
import DeviceModel.Proofs.Layout

namespace DeviceModel.Cpp

open Resolve

mutual

theorem mem_typeIds_of_spelledByValue {t : TypeId} :
    ∀ {v : Initializer}, t ∈ spelledByValue v → t ∈ v.typeIds
  | .string _, h | .int32 _, h | .float32 _, h => by simp [spelledByValue] at h
  | .list items, h => by
    rw [spelledByValue] at h
    rw [Initializer.typeIds]
    exact mem_typeIds_of_spelledByItems h
  | .struct fields, h => by
    rw [spelledByValue] at h
    rw [Initializer.typeIds]
    exact mem_typeIds_of_spelledByFields h
  | .variant u _ _ type v, h => by
    simp only [spelledByValue, List.mem_cons, List.mem_append] at h
    simp only [Initializer.typeIds, List.mem_cons, List.mem_append]
    rcases h with rfl | h | h
    · exact .inl rfl
    · split at h
      · exact .inr (.inl h)
      · simp at h
    · exact .inr (.inr (mem_typeIds_of_spelledByValue h))

theorem mem_typeIds_of_spelledByItems {t : TypeId} :
    ∀ {items : List Initializer}, t ∈ spelledByItems items → t ∈ itemTypeIds items
  | [], h => by simp [spelledByItems] at h
  | v :: rest, h => by
    simp only [spelledByItems, List.mem_append] at h
    simp only [itemTypeIds, List.mem_append]
    rcases h with h | h
    · exact .inl (mem_typeIds_of_spelledByValue h)
    · exact .inr (mem_typeIds_of_spelledByItems h)

theorem mem_typeIds_of_spelledByFields {t : TypeId} :
    ∀ {fields : List (String × Initializer)}, t ∈ spelledByFields fields → t ∈ fieldTypeIds fields
  | [], h => by simp [spelledByFields] at h
  | (_, v) :: rest, h => by
    simp only [spelledByFields, List.mem_append] at h
    simp only [fieldTypeIds, List.mem_append]
    rcases h with h | h
    · exact .inl (mem_typeIds_of_spelledByValue h)
    · exact .inr (mem_typeIds_of_spelledByFields h)

end

/-- A parameter is spelled with types that it refers to. -/
theorem spelledByType_among {n : Nat} {p : Param} (h : Among n p.typeIds) :
    Among n (spelledByType p) := by
  unfold spelledByType
  cases hc : p.container with
  | none => exact h.left
  | some t =>
    have hcontainer := h.right.left
    rwa [hc] at hcontainer

theorem spelledByMember_among {n : Nat} {p : Param} (h : Among n p.typeIds) :
    Among n (spelledByMember p) := by
  refine (spelledByType_among h).append ?_
  intro t ht
  obtain ⟨v, hv, ht⟩ := List.mem_flatMap.mp ht
  exact h.right.right t (List.mem_flatMap.mpr ⟨v, hv, mem_typeIds_of_spelledByValue ht⟩)

/-- The lines complete the next types of the arena, from one to before another, and spell only those
that are complete. -/
def InOrder (types : Array TypeDecl) : Nat → List Written → Nat → Prop
  | k, [], k' => k = k'
  | k, w :: rest, k' =>
    Among k w.spells ∧
      match w.completes with
      | none => InOrder types k rest k'
      | some c =>
        (∃ t, types[k]? = some t ∧ w.nest = t.scope ∧ c = ⟨⟨k⟩, t.name, t.shapeName⟩) ∧
          InOrder types (k + 1) rest k'

namespace InOrder

variable {types : Array TypeDecl} {k k' k'' : Nat}

theorem append {ws ws' : List Written} (h : InOrder types k ws k') (h' : InOrder types k' ws' k'') :
    InOrder types k (ws ++ ws') k'' := by
  induction ws generalizing k with
  | nil =>
    cases h
    exact h'
  | cons w rest ih =>
    obtain ⟨hs, h⟩ := h
    refine ⟨hs, ?_⟩
    cases hc : w.completes with
    | none =>
      simp only [hc] at h
      exact ih h
    | some c =>
      simp only [hc] at h
      exact ⟨h.1, ih h.2⟩

/-- Lines that complete nothing. -/
theorem of_incomplete :
    ∀ {ws : List Written}, (∀ w ∈ ws, w.completes = none ∧ Among k w.spells) → InOrder types k ws k
  | [], _ => rfl
  | w :: rest, h => by
    obtain ⟨hc, hs⟩ := h w (by simp)
    refine ⟨hs, ?_⟩
    rw [hc]
    exact of_incomplete fun v hv => h v (List.mem_cons_of_mem _ hv)

/-- A line that completes the next type. -/
theorem single {w : Written} {t : TypeDecl} (ht : types[k]? = some t) (hs : Among k w.spells)
    (hn : w.nest = t.scope) (hw : w.completes = some ⟨⟨k⟩, t.name, t.shapeName⟩) :
    InOrder types k [w] (k + 1) := by
  refine ⟨hs, ?_⟩
  rw [hw]
  exact ⟨⟨t, ht, hn, rfl⟩, rfl⟩

theorem enclosed {nest : List String} {name opening closing : String} {block : Opened}
    {inner : List Written} (h : InOrder types k inner k') :
    InOrder types k (Cpp.enclosed nest name block opening closing none inner) k' := by
  refine ⟨.nil, ?_⟩
  exact h.append ⟨.nil, rfl⟩

theorem enclosed_some {name opening closing : String} {block : Opened} {inner : List Written}
    {t : TypeDecl} (h : InOrder types k inner k') (ht : types[k']? = some t) (shape : String)
    (hs : t.shapeName = shape) :
    InOrder types k
      (Cpp.enclosed t.scope name block opening closing (some ⟨⟨k'⟩, t.name, shape⟩) inner)
      (k' + 1) := by
  subst hs
  refine ⟨.nil, ?_⟩
  exact h.append (.single ht .nil rfl rfl)

/-- Each type in between is completed by some line in the blocks of its scope. -/
theorem mem {ws : List Written} (h : InOrder types k ws k') {i : Nat} (hk : k ≤ i) (hi : i < k') :
    ∃ w ∈ ws, ∃ t, types[i]? = some t ∧ w.nest = t.scope ∧
      w.completes = some ⟨⟨i⟩, t.name, t.shapeName⟩ := by
  induction ws generalizing k with
  | nil =>
    cases h
    omega
  | cons w rest ih =>
    obtain ⟨_, h⟩ := h
    have later : (∃ v ∈ rest, ∃ t, types[i]? = some t ∧ v.nest = t.scope ∧
          v.completes = some ⟨⟨i⟩, t.name, t.shapeName⟩) →
        ∃ v ∈ w :: rest, ∃ t, types[i]? = some t ∧ v.nest = t.scope ∧
          v.completes = some ⟨⟨i⟩, t.name, t.shapeName⟩ := by
      rintro ⟨v, hv, hc⟩
      exact ⟨v, List.mem_cons_of_mem _ hv, hc⟩
    cases hc : w.completes with
    | none =>
      simp only [hc] at h
      exact later (ih h hk)
    | some c =>
      simp only [hc] at h
      obtain ⟨⟨t, ht, hn, rfl⟩, h⟩ := h
      rcases Nat.eq_or_lt_of_le hk with rfl | hlt
      · exact ⟨w, by simp, t, ht, hn, hc⟩
      · exact later (ih h hlt)

/-- What a line spells is complete before it. -/
theorem split {pre post : List Written} {w : Written} (h : InOrder types k (pre ++ w :: post) k') :
    ∃ m, InOrder types k pre m ∧ Among m w.spells := by
  induction pre generalizing k with
  | nil => exact ⟨k, rfl, h.1⟩
  | cons v pre ih =>
    obtain ⟨hs, h⟩ := h
    cases hc : v.completes with
    | none =>
      simp only [hc] at h
      obtain ⟨m, hm, hw⟩ := ih h
      refine ⟨m, ⟨hs, ?_⟩, hw⟩
      rw [hc]
      exact hm
    | some c =>
      simp only [hc] at h
      obtain ⟨m, hm, hw⟩ := ih h.2
      refine ⟨m, ⟨hs, ?_⟩, hw⟩
      rw [hc]
      exact ⟨h.1, hm⟩

end InOrder

section Containers

variable {d : Device} {g : Ground} {f : Forest} {p : Param}

/-- A container from before is not the parameter's own. -/
theorem ownContainer_old (hd : Holds d g f) (hg : Sound g) (hid : p.id = ⟨g.count⟩)
    (hc : Among g.types.length p.container.toList) : ownContainer d p = [] := by
  unfold ownContainer
  cases hp : p.container with
  | none => rfl
  | some t =>
    rw [hp] at hc
    obtain ⟨decl, hmem, hdecl⟩ := hd.typeDecl?_old (hc t (by simp))
    have howner : decl.owner ≠ p.id := by
      intro he
      have hlt := hg.owners decl hmem
      rw [he, hid] at hlt
      exact Nat.lt_irrefl _ hlt
    simp only [hdecl]
    split
    · next heq =>
      cases heq
      rw [if_neg howner]
    · rfl

/-- A container that the parameter declares. -/
theorem ownContainer_own {t : TypeId} {name : String} {scope : List String} {element : ValueType}
    (hp : p.container = some t) (ht : d.typeDecl? t = some ⟨name, scope, p.id, .array element⟩) :
    ownContainer d p = [.container t name element] := by
  simp [ownContainer, hp, ht]

end Containers

section Declarations

variable {d : Device} {p : Param} {t : TypeId} {name : String} {scope : List String}
  {owner : ParamId}

theorem declarations_struct {fields : List Field} (hp : p.declares = some t)
    (ht : d.typeDecl? t = some ⟨name, scope, owner, .struct fields⟩) (depth : Nat)
    (inStruct : Bool) :
    declarations d (depth + 1) inStruct p =
      .struct t name ((d.children p.id).flatMap (declarations d depth true)) (d.children p.id)
        :: ownContainer d p := by
  simp [declarations, hp, ht]

theorem declarations_variant {alternatives : List Alternative} (hp : p.declares = some t)
    (ht : d.typeDecl? t = some ⟨name, scope, owner, .variant alternatives⟩) (depth : Nat)
    (inStruct : Bool) :
    declarations d (depth + 1) inStruct p =
      holder d p inStruct ((d.children p.id).flatMap (declarations d depth inStruct))
        ++ .variant t name (d.children p.id) :: ownContainer d p := by
  simp [declarations, hp, ht]

theorem declarations_undeclared (hp : p.declares = none) (depth : Nat) (inStruct : Bool) :
    declarations d (depth + 1) inStruct p =
      (if p.isCommand then holder d p inStruct
        ((d.children p.id).flatMap (declarations d depth inStruct)) else [])
        ++ ownContainer d p := by
  simp [declarations, hp]

/-- Below a holder, what declares nothing itself declares nothing at all. -/
theorem declarations_eq_nil (hp : declaresAnything d p = false) (hc : p.isCommand = false)
    (depth : Nat) (inStruct : Bool) : declarations d depth inStruct p = [] := by
  cases depth with
  | zero => rfl
  | succ depth =>
    simp only [declaresAnything, Bool.or_eq_false_iff, Bool.not_eq_eq_eq_not, Bool.not_false,
      Option.isSome_eq_false_iff, Option.isNone_iff_eq_none, List.isEmpty_iff] at hp
    simp [declarations_undeclared hp.1, hc, hp.2]

/-- A holder may be left out, since then there is nothing in it. -/
theorem InOrder.holder {k k' : Nat} {nest : List String} {depth : Nat} {inStruct : Bool}
    (hc : ∀ c ∈ d.children p.id, c.isCommand = false)
    (h : InOrder d.types k (declsWritten d (nest ++ [holderName p.oid])
      ((d.children p.id).flatMap (declarations d depth inStruct))) k') :
    InOrder d.types k (declsWritten d nest
      (holder d p inStruct ((d.children p.id).flatMap (declarations d depth inStruct)))) k' := by
  unfold Cpp.holder
  cases hany : (d.children p.id).any (declaresAnything d) with
  | true =>
    cases inStruct <;> simpa [Decl.written, holderName] using h.enclosed
  | false =>
    have hnone : (d.children p.id).flatMap (declarations d depth inStruct) = [] := by
      rw [List.flatMap_eq_nil_iff]
      intro c hm
      exact declarations_eq_nil (by simpa using List.any_eq_false.mp hany c hm)
        (hc c hm) depth inStruct
    rw [hnone] at h
    simpa using h

end Declarations

section Growth

variable {d : Device} {g : Ground} {site : Site} {oid : String} {p : Param} {below : Forest}

/-- A composite parameter declares a container if it is an array. -/
theorem composite_ownContainer {declared : TypeCode} {rule : Option Constraint}
    (hd : Holds d g (.tree p (compositeShare g site oid declared rule below) below))
    (hid : p.id = ⟨g.count⟩) (hc : p.container = (compositeTyping g declared below).container) :
    ownContainer d p =
      if declared.isArray then
        [.container ⟨g.types.length + below.types.length + 1⟩ (Text.capitalize oid)
          (elementType declared ⟨g.types.length + below.types.length⟩)]
      else [] := by
  cases harray : declared.isArray with
  | false =>
    have hp : p.container = none := by rw [hc]; simp [compositeTyping, harray]
    simp [ownContainer, hp]
  | true =>
    have hp : p.container = some ⟨g.types.length + below.types.length + 1⟩ := by
      rw [hc]
      simp [compositeTyping, harray]
    have ht := hd.typeDecl? (i := 1) (t := ⟨Text.capitalize oid, site.scope, ⟨g.count⟩,
      .array (elementType declared ⟨g.types.length + below.types.length⟩)⟩)
      (by simp [compositeShare, Share.types, harray])
    rw [← hid] at ht
    rw [ownContainer_own hp ht, if_pos rfl]

/-- The container of a composite parameter is completed after its element. -/
theorem composite_container {declared : TypeCode} {rule : Option Constraint}
    (hd : Holds d g (.tree p (compositeShare g site oid declared rule below) below))
    (hid : p.id = ⟨g.count⟩) (hc : p.container = (compositeTyping g declared below).container) :
    InOrder d.types (g.types.length + below.types.length + 1)
      (declsWritten d site.scope (ownContainer d p))
      (g.types.length + (below.types ++
        (compositeShare g site oid declared rule below).types).length) := by
  rw [composite_ownContainer hd hid hc]
  cases harray : declared.isArray with
  | false => simp [compositeShare, Share.types, harray, InOrder, Nat.add_assoc]
  | true =>
    have ht := hd.typeDecl? (i := 1) (t := ⟨Text.capitalize oid, site.scope, ⟨g.count⟩,
      .array (elementType declared ⟨g.types.length + below.types.length⟩)⟩)
      (by simp [compositeShare, Share.types, harray])
    have hall : g.types.length + (below.types ++
        (compositeShare g site oid declared rule below).types).length =
          g.types.length + below.types.length + 1 + 1 := by
      simp [compositeShare, Share.types, harray, Nat.add_assoc]
    rw [hall, if_pos rfl]
    simp only [declsWritten_cons, declsWritten_nil, List.append_nil, Decl.written]
    exact .single ht (by simp [elementType_typeIds, Among]) rfl rfl

/-- The struct or variant of a composite parameter is completed after what is below it. -/
theorem composite_element {declared : TypeCode} {rule : Option Constraint} {realm : Realm}
    {fqoid : String} {depth : Nat} {inStruct : Bool}
    (hd : Holds d g (.tree p (compositeShare g site oid declared rule below) below))
    (hbelow : Sound ((g.enter realm fqoid rule).after below)) (hoid : p.oid = oid)
    (hp : p.declares = some ⟨g.types.length + below.types.length⟩)
    (hchildren : p.children = below.entries) (hcommand : ∀ c ∈ below.roots, c.isCommand = false)
    (hc : InOrder d.types (g.types.length + below.types.length + 1)
      (declsWritten d site.scope (ownContainer d p))
      (g.types.length + (below.types ++
      (compositeShare g site oid declared rule below).types).length))
    (ih : ∀ inStruct,
      InOrder d.types g.types.length
      (declsWritten d (site.scope ++ [innerName oid declared])
      (below.roots.flatMap (declarations d depth inStruct)))
      (g.types.length + below.types.length)) :
    InOrder d.types g.types.length
      (declsWritten d site.scope (declarations d (depth + 1) inStruct p))
      (g.types.length + (below.types ++
        (compositeShare g site oid declared rule below).types).length) := by
  have hroots := hd.children hchildren
  have htyped : ∀ c ∈ below.roots, Among (g.types.length + below.types.length) c.typeIds := by
    intro c hm
    simpa using hbelow.typed c (List.mem_append_right _ (Forest.mem_params_of_mem_roots hm))
  have ht := hd.typeDecl? (i := 0) (t := ⟨elementName oid declared, site.scope, ⟨g.count⟩,
    elementShape declared below.roots⟩) (by simp [compositeShare, Share.types])
  cases hstruct : makesStruct declared with
  | true =>
    rw [elementShape, hstruct, if_pos rfl] at ht
    rw [declarations_struct hp ht, hroots]
    simp only [declsWritten_cons, Decl.written]
    refine .append
      (.enclosed_some (.append (.append ?_ (.of_incomplete ?_)) (.of_incomplete ?_)) ht _ rfl) hc
    · have h := ih true
      rwa [innerName, hstruct, if_pos rfl] at h
    · intro w hw
      obtain ⟨c, hm, rfl⟩ := List.mem_map.mp hw
      exact ⟨rfl, spelledByMember_among (htyped c hm)⟩
    · intro w hw
      rw [List.mem_singleton.mp hw]
      exact ⟨rfl, .nil⟩
  | false =>
    rw [elementShape, hstruct, if_neg Bool.false_ne_true] at ht
    rw [declarations_variant hp ht]
    rw [declsWritten_append, declsWritten_cons]
    have hholder : InOrder d.types g.types.length
        (declsWritten d site.scope
          (holder d p inStruct ((d.children p.id).flatMap (declarations d depth inStruct))))
        (g.types.length + below.types.length) := by
      refine .holder (by rwa [hroots]) ?_
      have h := ih inStruct
      rwa [innerName, hstruct, if_neg Bool.false_ne_true, ← hoid, ← hroots] at h
    have hvariant : InOrder d.types (g.types.length + below.types.length)
        (Decl.written d site.scope
          (.variant ⟨g.types.length + below.types.length⟩ (elementName oid declared)
            (d.children p.id)))
        (g.types.length + below.types.length + 1) := by
      refine .single ht ?_ rfl rfl
      rw [hroots]
      intro t hm
      obtain ⟨c, hc, hm⟩ := List.mem_flatMap.mp hm
      exact spelledByType_among (htyped c hc) t hm
    exact hholder.append (hvariant.append hc)

/-- A parameter with a template declares a container if it is an array over the template's type. -/
theorem templated_ownContainer {template : Param} {type : ValueType} {overElements : Bool}
    {rule : Option Constraint}
    (hd : Holds d g
      (.tree p { rule, container := templatedContainer g site oid type overElements } below))
    (hg : Sound g) (known : template ∈ g.known) (hbelow : below.types = []) (hid : p.id = ⟨g.count⟩)
    (hc : p.container = (templatedTyping g template type overElements).container) :
    ownContainer d p =
      if overElements && type.element.declared?.isSome then
        [.container ⟨g.types.length⟩ (Text.capitalize oid) type.element]
      else [] := by
  cases overElements with
  | false =>
    refine ownContainer_old hd hg hid ?_
    rw [hc]
    exact (hg.typed template known).right.left
  | true =>
    cases hdeclared : type.element.declared?.isSome with
    | false =>
      have hp : p.container = none := by rw [hc]; simp [templatedTyping, hdeclared]
      simp [ownContainer, hp]
    | true =>
      have hp : p.container = some ⟨g.types.length⟩ := by rw [hc]; simp [templatedTyping, hdeclared]
      have ht := hd.typeDecl? (i := 0)
        (t := ⟨Text.capitalize oid, site.scope, ⟨g.count⟩, .array type.element⟩)
        (by simp [Share.types, templatedContainer, hdeclared])
      rw [← hid, hbelow] at ht
      rw [ownContainer_own hp ht]
      rfl

/-- A parameter with a template completes at most a container. -/
theorem templated_container {template : Param} {type : ValueType} {overElements : Bool}
    {declared : TypeCode} {rule : Option Constraint}
    (hd : Holds d g
      (.tree p { rule, container := templatedContainer g site oid type overElements } below))
    (hg : Sound g) (known : template ∈ g.known)
    (fits : ValueType.ofTemplate? declared template.type = some (type, overElements))
    (hbelow : below.types = []) (hid : p.id = ⟨g.count⟩)
    (hc : p.container = (templatedTyping g template type overElements).container) :
    InOrder d.types g.types.length (declsWritten d site.scope (ownContainer d p))
      (g.types.length + (templatedContainer g site oid type overElements).toList.length) := by
  rw [templated_ownContainer hd hg known hbelow hid hc, templatedContainer]
  split
  · next hover =>
    have ht := hd.typeDecl? (i := 0)
      (t := ⟨Text.capitalize oid, site.scope, ⟨g.count⟩, .array type.element⟩)
      (by simp [Share.types, templatedContainer, hover])
    rw [hbelow] at ht
    simp only [declsWritten_cons, declsWritten_nil, List.append_nil, Decl.written]
    refine .single ht ?_ rfl rfl
    rw [element_typeIds, ofTemplate?_typeIds fits]
    exact (hg.typed template known).left
  · simp [InOrder]

end Growth

/-- What a description grows into is declared in the order of the arena. -/
theorem grown_inOrder {d : Device} {source : Source} {opened : List Path} {g : Ground} {site : Site}
    {entries : List (String × Description.Param)} {f : Forest}
    (h : Grown source opened g site entries f) (hg : Sound g) (hd : Holds d g f) (depth : Nat)
    (hn : f.params.length ≤ depth) (inStruct : Bool) :
    InOrder d.types g.types.length
      (declsWritten d site.scope (f.roots.flatMap (declarations d depth inStruct)))
      (g.types.length + f.types.length) := by
  induction h generalizing depth inStruct with
  | nil => simp [InOrder]
  | cons first next ihFirst ihNext =>
    rw [Forest.params_append, List.length_append] at hn
    have hfirst := ihFirst hg hd.left depth (by omega) inStruct
    have hnext := ihNext (first.sound hg) hd.right depth (by omega) inStruct
    rw [Ground.after_types, List.length_append] at hnext
    rw [Forest.roots_append, List.flatMap_append, declsWritten_append, Forest.types_append,
      List.length_append, ← Nat.add_assoc]
    exact hfirst.append hnext
  | imported _ _ _ ih => exact ih hg hd depth hn inStruct
  | @templated opened g site oid d' templateOid template p type overElements below rule _ referred
      known _ _ fits copied _ settled =>
    obtain ⟨depth, rfl⟩ : ∃ n, depth = n + 1 := ⟨depth - 1, by simp at hn; omega⟩
    have hc := templated_container hd hg known fits copied.types settled.id settled.container
    have hp : declarations d (depth + 1) inStruct p = ownContainer d p := by
      have hdeclares : p.declares = none := settled.declares
      simp [declarations_undeclared hdeclares, settled.isCommand, settled.not_command referred]
    simpa [hp, copied.types, Share.types] using hc
  | @composite opened g site oid d' params p below rule _ _ _ _ _ _ _ grown settled ih =>
    obtain ⟨depth, rfl⟩ : ∃ n, depth = n + 1 := ⟨depth - 1, by simp at hn; omega⟩
    simp only [Forest.params_tree, List.length_cons, Nat.add_le_add_iff_right] at hn
    obtain ⟨_, ruled, _⟩ := settled.ruled
    have hentered : Sound (g.enter site.realm (site.fqoid oid) rule) := hg.enter ruled.owned
    have hc := composite_container hd settled.id settled.container
    simp only [Forest.roots_tree, List.flatMap_singleton, Forest.types_tree]
    exact composite_element hd (grown.sound hentered) settled.oid settled.declares settled.children
      (fun c hm => (grown.isCommand c hm).trans (Site.below_isCommand ..)) hc
      (ih hentered (hd.inner _ _) depth hn)
  | @plain opened g site oid d' params p below rule _ _ _ _ allowed grown settled ih =>
    obtain ⟨depth, rfl⟩ : ∃ n, depth = n + 1 := ⟨depth - 1, by simp at hn; omega⟩
    simp only [Forest.params_tree, List.length_cons, Nat.add_le_add_iff_right] at hn
    obtain ⟨_, ruled, _⟩ := settled.ruled
    have hinner := ih (hg.enter ruled.owned) (hd.inner _ _) depth hn inStruct
    have hdeclares : p.declares = none := settled.declares
    have hcontainer : p.container = none := settled.container
    have hroots := hd.children settled.children
    simp only [Forest.roots_tree, List.flatMap_singleton, declarations_undeclared hdeclares,
      ownContainer, hcontainer, List.append_nil, settled.isCommand, Forest.types_tree, Share.types,
      Option.toList_none]
    cases hcommand : site.isCommand with
    | true =>
      rw [if_pos rfl]
      refine .holder ?_ ?_
      · rw [hroots]
        exact fun c hm => (grown.isCommand c hm).trans (Site.below_isCommand ..)
      · rw [hroots, settled.oid]
        exact hinner
    | false =>
      obtain rfl : params = [] := allowed.resolve_right (by simp [hcommand])
      cases grown.eq_nil
      simp [InOrder]

section Whole

variable {source : Source} {importRoot : Path} {description : Description.Device} {d : Device}
  {shared : List Constraint} {params commands : Forest}
  (h : Resolved source importRoot description d shared params commands)

include h

/-- What a device declares is what its forests declare. -/
theorem types_eq :
    types d = params.roots.flatMap (declarations d (d.nodes.size + 1) false) ++
      commands.roots.flatMap (declarations d (d.nodes.size + 1) false) := by
  rw [types, h.params_eq, h.commands_eq, List.flatMap_append]
  congr 1
  · refine Forest.flatMap_entries fun p hp => ?_
    have hm := Forest.mem_params_of_mem_roots hp
    simp only [h.found p (by simp [hm])]
  · refine Forest.flatMap_entries fun p hp => ?_
    have hm := Forest.mem_params_of_mem_roots hp
    simp only [h.found p (by simp [hm])]

theorem typesWritten_inOrder : InOrder d.types 0 (typesWritten d) d.types.size := by
  have hnodes : d.nodes.size = params.params.length + commands.params.length := by
    rw [← Array.length_toList, h.nodes, List.length_append]
  have htypes : d.types.size = params.types.length + commands.types.length := by
    rw [← Array.length_toList, h.types, List.length_append]
  have hparams :=
    grown_inOrder h.params_grown (.start h.unowned) h.holds.left (d.nodes.size + 1) (by omega) false
  have hcommands :=
    grown_inOrder h.commands_grown h.sound h.holds.right (d.nodes.size + 1) (by omega) false
  rw [typesWritten, types_eq h, declsWritten_append, htypes]
  simp only [start, Ground.after_types, List.nil_append, List.length_nil,
    Nat.zero_add] at hparams hcommands
  exact hparams.append hcommands

end Whole

/-- A struct around a variant, an array with the struct as its template, and a command with a
struct. -/
def nestedTypes : Description.Device :=
  .small
    [("point",
      ⟨.ofType "STRUCT", [("x", ⟨.ofType "INT32", []⟩), ("choice", ⟨.ofType "STRUCT_VARIANT",
        [("inner", ⟨.ofType "STRUCT", [("y", ⟨.ofType "STRING", []⟩)]⟩),
          ("n", ⟨.ofType "INT32", []⟩)]⟩)]⟩),
      ("points",
        ⟨{ Description.Declaration.ofType "STRUCT_ARRAY" with template := some "point" }, []⟩)]
    [("reset", ⟨.ofType "EMPTY", [("options", ⟨.ofType "STRUCT", []⟩)]⟩)]

end DeviceModel.Cpp
