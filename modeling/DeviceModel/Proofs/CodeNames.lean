import DeviceModel.Proofs.CheckedCode
import DeviceModel.Proofs.Collision
import DeviceModel.Proofs.Initializers
import DeviceModel.Proofs.MarkedCode
import DeviceModel.Proofs.Variables

namespace DeviceModel

namespace Text

/-- Whether an identifier may go on with the text. -/
def isWord (s : String) : Bool := s.toList.all isIdentifierRest

/-- The names that are made of an oid: its own, and those of its type, of the elements of an array
and of a holder. -/
def spellings (oid : String) : List String :=
  [oid, capitalize oid, capitalize oid ++ "_elem", "_" ++ oid]

theorem isWord_append (s t : String) : isWord (s ++ t) = (isWord s && isWord t) := by
  rw [isWord, String.toList_append, List.all_append]
  rfl

theorem isIdentifierRest_of_start {c : Char} (h : isIdentifierStart c = true) :
    isIdentifierRest c = true := by
  simp only [isIdentifierStart, isIdentifierRest, Char.isAlphanum, Bool.or_eq_true] at h ⊢
  rcases h with h | h
  · exact .inl (.inl h)
  · exact .inr h

theorem isIdentifier_iff {s : String} :
    isIdentifier s = true ↔ isWord s = true ∧ ∃ c rest, s.toList = c :: rest ∧
      isIdentifierStart c = true := by
  unfold isIdentifier isWord
  split
  · next hs => simp [hs]
  · next c rest hs =>
    rw [hs, Bool.and_eq_true, List.all_cons, Bool.and_eq_true]
    constructor
    · rintro ⟨hc, hrest⟩
      exact ⟨⟨isIdentifierRest_of_start hc, hrest⟩, c, rest, rfl, hc⟩
    · rintro ⟨⟨_, hrest⟩, c', rest', heq, hc⟩
      cases heq
      exact ⟨hc, hrest⟩

/-- What comes after the first character of an identifier is a word. -/
theorem isIdentifier_append {s : String} (h : isIdentifier s = true) (t : String) :
    isIdentifier (s ++ t) = isWord t := by
  obtain ⟨hword, c, rest, hs, hc⟩ := isIdentifier_iff.mp h
  rw [Bool.eq_iff_iff, isIdentifier_iff, isWord_append, hword, Bool.true_and]
  refine ⟨fun ht => ht.1, fun ht => ⟨ht, c, rest ++ t.toList, ?_, hc⟩⟩
  rw [String.toList_append, hs, List.cons_append]

theorem isIdentifier_underscore (s : String) : isIdentifier ("_" ++ s) = isWord s :=
  isIdentifier_append (by decide) s

theorem isWord_flatten (s : String) : isWord (flatten s) = true := by
  rw [isWord, flatten, String.toList_map, List.all_map, List.all_eq_true]
  intro c _
  dsimp only [Function.comp_apply]
  split
  · next hc => simp [isIdentifierRest, hc]
  · rfl

theorem isIdentifierStart_toUpper {c : Char} (h : isIdentifierStart c = true) :
    isIdentifierStart c.toUpper = true := by
  have hall : ∀ n < 128, isIdentifierStart (Char.ofNat n) = true →
      isIdentifierStart (Char.ofNat n).toUpper = true := by
    decide
  have hc := hall c.toNat (isIdentifierStart_ascii h)
  rw [Char.ofNat_toNat] at hc
  exact hc h

theorem isIdentifier_capitalize {s : String} (h : isIdentifier s = true) :
    isIdentifier (capitalize s) = true := by
  obtain ⟨hword, _⟩ := isIdentifier_iff.mp h
  obtain ⟨c, rest, hs, hstart, _, htext⟩ := toList_capitalize h
  have hupper := isIdentifierStart_toUpper hstart
  rw [isIdentifier_iff]
  refine ⟨?_, _, _, htext, hupper⟩
  rw [isWord, hs, List.all_cons, Bool.and_eq_true] at hword
  rw [isWord, htext, List.all_cons, isIdentifierRest_of_start hupper, hword.2]
  rfl

/-- Only names of identifiers are made of an identifier. -/
theorem isIdentifier_spellings {oid name : String} (h : isIdentifier oid = true)
    (hname : name ∈ spellings oid) :
    isIdentifier name = true := by
  simp only [spellings, List.mem_cons, List.not_mem_nil, or_false] at hname
  rcases hname with rfl | rfl | rfl | rfl
  · exact h
  · exact isIdentifier_capitalize h
  · rw [isIdentifier_append (isIdentifier_capitalize h)]
    decide
  · rw [isIdentifier_underscore]
    exact (isIdentifier_iff.mp h).1

end Text

namespace Cpp

open Resolve

/-- What a name in the code for a device is. -/
inductive NameOf (d : Device) : String → Prop where
  | ns : NameOf d d.ns
  | oid {p : Param} {name : String} (node : p ∈ d.nodes) (made : name ∈ Text.spellings p.oid) :
      NameOf d name
  | descriptor {p : Param} (node : p ∈ d.nodes) : NameOf d (descriptorName p)
  | param {p : Param} (node : p ∈ d.nodes) : NameOf d (p.ident ++ "Param")
  | constraint {c : Constraint} (held : c ∈ d.constraints) : NameOf d (constraintName c)
  | languagePack {pack : LanguagePack} (listed : pack ∈ d.languagePacks) :
      NameOf d ("_" ++ pack.id ++ "LanguagePack")
  | menuGroup {g : MenuGroup} (listed : g ∈ d.menuGroups) : NameOf d (menuGroupName g.oid)
  | menu {g : MenuGroup} {m : Menu} (listed : g ∈ d.menuGroups) (inside : m ∈ g.menus) :
      NameOf d ("_" ++ g.oid ++ "_" ++ m.oid ++ "Menu")

/-- Every name in the code, as often as it stands there. -/
def identifiers (d : Device) (sourceName : String) : List String :=
  (Marked.header d sourceName).names ++ (Marked.body d (sourceName ++ ".h") sourceName).names

/-- The blocks around a line, and the type that is complete with it. -/
def Written.declared (w : Written) : List String :=
  w.nest ++ (w.completes.map Completed.name).toList

/-- The block of a parameter is named after it. -/
theorem scope_spelled {d : Device} {scope : List String} {p : Param} (hs : Scoped d scope p) :
    ∀ s ∈ scope, ∃ q ∈ d.nodes, s ∈ Text.spellings q.oid := by
  induction hs with
  | outermost => simp
  | @inside scope above _ _ found _ ih =>
    intro s hm
    rcases List.mem_append.mp hm with hm | hm
    · exact ih s hm
    · rw [List.mem_singleton.mp hm]
      refine ⟨above, Array.mem_of_getElem? found, ?_⟩
      unfold innerName elementName holderName
      split
      · split <;> simp [Text.spellings]
      · simp [Text.spellings]

section Texts

open Marked

variable {d : Device}

theorem names_constraint (c : Constraint) : (Marked.constraint c).names = [constraintName c] := by
  have hdefine : ∀ (type : String) (arguments : List Marked), arguments.flatMap names = [] →
      (Marked.define (plain type) (constraintName c) arguments).names = [constraintName c] := by
    intro type arguments harguments
    rw [names_define, harguments, names_plain]
    rfl
  unfold Marked.constraint
  split <;> exact hdefine _ _ rfl

theorem constraint_nameOf {c : Constraint} (hc : c ∈ d.constraints) :
    ∀ s ∈ (Marked.constraint c).names, NameOf d s := by
  intro s hs
  rw [names_constraint, List.mem_singleton] at hs
  rw [hs]
  exact .constraint hc

/-- A descriptor refers to a constraint and to the descriptor of a parent. -/
theorem descriptor_nameOf {p : Param} (hp : p ∈ d.nodes) :
    ∀ s ∈ (Marked.descriptor d p).names, NameOf d s := by
  intro s hs
  simp only [Marked.descriptor, names_define, List.flatMap_append, names_map_plain, names_plain,
    List.flatMap_cons, List.flatMap_nil, List.nil_append, List.append_nil, List.mem_cons,
    List.mem_append] at hs
  rcases hs with rfl | hs | hs
  · exact .descriptor hp
  · cases hc : p.constraint.bind d.constraint? with
    | none => simp [hc, Marked.reference] at hs
    | some c =>
      obtain ⟨id, _, hfound⟩ := Option.bind_eq_some_iff.mp hc
      simp only [hc, Option.map_some, Marked.reference, names_append, names_plain, names_name,
        List.nil_append, List.mem_singleton] at hs
      rw [hs]
      exact .constraint (Array.mem_of_getElem? hfound)
  · cases hq : p.parent.bind d.param? with
    | none => simp [hq, Marked.reference] at hs
    | some q =>
      obtain ⟨id, _, hfound⟩ := Option.bind_eq_some_iff.mp hq
      simp only [hq, Option.map_some, Marked.reference, names_append, names_plain, names_name,
        List.nil_append, List.mem_singleton] at hs
      rw [hs]
      exact .descriptor (Array.mem_of_getElem? hfound)

theorem param_nameOf {p : Param} (hp : p ∈ d.nodes) {type value : Marked}
    (htype : ∀ s ∈ type.names, NameOf d s) (hvalue : ∀ s ∈ value.names, NameOf d s)
    (isCommand : Bool) :
    ∀ s ∈ (Marked.param type value isCommand p).names, NameOf d s := by
  intro s hs
  simp only [Marked.param, names_define, names_append, names_plain, names_name, List.flatMap_cons,
    List.flatMap_nil, List.nil_append, List.append_nil, List.mem_append, List.mem_cons,
    List.not_mem_nil, or_false] at hs
  rcases hs with hs | rfl | hs | rfl
  · exact htype s hs
  · exact .param hp
  · exact hvalue s hs
  · exact .descriptor hp

end Texts

section Whole

variable {source : Source} {importRoot : Path} {description : Description.Device} {d : Device}
  {shared : List Constraint} {params commands : Forest}
  (h : Resolved source importRoot description d shared params commands)

include h

theorem type_spelled {t : TypeDecl} (ht : t ∈ d.types) :
    ∀ s ∈ t.scope ++ [t.name], ∃ p ∈ d.nodes, s ∈ Text.spellings p.oid := by
  obtain ⟨p, hp, _, hscope, hname⟩ := type_owner h (Array.mem_toList_iff.mpr ht)
  intro s hs
  rcases List.mem_append.mp hs with hs | hs
  · exact scope_spelled hscope s hs
  · rw [List.mem_singleton.mp hs]
    refine ⟨p, h.mem_nodes.mpr hp, ?_⟩
    simp only [typeNames, elementName, List.mem_append] at hname
    rcases hname with hname | hname
    · split at hname
      · split at hname <;> simp_all [Text.spellings]
      · cases hname
    · split at hname
      · cases hname
      · simp_all [Text.spellings]

theorem type_nameOf {t : TypeDecl} (ht : t ∈ d.types) : ∀ s ∈ t.scope ++ [t.name], NameOf d s := by
  intro s hs
  obtain ⟨p, hp, hmade⟩ := type_spelled h ht s hs
  exact .oid hp hmade

theorem field_nameOf {t : TypeId} {decl : TypeDecl} {fields : List Field}
    (ht : d.typeDecl? t = some decl) (hshape : decl.shape = .struct fields) :
    ∀ f ∈ fields, NameOf d f.name := by
  obtain ⟨p, hp, rfl⟩ := h.struct_fields ht hshape
  intro f hf
  obtain ⟨q, hq, rfl⟩ := List.mem_map.mp hf
  exact .oid (h.mem_children hp hq).1 (by simp [Text.spellings, Param.field])

open Marked

variable (position : Position)

theorem qualified_nameOf {t : TypeDecl} (ht : t ∈ d.types) :
    ∀ s ∈ (Marked.qualified d position t).names, NameOf d s := by
  intro s hs
  cases position with
  | inside =>
    rw [Marked.qualified, names_path] at hs
    exact type_nameOf h ht s hs
  | outside =>
    simp only [Marked.qualified, names_append, names_name, names_plain, names_path, List.append_nil,
      List.mem_append, List.mem_singleton] at hs
    rcases hs with rfl | hs
    · exact .ns
    · exact type_nameOf h ht s (List.mem_append.mpr (by simpa using hs))

theorem declName_nameOf (t : TypeId) : ∀ s ∈ (Marked.declName d position t).names, NameOf d s := by
  unfold Marked.declName
  cases ht : d.typeDecl? t with
  | none => simp
  | some decl => exact qualified_nameOf h position (Array.mem_of_getElem? ht)

theorem typeName_nameOf (t : ValueType) :
    ∀ s ∈ (Marked.typeName d position t).names, NameOf d s := by
  induction t with
  | struct t | variant t => exact declName_nameOf h position t
  | array t ih => simpa [Marked.typeName] using ih
  | _ => simp [Marked.typeName]

theorem paramType_nameOf (p : Param) : ∀ s ∈ (Marked.paramType d position p).names, NameOf d s := by
  unfold Marked.paramType
  cases p.container with
  | none => exact typeName_nameOf h position p.type
  | some t => exact declName_nameOf h position t

/-- Lists of types have the names of the types. -/
theorem paramTypes_nameOf (ps : List Param) :
    ∀ s ∈ (ps.map (Marked.paramType d position)).flatMap names, NameOf d s := by
  intro s hs
  rw [List.flatMap_map] at hs
  obtain ⟨p, _, hs⟩ := List.mem_flatMap.mp hs
  exact paramType_nameOf h position p s hs

/-- A value names the types of what it holds, and fields that are declared. -/
theorem initializer_nameOf {i : Initializer} {t : ValueType} (typed : HasType d i t) :
    ∀ s ∈ (Marked.initializer d position i).names, NameOf d s := by
  induction typed with
  | string | int32 | float32 => simp [Marked.initializer]
  | list _ ih =>
    intro s hs
    rw [Marked.initializer, names_braced, initializers_eq, List.flatMap_map] at hs
    obtain ⟨item, hitem, hs⟩ := List.mem_flatMap.mp hs
    exact ih item hitem s hs
  | struct found shape order _ _ ih =>
    intro s hs
    rw [Marked.initializer, names_braced, designators_eq, List.flatMap_map] at hs
    obtain ⟨e, he, hs⟩ := List.mem_flatMap.mp hs
    obtain ⟨f, hf, hname⟩ := List.mem_map.mp (order.subset (List.mem_map_of_mem he))
    simp only [names_append, names_plain, names_name, List.nil_append, List.append_nil,
      List.mem_append, List.mem_singleton] at hs
    rcases hs with rfl | hs
    · rw [← hname]
      exact field_nameOf h found shape f hf
    · exact ih e he f hf hname s hs
  | @variant t index alternative type i _ _ found shape _ _ ih =>
    intro s hs
    simp only [Marked.initializer, names_append, names_braced, List.flatMap_cons, List.flatMap_nil,
      names_plain, List.nil_append, List.append_nil, List.mem_append] at hs
    rcases hs with hs | hs | hs
    · exact declName_nameOf h position t s hs
    · split at hs
      · exact typeName_nameOf h position type s hs
      · cases hs
    · exact ih s hs

theorem binding_nameOf {p : Param} (hp : p ∈ d.nodes) :
    ∀ s ∈ (binding d position p).names, NameOf d s := by
  have hvalue := h.wellValued hp
  intro s hs
  simp only [binding, names_append, names_plain, names_name, List.append_nil, List.mem_append,
    List.mem_singleton] at hs
  rcases hs with (hs | rfl) | hs
  · exact paramType_nameOf h position p s hs
  · exact .oid hp (by simp [Text.spellings])
  · cases hv : p.value with
    | none => simp [hv] at hs
    | some v =>
      simp only [hv, names_append, names_plain, List.nil_append, List.append_nil] at hs
      exact initializer_nameOf h position (hvalue v hv) s hs

omit position

theorem titled_nameOf {t : TypeId} {title : String} (ht : Titled d t title) : NameOf d title := by
  obtain ⟨decl, hdecl, rfl⟩ := ht
  exact type_nameOf h (Array.mem_of_getElem? hdecl) decl.name (by simp)

omit h

mutual

theorem lines_nameOf (h : Resolved source importRoot description d shared params commands) :
    ∀ (depth : Nat) (decl : Decl), decl.Drawn d →
      ∀ s ∈ (Marked.lines d depth decl).names, NameOf d s
  | depth, .struct t title inner members, hdrawn => by
    intro s hs
    simp only [Marked.lines, names_block, names_lines_append, names_append, names_plain, names_name,
      List.nil_append, List.mem_append, List.mem_singleton] at hs
    rcases hs with rfl | (hs | hs) | hs
    · exact titled_nameOf h hdrawn.1
    · exact declLines_nameOf h (depth + 1) inner hdrawn.2.1 s hs
    · simp only [Lines.names, List.flatMap_map] at hs
      obtain ⟨p, hp, hs⟩ := List.mem_flatMap.mp hs
      exact binding_nameOf h .inside (hdrawn.2.2 p hp) s hs
    · simp [Lines.names] at hs
  | depth, .variant t title alternatives, hdrawn => by
    intro s hs
    simp only [Marked.lines, Lines.names, List.flatMap_cons, List.flatMap_nil, List.append_nil,
      names_usingLine, names_append, names_plain, names_name, names_joined, List.nil_append,
      List.mem_append, List.mem_singleton] at hs
    rcases hs with rfl | hs
    · exact titled_nameOf h hdrawn.1
    · exact paramTypes_nameOf h .inside alternatives s hs
  | depth, .container t title element, hdrawn => by
    intro s hs
    simp only [Marked.lines, Lines.names, List.flatMap_cons, List.flatMap_nil, List.append_nil,
      names_usingLine, names_name, List.mem_append, List.mem_singleton] at hs
    rcases hs with rfl | hs
    · exact titled_nameOf h hdrawn.1
    · exact typeName_nameOf h .inside _ s hs
  | depth, .holder title inStruct inner, hdrawn => by
    obtain ⟨⟨p, hp, rfl⟩, hinner⟩ := hdrawn
    have htitle : NameOf d ("_" ++ p.oid) := .oid hp (by simp [Text.spellings])
    intro s hs
    rw [Marked.lines] at hs
    split at hs <;>
    · simp only [names_block, names_append, names_plain, names_name, List.nil_append,
        List.mem_append, List.mem_singleton] at hs
      rcases hs with rfl | hs
      · exact htitle
      · exact declLines_nameOf h (depth + 1) inner hinner s hs

theorem declLines_nameOf (h : Resolved source importRoot description d shared params commands) :
    ∀ (depth : Nat) (decls : List Decl), AllDrawn d decls →
      ∀ s ∈ (Marked.declLines d depth decls).names, NameOf d s
  | _, [], _ => by simp [Marked.declLines, Lines.names]
  | depth, decl :: rest, hdrawn => by
    intro s hs
    rw [Marked.declLines, names_lines_append, List.mem_append] at hs
    rcases hs with hs | hs
    · exact lines_nameOf h depth decl hdrawn.1 s hs
    · exact declLines_nameOf h depth rest hdrawn.2 s hs

end

include h

theorem reflection_nameOf {t : TypeDecl} (ht : t ∈ d.types) :
    ∀ s ∈ (Marked.reflection d t).names, NameOf d s := by
  have hfull := qualified_nameOf h .outside ht
  have htypes := paramTypes_nameOf h .outside (d.children t.owner)
  obtain ⟨i, hi, hfound⟩ := Array.getElem_of_mem ht
  have hdecl : d.typeDecl? ⟨i⟩ = some t := by
    rw [Device.typeDecl?, Array.getElem?_eq_getElem hi, hfound]
  intro s hs
  cases hshape : t.shape with
  | struct fields =>
    simp only [Marked.reflection, hshape, names_info, List.flatMap_cons, List.flatMap_nil,
      names_usingLine, names_append, names_plain, names_joined, names_braced, names_name,
      List.flatMap_map, List.nil_append, List.append_nil, List.mem_append] at hs
    rcases hs with hs | hs | hs | hs
    · exact hfull s hs
    · exact hfull s hs
    · exact htypes s (by rwa [List.flatMap_map])
    · obtain ⟨f, hf, hs⟩ := List.mem_flatMap.mp hs
      rw [List.mem_singleton.mp hs]
      exact field_nameOf h hdecl hshape f hf
  | variant alternatives =>
    simp only [Marked.reflection, hshape, names_info, List.flatMap_cons, List.flatMap_nil,
      names_usingLine, names_append, names_plain, names_joined, List.flatMap_map, List.nil_append,
      List.append_nil, List.mem_append] at hs
    rcases hs with hs | hs
    · exact hfull s hs
    · exact htypes s (by rwa [List.flatMap_map])
  | array => simp [Marked.reflection, hshape, Lines.names] at hs

theorem header_nameOf (sourceName : String) :
    ∀ s ∈ (Marked.header d sourceName).names, NameOf d s := by
  intro s hs
  simp only [Marked.header, names_lines_append, names_unmarked, names_block, names_append,
    names_plain, names_name, List.nil_append, List.mem_append, List.mem_singleton] at hs
  rcases hs with (rfl | hs) | hs
  · exact .ns
  · exact declLines_nameOf h 1 _ (types?_eq (Resolved.closed h)).2 s hs
  · simp only [Lines.names, List.flatMap_assoc] at hs
    obtain ⟨t, ht, hs⟩ := List.mem_flatMap.mp hs
    exact reflection_nameOf h (Array.mem_toList_iff.mp ht) s hs

theorem item_nameOf {i : Item} (hi : i.Drawn d) : ∀ s ∈ (Marked.item d i).names, NameOf d s := by
  have hplaced := (Resolved.closed h).placed
  intro s hs
  cases i with
  | blank | device => simp [Marked.item] at hs
  | languagePack pack =>
    simp only [Marked.item, names_define, names_map_plain, names_plain, List.nil_append,
      List.mem_singleton] at hs
    rw [hs]
    exact .languagePack hi
  | constraint id =>
    cases hc : d.constraint? id with
    | none => simp [Marked.item, hc] at hs
    | some c =>
      simp only [Marked.item, hc, Option.map_some, Option.getD_some] at hs
      exact constraint_nameOf (Array.mem_of_getElem? hc) s hs
  | value id =>
    obtain ⟨p, hp, rfl⟩ := hi
    simp only [Marked.item, hplaced p hp, Option.map_some, Option.getD_some] at hs
    exact binding_nameOf h .outside hp s hs
  | descriptor id =>
    obtain ⟨p, hp, rfl⟩ := hi
    simp only [Marked.item, hplaced p hp, Option.map_some, Option.getD_some] at hs
    exact descriptor_nameOf hp s hs
  | param id =>
    obtain ⟨p, hp, rfl⟩ := hi
    simp only [Marked.item, hplaced p hp, Option.map_some, Option.getD_some] at hs
    refine param_nameOf hp (paramType_nameOf h .outside p) ?_ false s hs
    intro s hs
    rw [List.mem_singleton.mp hs]
    exact .oid hp (by simp [Text.spellings])
  | command id =>
    obtain ⟨p, hp, rfl⟩ := hi
    simp only [Marked.item, hplaced p hp, Option.map_some, Option.getD_some] at hs
    exact param_nameOf hp (by simp) (by simp) true s hs
  | menuGroup g =>
    simp only [Marked.item, names_define, names_map_plain, names_plain, List.nil_append,
      List.mem_singleton] at hs
    rw [hs]
    exact .menuGroup hi
  | menu group m =>
    obtain ⟨g, hg, rfl, hm⟩ := hi
    simp only [Marked.item, Marked.menu, names_define, List.flatMap_append, names_map_plain,
      names_plain, names_name, List.flatMap_cons, List.flatMap_nil, List.nil_append,
      List.append_nil, List.mem_cons, List.not_mem_nil, or_false] at hs
    rcases hs with rfl | rfl
    · exact .menu hg hm
    · exact .menuGroup hg

/-- Every name is of something that the device has. -/
theorem identifiers_nameOf {sourceName name : String} (hname : name ∈ identifiers d sourceName) :
    NameOf d name := by
  rcases List.mem_append.mp hname with hname | hname
  · exact header_nameOf h sourceName name hname
  · rw [Marked.body, names_lines_append, names_unmarked, List.nil_append, Lines.names,
      List.flatMap_map] at hname
    obtain ⟨i, hi, hname⟩ := List.mem_flatMap.mp hname
    exact item_nameOf h (items_drawn (Resolved.closed h) hi) name hname

/-- A full oid starts with a slash. -/
theorem fqoid_eq {p : Param} (hp : p ∈ d.nodes) : ∃ rest, p.fqoid = "/" ++ rest := by
  have hseated : ∀ {f : Forest} {above : Option ParamId} {path : String} {realm : Realm},
      f.Seated above path realm → (path = "" ∨ ∃ rest, path = "/" ++ rest) →
      ∀ p ∈ f.params, ∃ rest, p.fqoid = "/" ++ rest := by
    intro f
    induction f with
    | nil => simp
    | cons p own below rest ihBelow ihRest =>
      rintro above path realm ⟨seat, hbelow, hrest⟩ hpath
      have hself : ∃ rest, p.fqoid = "/" ++ rest := by
        rw [seat.fqoid]
        rcases hpath with rfl | ⟨front, rfl⟩
        · exact ⟨p.oid, by simp⟩
        · exact ⟨front ++ "/" ++ p.oid, by simp only [String.append_assoc]⟩
      intro q hq
      simp only [Forest.params_cons, List.mem_cons, List.mem_append] at hq
      rcases hq with rfl | hq | hq
      · exact hself
      · exact ihBelow hbelow (.inr hself) q hq
      · exact ihRest hrest hpath q hq
  rw [h.mem_nodes, Forest.params_append, List.mem_append] at hp
  rcases hp with hp | hp
  · exact hseated h.params_grown.seated (.inl rfl) p hp
  · exact hseated h.commands_grown.seated (.inl rfl) p hp

theorem ident_isIdentifier {p : Param} (hp : p ∈ d.nodes) : Text.isIdentifier p.ident = true := by
  obtain ⟨rest, hrest⟩ := fqoid_eq h hp
  have hflat : Text.flatten p.fqoid = "_" ++ Text.flatten rest := by
    apply String.toList_inj.mp
    simp [hrest, Text.flatten]
  unfold Param.ident Param.identOf
  split
  · rw [hflat, Text.isIdentifier_underscore]
    exact Text.isWord_flatten rest
  · rw [Text.isIdentifier_append (by decide)]
    exact Text.isWord_flatten p.fqoid

theorem constraint_ident_isIdentifier {c : Constraint} (hc : c ∈ d.constraints) :
    Text.isIdentifier c.ident = true := by
  have hown : ∀ {f : Forest},
      (f.constraints.map Constraint.ident).Sublist (f.params.map Param.ident) →
        (∀ p ∈ f.params, p ∈ d.nodes) → c ∈ f.constraints → Text.isIdentifier c.ident = true := by
    intro f hstems hnodes hc
    obtain ⟨p, hp, hident⟩ := List.mem_map.mp (hstems.subset (List.mem_map_of_mem hc))
    rw [← hident]
    exact ident_isIdentifier h (hnodes p hp)
  rw [← Array.mem_toList_iff, h.constraints, List.mem_append, List.mem_append] at hc
  rcases hc with hc | hc | hc
  · have hident := List.mem_map_of_mem (f := Constraint.ident) hc
    rw [(shareable_all h.shareable).2] at hident
    obtain ⟨e, _, hident⟩ := List.mem_map.mp hident
    rw [← hident, Text.isIdentifier_underscore]
    exact Text.isWord_flatten e.1
  · exact hown h.params_grown.rule_stems (fun p hp => h.mem_nodes.mpr (by simp [hp])) hc
  · exact hown h.commands_grown.rule_stems (fun p hp => h.mem_nodes.mpr (by simp [hp])) hc

omit h

/-- A name that is no identifier, and why. `foreign` are oids of which nothing is known. -/
inductive Stray (d : Device) (foreign : String → Prop) : String → Prop where
  | oid {p : Param} {name : String} (node : p ∈ d.nodes) (unknown : foreign p.oid)
      (made : name ∈ Text.spellings p.oid) (odd : Text.isIdentifier name = false) :
      Stray d foreign name
  | languagePack {pack : LanguagePack} (listed : pack ∈ d.languagePacks)
      (odd : Text.isWord pack.id = false) : Stray d foreign ("_" ++ pack.id ++ "LanguagePack")
  | menuGroup {g : MenuGroup} (listed : g ∈ d.menuGroups) (odd : Text.isWord g.oid = false) :
      Stray d foreign (menuGroupName g.oid)
  | menu {g : MenuGroup} {m : Menu} (listed : g ∈ d.menuGroups) (inside : m ∈ g.menus)
      (odd : (Text.isWord g.oid && Text.isWord m.oid) = false) :
      Stray d foreign ("_" ++ g.oid ++ "_" ++ m.oid ++ "Menu")

/-- A word after an underscore, with an ending that is a word, makes an identifier and nothing else
does. -/
theorem underscored_isIdentifier (s : String) {ending : String}
    (hending : Text.isWord ending = true) :
    Text.isIdentifier ("_" ++ s ++ ending) = Text.isWord s := by
  rw [String.append_assoc, Text.isIdentifier_underscore, Text.isWord_append, hending, Bool.and_true]

theorem menuName_isIdentifier (group oid : String) :
    Text.isIdentifier ("_" ++ group ++ "_" ++ oid ++ "Menu") =
      (Text.isWord group && Text.isWord oid) := by
  have hsplit : "_" ++ group ++ "_" ++ oid ++ "Menu" =
      "_" ++ (group ++ ("_" ++ oid)) ++ "Menu" := by
    simp only [String.append_assoc]
  rw [hsplit, underscored_isIdentifier _ (by decide), Text.isWord_append, Text.isWord_append]
  rfl

theorem Stray.odd {foreign : String → Prop} {name : String} (hs : Stray d foreign name) :
    Text.isIdentifier name = false := by
  cases hs with
  | oid _ _ _ odd => exact odd
  | languagePack _ odd => rwa [underscored_isIdentifier _ (by decide)]
  | menuGroup _ odd => rwa [menuGroupName, underscored_isIdentifier _ (by decide)]
  | menu _ _ odd => rwa [menuName_isIdentifier]

include h

/-- Where the namespace and all oids are identifiers, or else foreign, only stray names are none. -/
theorem stray_iff {foreign : String → Prop} (hns : Text.isIdentifier d.ns = true)
    (hoids : ∀ p ∈ d.nodes, Text.isIdentifier p.oid = true ∨ foreign p.oid)
    {sourceName name : String} (hname : name ∈ identifiers d sourceName) :
    Text.isIdentifier name = false ↔ Stray d foreign name := by
  refine ⟨fun hodd => ?_, Stray.odd⟩
  have hending : ∀ {s ending : String}, Text.isIdentifier s = true → Text.isWord ending = true →
      Text.isIdentifier (s ++ ending) = true := fun hs he => by rwa [Text.isIdentifier_append hs]
  cases identifiers_nameOf h hname with
  | ns => exact absurd hns (by simp [hodd])
  | oid node made =>
    rcases hoids _ node with hoid | hforeign
    · exact absurd (Text.isIdentifier_spellings hoid made) (by simp [hodd])
    · exact .oid node hforeign made hodd
  | @descriptor p node =>
    have hdescriptor : Text.isIdentifier (descriptorName p) = true :=
      hending (ident_isIdentifier h node) (by decide)
    exact absurd hdescriptor (by simp [hodd])
  | @param p node =>
    have hparam : Text.isIdentifier (p.ident ++ "Param") = true :=
      hending (ident_isIdentifier h node) (by decide)
    exact absurd hparam (by simp [hodd])
  | @constraint c held =>
    have hident := constraint_ident_isIdentifier h held
    have hconstraint : Text.isIdentifier (constraintName c) = true := by
      unfold constraintName
      split
      · exact hending hident (by decide)
      · exact hending hident (by decide)
    exact absurd hconstraint (by simp [hodd])
  | languagePack listed =>
    rw [underscored_isIdentifier _ (by decide)] at hodd
    exact .languagePack listed hodd
  | menuGroup listed =>
    rw [menuGroupName, underscored_isIdentifier _ (by decide)] at hodd
    exact .menuGroup listed hodd
  | menu listed inside =>
    rw [menuName_isIdentifier] at hodd
    exact .menu listed inside hodd

omit h

/-- Everything that the code declares has its names in a list. -/
structure Covers (d : Device) (names : List String) : Prop where
  ns : d.ns ∈ names
  types : ∀ t ∈ d.types, ∀ s ∈ t.scope ++ [t.name], s ∈ names
  fields : ∀ t ∈ d.types, ∀ fields, t.shape = .struct fields → ∀ f ∈ fields, f.name ∈ names
  /-- The device itself is a variable that is called the same in all code. -/
  globals : ∀ v ∈ globals d, v = .device ∨ v.name ∈ names

theorem enclosed_names {names nest : List String} {title opening closing : String} {block : Opened}
    {completes : Option Completed} {inner : List Written} (htitle : title ∈ names)
    (hcompletes : ∀ c ∈ completes, c.name = title)
    (hinner : ∀ w ∈ inner, ∀ s ∈ w.declared, s ∈ nest ++ [title] ∨ s ∈ names) :
    ∀ w ∈ enclosed nest title block opening closing completes inner, ∀ s ∈ w.declared, s ∈ nest ∨
      s ∈ names := by
  intro w hw s hs
  simp only [enclosed, List.cons_append, List.mem_cons, List.mem_append, List.not_mem_nil,
    or_false] at hw
  rcases hw with rfl | hw | rfl
  · exact .inl (by simpa [Written.declared] using hs)
  · rcases hinner w hw s hs with hs | hs
    · rcases List.mem_append.mp hs with hs | hs
      · exact .inl hs
      · rw [List.mem_singleton.mp hs]
        exact .inr htitle
    · exact .inr hs
  · rcases List.mem_append.mp hs with hs | hs
    · exact .inl hs
    · obtain ⟨c, hc, rfl⟩ := Option.map_eq_some_iff.mp (Option.mem_toList.mp hs)
      rw [hcompletes c hc]
      exact .inr htitle

mutual

/-- A declaration spells the blocks that it opens and the types that it completes. -/
theorem written_names (depth : Nat) (nest : List String) :
    ∀ (decl : Decl), ∀ w ∈ decl.written d nest, ∀ s ∈ w.declared,
    s ∈ nest ∨ s ∈ (Marked.lines d depth decl).names
  | .struct t title inner members => by
    rw [Decl.written]
    refine enclosed_names (by simp [Marked.lines, names_block]) (by simp) ?_
    intro w hw s hs
    simp only [List.mem_append, List.mem_map, List.mem_singleton] at hw
    rcases hw with (hw | ⟨p, _, rfl⟩) | rfl
    · refine (declsWritten_names (depth + 1) (nest ++ [title]) inner w hw s hs).imp_right
        fun hs => ?_
      simp [Marked.lines, names_block, names_lines_append, hs]
    · exact .inl (by simpa [Written.declared] using hs)
    · exact .inl (by simpa [Written.declared] using hs)
  | .variant t title alternatives => by
    simp only [Decl.written, List.mem_singleton, forall_eq]
    intro s hs
    refine (List.mem_append.mp hs).imp_right fun hs => ?_
    simp_all [Marked.lines, Lines.names, names_usingLine]
  | .container t title element => by
    simp only [Decl.written, List.mem_singleton, forall_eq]
    intro s hs
    refine (List.mem_append.mp hs).imp_right fun hs => ?_
    simp_all [Marked.lines, Lines.names, names_usingLine]
  | .holder title inStruct inner => by
    have hinner : ∀ w ∈ declsWritten d (nest ++ [title]) inner, ∀ s ∈ w.declared,
        s ∈ nest ++ [title] ∨ s ∈ (Marked.lines d depth (.holder title inStruct inner)).names := by
      intro w hw s hs
      refine (declsWritten_names (depth + 1) (nest ++ [title]) inner w hw s hs).imp_right
        fun hs => ?_
      cases inStruct <;> simp [Marked.lines, names_block, hs]
    rw [Decl.written]
    split
    · exact enclosed_names (by simp_all [Marked.lines, names_block]) (by simp) hinner
    · exact enclosed_names (by simp_all [Marked.lines, names_block]) (by simp) hinner

theorem declsWritten_names (depth : Nat) (nest : List String) :
    ∀ (decls : List Decl), ∀ w ∈ declsWritten d nest decls,
    ∀ s ∈ w.declared, s ∈ nest ∨ s ∈ (Marked.declLines d depth decls).names
  | [] => by simp
  | decl :: rest => by
    intro w hw s hs
    rw [declsWritten_cons, List.mem_append] at hw
    rw [Marked.declLines, names_lines_append, List.mem_append]
    rcases hw with hw | hw
    · exact (written_names depth nest decl w hw s hs).imp_right .inl
    · exact (declsWritten_names depth nest rest w hw s hs).imp_right .inr

end

/-- An item spells the variable that it defines. -/
theorem global_mem {i : Item} {v : Variable} (hv : i.global? d = some v) :
    v = .device ∨ v.name ∈ (Marked.item d i).names := by
  cases i with
  | blank => cases hv
  | device => exact .inl (Option.some.inj hv).symm
  | languagePack pack | menuGroup g =>
    rw [← Option.some.inj hv]
    exact .inr
      (by simp [Marked.item, names_define, Variable.name, Variable.stem, Variable.ending,
      menuGroupName])
  | menu group m =>
    rw [← Option.some.inj hv]
    exact .inr
      (by simp [Marked.item, Marked.menu, names_define, Variable.name, Variable.stem,
      Variable.ending])
  | constraint id =>
    obtain ⟨c, hc, rfl⟩ := Option.map_eq_some_iff.mp hv
    rw [← constraintName_eq, Marked.item, hc]
    exact .inr (by simp [names_constraint])
  | value id =>
    obtain ⟨p, hp, rfl⟩ := Option.map_eq_some_iff.mp hv
    rw [Variable.name_value, Marked.item, hp]
    exact .inr (by simp [binding])
  | descriptor id | param id | command id =>
    obtain ⟨p, hp, rfl⟩ := Option.map_eq_some_iff.mp hv
    rw [Marked.item, hp]
    exact .inr
      (by simp [Marked.descriptor, Marked.param, names_define, descriptorName, Variable.name,
      Variable.stem, Variable.ending])

include h

theorem identifiers_cover (sourceName : String) : Covers d (identifiers d sourceName) where
  ns := by simp [identifiers, Marked.header, names_lines_append, names_block]
  types := by
    intro t ht s hs
    obtain ⟨i, hi, rfl⟩ := Array.getElem_of_mem ht
    obtain ⟨w, hw, t, hfound, hnest, hcompletes⟩ := (typesWritten_inOrder h).mem (Nat.zero_le i) hi
    obtain rfl : d.types[i] = t := by simpa [hi] using hfound
    have hdeclared : s ∈ w.declared := by simpa [Written.declared, hnest, hcompletes] using hs
    have hname := (declsWritten_names 1 [] (types d) w hw s hdeclared).resolve_left (by simp)
    simp [identifiers, Marked.header, names_lines_append, names_block, hname]
  fields := by
    intro t ht fields hshape f hf
    have hname : f.name ∈ (Marked.reflection d t).names := by
      simp only [Marked.reflection, hshape, names_info, List.flatMap_cons, List.flatMap_nil,
        names_append, names_braced, List.flatMap_map, names_name, names_plain, List.nil_append,
        List.append_nil, List.mem_append, List.mem_flatMap]
      exact .inr (.inr (.inr ⟨f, hf, List.mem_singleton.mpr rfl⟩))
    have hlines : f.name ∈ Lines.names (d.types.toList.flatMap (Marked.reflection d)) := by
      rw [Lines.names, List.flatMap_assoc]
      exact List.mem_flatMap.mpr ⟨t, Array.mem_toList_iff.mpr ht, hname⟩
    simp [identifiers, Marked.header, names_lines_append, hlines]
  globals := by
    intro v hv
    obtain ⟨i, hi, hv⟩ := List.mem_filterMap.mp hv
    refine (global_mem hv).imp_right fun hname => List.mem_append_right _ ?_
    rw [Marked.body, names_lines_append, names_unmarked, List.nil_append, Lines.names,
      List.flatMap_map]
    exact List.mem_flatMap.mpr ⟨i, hi, hname⟩

end Whole

end Cpp

end DeviceModel
