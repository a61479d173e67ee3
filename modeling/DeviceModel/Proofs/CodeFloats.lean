import DeviceModel.Proofs.BodyOrder
import DeviceModel.Proofs.HeaderOrder
import DeviceModel.Proofs.Lossless

namespace DeviceModel

open Number

/-- The floats of a parameter's value. -/
def Param.singles (p : Param) : List Single := p.value.toList.flatMap Initializer.singles

/-- The numbers of a range, in the order in which they are written. -/
def Range.numbers {α : Type} (r : Range α) : List α :=
  [r.min, r.max, r.step, r.displayMin, r.displayMax]

def Rule.singles : Rule → List Single
  | .floatRange r => r.numbers
  | _ => []

namespace Cpp

mutual

/-- The structs in a declaration, each with its members. -/
def Decl.structs : Decl → List (TypeId × List Param)
  | .struct t _ inner members => declStructs inner ++ [(t, members)]
  | .holder _ _ inner => declStructs inner
  | _ => []

def declStructs : List Decl → List (TypeId × List Param)
  | [] => []
  | decl :: rest => decl.structs ++ declStructs rest

end

def Item.singles (d : Device) : Item → List Single
  | .constraint id => (d.constraint? id).toList.flatMap fun c => c.rule.singles
  | .value id => (d.param? id).toList.flatMap Param.singles
  | _ => []

/-- Every float in the code, as often as it stands there. -/
def floatsWritten (d : Device) (sourceName : String) : List Single :=
  (Marked.header d sourceName).floats ++ (Marked.body d (sourceName ++ ".h") sourceName).floats

namespace Marked

variable (d : Device) (position : Position)

theorem floats_path (parts : List String) : (path parts).floats = [] := by
  simp [path, List.flatMap_map]

theorem floats_qualified (t : TypeDecl) : (qualified d position t).floats = [] := by
  cases position <;> simp [qualified, floats_path]

theorem floats_declName (t : TypeId) : (declName d position t).floats = [] := by
  unfold declName
  cases d.typeDecl? t with
  | none => rfl
  | some decl => exact floats_qualified d position decl

theorem floats_typeName (t : ValueType) : (typeName d position t).floats = [] := by
  induction t with
  | struct t | variant t => exact floats_declName d position t
  | array t ih => simp [typeName, ih]
  | _ => rfl

theorem floats_paramType (p : Param) : (paramType d position p).floats = [] := by
  unfold paramType
  cases p.container with
  | none => exact floats_typeName d position p.type
  | some t => exact floats_declName d position t

mutual

theorem floats_initializer : ∀ v, (initializer d position v).floats = v.singles
  | .list items =>
    by rw [initializer, floats_braced, floats_initializers items, Initializer.singles]
  | .struct fields =>
    by rw [initializer, floats_braced, floats_designators fields, Initializer.singles]
  | .variant t index alternative type v => by
    have htype : (if needsType v then typeName d position type else []).floats = [] := by
      split
      · exact floats_typeName d position type
      · rfl
    simp [initializer, floats_declName, htype, floats_initializer v, Initializer.singles]
  | .float32 _ => rfl
  | .string _ | .int32 _ => rfl

theorem floats_initializers :
    ∀ items, (initializers d position items).flatMap floats = itemSingles items
  | [] => rfl
  | v :: rest =>
    by rw [initializers, List.flatMap_cons, floats_initializer v, floats_initializers rest,
      itemSingles]

theorem floats_designators :
    ∀ fields, (designators d position fields).flatMap floats = fieldSingles fields
  | [] => rfl
  | (field, v) :: rest => by
    rw [designators, List.flatMap_cons, floats_designators rest, fieldSingles]
    simp [floats_initializer v]

end

theorem floats_binding (p : Param) : (binding d position p).floats = p.singles := by
  unfold binding Param.singles
  cases p.value <;> simp [floats_paramType, floats_initializer]

theorem floats_lines_append (lines lines' : Lines) :
    Lines.floats (lines ++ lines') = lines.floats ++ lines'.floats :=
  List.flatMap_append ..

theorem floats_unmarked (lines : List Line) : (unmarked lines).floats = [] := by
  simp [unmarked, Lines.floats, List.flatMap_map]

theorem floats_block (depth : Nat) (opening : Marked) (inner : Lines) (closing : String) :
    (block depth opening inner closing).floats = opening.floats ++ inner.floats := by
  simp [block, Lines.floats]

mutual

theorem floats_lines : ∀ (depth : Nat) (decl : Decl),
    (lines d depth decl).floats = decl.structs.flatMap fun s => s.2.flatMap Param.singles
  | depth, .struct t title inner members => by
    have hmembers : Lines.floats (members.map fun p => (depth + 1, binding d .inside p)) =
        members.flatMap Param.singles := by
      simp [Lines.floats, List.flatMap_map, floats_binding]
    rw [lines, floats_block, floats_lines_append, floats_lines_append,
      floats_declLines (depth + 1) inner, hmembers, Decl.structs]
    simp [Lines.floats]
  | depth, .variant t title alternatives => by
    simp [lines, Lines.floats, usingLine, List.flatMap_map, floats_paramType, Decl.structs]
  | depth, .container t title element =>
    by simp [lines, Lines.floats, usingLine, floats_typeName, Decl.structs]
  | depth, .holder title inStruct inner => by
    rw [lines, Decl.structs]
    split <;> rw [floats_block, floats_declLines (depth + 1) inner] <;> simp

theorem floats_declLines : ∀ (depth : Nat) (decls : List Decl),
    (declLines d depth decls).floats = (declStructs decls).flatMap fun s =>
      s.2.flatMap Param.singles
  | _, [] => rfl
  | depth, decl :: rest => by
    rw [declLines, floats_lines_append, floats_lines depth decl, floats_declLines depth rest,
      declStructs, List.flatMap_append]

end

theorem floats_reflection (t : TypeDecl) : (reflection d t).floats = [] := by
  unfold reflection
  cases t.shape with
  | struct fields =>
    simp [info, block, usingLine, Lines.floats, List.flatMap_map, floats_qualified,
      floats_paramType]
  | variant alternatives =>
    simp [info, block, usingLine, Lines.floats, List.flatMap_map, floats_qualified,
      floats_paramType]
  | array element => rfl

/-- The floats of the header are those of defaults of members. -/
theorem floats_header (sourceName : String) :
    (header d sourceName).floats = (declStructs (types d)).flatMap fun s =>
      s.2.flatMap Param.singles := by
  have hreflected : Lines.floats (d.types.toList.flatMap (reflection d)) = [] := by
    rw [Lines.floats, List.flatMap_assoc, List.flatMap_eq_nil_iff]
    intro t _
    exact floats_reflection d t
  rw [header, floats_lines_append, floats_lines_append, floats_unmarked, floats_block,
    floats_declLines, hreflected]
  simp

theorem floats_constraint (c : Constraint) : (constraint c).floats = c.rule.singles := by
  unfold constraint Rule.singles
  cases c.rule <;> simp [constraint.range, constraint.choice, define, Range.numbers]

theorem floats_reference (target : Option String) : (reference target).floats = [] := by
  cases target <;> rfl

theorem floats_item (i : Item) : (item d i).floats = i.singles d := by
  cases i with
  | languagePack p | menuGroup g => simp [item, define, Item.singles]
  | constraint id =>
    cases hc : d.constraint? id <;> simp [item, Item.singles, hc, floats_constraint]
  | value id => cases hp : d.param? id <;> simp [item, Item.singles, hp, floats_binding]
  | descriptor id =>
    cases hp : d.param? id <;> simp [item, Item.singles, hp, descriptor, define, floats_reference]
  | param id | command id =>
    cases hp : d.param? id <;> simp [item, Item.singles, hp, param, define, floats_paramType]
  | menu group m => simp [item, menu, define, Item.singles]
  | blank | device => rfl

/-- The floats of the body are those of constraints and of values. -/
theorem floats_body (headerName sourceName : String) :
    (body d headerName sourceName).floats = (items d).flatMap (Item.singles d) := by
  rw [body, floats_lines_append, floats_unmarked, List.nil_append, Lines.floats, List.flatMap_map]
  simp only [floats_item]

end Marked

section Structs

variable {d : Device}

theorem declStructs_eq (decls : List Decl) : declStructs decls = decls.flatMap Decl.structs := by
  induction decls with
  | nil => rfl
  | cons decl rest ih => rw [declStructs, ih, List.flatMap_cons]

/-- What completes something is inside, or closes the block. -/
theorem mem_of_mem_enclosed {w : Written} {c : Completed} (hw : w.completes = some c)
    {nest : List String} {title opening closing : String} {block : Opened}
    {completes : Option Completed} {inner : List Written}
    (hmem : w ∈ enclosed nest title block opening closing completes inner) :
    w ∈ inner ∨ completes = some c := by
  simp only [enclosed, List.cons_append, List.mem_cons, List.mem_append, List.not_mem_nil,
    or_false] at hmem
  rcases hmem with rfl | hmem | rfl
  · cases hw
  · exact .inl hmem
  · exact .inr hw

mutual

/-- Where a struct is completed, it is declared. -/
theorem mem_structs_of_completes {w : Written} {t : TypeId} {title : String}
    (hw : w.completes = some ⟨t, title, "struct"⟩) (nest : List String) :
    ∀ decl : Decl, w ∈ decl.written d nest → ∃ members, (t, members) ∈ decl.structs
  | .struct u title inner members, hmem => by
    rw [Decl.structs]
    rw [Decl.written] at hmem
    rcases mem_of_mem_enclosed hw hmem with hmem | heq
    · simp only [List.mem_append, List.mem_map, List.mem_singleton] at hmem
      rcases hmem with (hmem | ⟨p, _, rfl⟩) | rfl
      · obtain ⟨members', hmembers⟩ := mem_declStructs_of_completes hw _ inner hmem
        exact ⟨members', List.mem_append_left _ hmembers⟩
      · cases hw
      · cases hw
    · cases heq
      exact ⟨members, by simp⟩
  | .variant u title alternatives, hmem => by
    rw [Decl.written, List.mem_singleton] at hmem
    rw [hmem] at hw
    simp at hw
  | .container u title element, hmem => by
    rw [Decl.written, List.mem_singleton] at hmem
    rw [hmem] at hw
    simp at hw
  | .holder title inStruct inner, hmem => by
    rw [Decl.structs]
    rw [Decl.written] at hmem
    split at hmem
    all_goals
      rcases mem_of_mem_enclosed hw hmem with hmem | heq
      · exact mem_declStructs_of_completes hw _ inner hmem
      · cases heq

theorem mem_declStructs_of_completes {w : Written} {t : TypeId} {title : String}
    (hw : w.completes = some ⟨t, title, "struct"⟩) (nest : List String) :
    ∀ decls : List Decl, w ∈ declsWritten d nest decls → ∃ members, (t, members) ∈ declStructs decls
  | [], hmem => by simp at hmem
  | decl :: rest, hmem => by
    rw [declsWritten_cons, List.mem_append] at hmem
    rcases hmem with hmem | hmem
    · obtain ⟨members, hmembers⟩ := mem_structs_of_completes hw nest decl hmem
      exact ⟨members, by simp [declStructs, hmembers]⟩
    · obtain ⟨members, hmembers⟩ := mem_declStructs_of_completes hw nest rest hmem
      exact ⟨members, by simp [declStructs, hmembers]⟩

end

theorem declStructs_ownContainer (p : Param) : declStructs (ownContainer d p) = [] := by
  unfold ownContainer
  repeat' split
  all_goals rfl

theorem mem_declStructs_holder {p : Param} {inStruct : Bool} {inner : List Decl}
    {s : TypeId × List Param} (h : s ∈ declStructs (holder d p inStruct inner)) :
    s ∈ declStructs inner := by
  unfold holder at h
  split at h
  · simpa [declStructs, Decl.structs] using h
  · simp [declStructs] at h

/-- A struct that is declared, with the parameters that it is made of. -/
def IsStruct (d : Device) (t : TypeId) (members : List Param) : Prop :=
  ∃ decl fields, d.typeDecl? t = some decl ∧ decl.shape = .struct fields ∧
    members = d.children decl.owner

end Structs

section Whole

open Resolve

variable {source : Source} {importRoot : Path} {description : Description.Device} {d : Device}
  {shared : List Constraint} {params commands : Forest}
  (h : Resolved source importRoot description d shared params commands)

include h

theorem isStruct_of_declarations {p : Param} (hp : p ∈ d.nodes) (depth : Nat) (inStruct : Bool) :
    ∀ s ∈ declStructs (declarations d depth inStruct p), IsStruct d s.1 s.2 := by
  induction depth generalizing p inStruct with
  | zero => simp [declarations, declStructs]
  | succ depth ih =>
    have hinner : ∀ inStruct,
        ∀ s ∈ declStructs ((d.children p.id).flatMap (declarations d depth inStruct)),
          IsStruct d s.1 s.2 := by
      intro inStruct s hs
      rw [declStructs_eq, List.flatMap_assoc] at hs
      obtain ⟨q, hq, hs⟩ := List.mem_flatMap.mp hs
      rw [← declStructs_eq] at hs
      exact ih (h.mem_children hp hq).1 inStruct s hs
    intro s hs
    cases hdeclares : p.declares with
    | none =>
      rw [declarations_undeclared hdeclares, declStructs_eq, List.flatMap_append, ← declStructs_eq,
        ← declStructs_eq, declStructs_ownContainer, List.append_nil] at hs
      split at hs
      · exact hinner inStruct s (mem_declStructs_holder hs)
      · simp [declStructs] at hs
    | some t =>
      obtain ⟨_, ⟨title, scope, owner, shape⟩, hdecl, rfl, hshape⟩ :=
        (h.typed hp).declares t hdeclares
      cases shape with
      | struct fields =>
        rw [declarations_struct hdeclares hdecl, declStructs, declStructs_ownContainer,
          List.append_nil, Decl.structs, List.mem_append, List.mem_singleton] at hs
        rcases hs with hs | rfl
        · exact hinner true s hs
        · exact ⟨_, fields, hdecl, rfl, rfl⟩
      | variant alternatives =>
        rw [declarations_variant hdeclares hdecl, declStructs_eq, List.flatMap_append,
          List.flatMap_cons, ← declStructs_eq, ← declStructs_eq, declStructs_ownContainer,
          List.append_nil, List.mem_append] at hs
        rcases hs with hs | hs
        · exact hinner inStruct s (mem_declStructs_holder hs)
        · simp [Decl.structs] at hs
      | array => cases hshape

/-- The header declares every struct with the parameters it is made of, and no other. -/
theorem mem_declStructs_types {t : TypeId} {members : List Param} :
    (t, members) ∈ declStructs (types d) ↔ IsStruct d t members := by
  have hsound : ∀ {t members}, (t, members) ∈ declStructs (types d) → IsStruct d t members := by
    intro t members hs
    rw [types, declStructs_eq, List.flatMap_assoc] at hs
    obtain ⟨⟨oid, id⟩, _, hs⟩ := List.mem_flatMap.mp hs
    cases hp : d.param? id with
    | none => simp [hp] at hs
    | some p =>
      simp only [hp, ← declStructs_eq] at hs
      exact isStruct_of_declarations h (Array.mem_of_getElem? hp) _ _ _ hs
  refine ⟨hsound, ?_⟩
  rintro ⟨decl, fields, hdecl, hshape, rfl⟩
  have hlt : t.index < d.types.size := (Array.getElem?_eq_some_iff.mp hdecl).1
  obtain ⟨w, hw, decl', hdecl', _, hcompletes⟩ := (typesWritten_inOrder h).mem (Nat.zero_le _) hlt
  cases hdecl.symm.trans hdecl'
  have hstruct : decl.shapeName = "struct" := by simp [TypeDecl.shapeName, hshape]
  rw [hstruct] at hcompletes
  obtain ⟨members, hmem⟩ := mem_declStructs_of_completes hcompletes [] (types d) hw
  obtain ⟨decl', _, hdecl', _, rfl⟩ := hsound hmem
  cases hdecl.symm.trans hdecl'
  exact hmem

omit h

/-- A value or a rule that is in the code, and a float in it. -/
inductive FloatOf (d : Device) (x : Single) : Prop where
  /-- An outermost parameter is a variable with its value. -/
  | value {oid : String} {id : ParamId} {p : Param} (listed : (oid, id) ∈ d.params)
      (found : d.param? id = some p) (inside : x ∈ p.singles)
  /-- A parameter that a struct is made of is a member, and its value the default. -/
  | default {t : TypeId} {members : List Param} {p : Param} (struct : IsStruct d t members)
      (member : p ∈ members) (inside : x ∈ p.singles)
  | range {c : Constraint} (listed : c ∈ d.constraints) (inside : x ∈ c.rule.singles)

/-- The floats in the code are those of values, defaults and ranges. -/
theorem mem_floatsWritten (h : Resolved source importRoot description d shared params commands)
    (sourceName : String) (x : Single) : x ∈ floatsWritten d sourceName ↔ FloatOf d x := by
  rw [floatsWritten, Marked.floats_header, Marked.floats_body, List.mem_append]
  constructor
  · rintro (hx | hx)
    · obtain ⟨⟨t, members⟩, hs, hx⟩ := List.mem_flatMap.mp hx
      obtain ⟨p, hp, hx⟩ := List.mem_flatMap.mp hx
      exact .default ((mem_declStructs_types h).mp hs) hp hx
    · obtain ⟨i, hi, hx⟩ := List.mem_flatMap.mp hx
      cases i with
      | constraint id =>
        obtain ⟨c, hc, hx⟩ := List.mem_flatMap.mp hx
        exact .range (Array.mem_of_getElem? (Option.mem_toList.mp hc)) hx
      | value id =>
        obtain ⟨p, hp, hx⟩ := List.mem_flatMap.mp hx
        obtain ⟨oid, hlisted⟩ := mem_items_value.mp hi
        exact .value hlisted (Option.mem_toList.mp hp) hx
      | _ => simp [Item.singles] at hx
  · intro hx
    cases hx with
    | value listed found inside =>
      exact .inr
        (List.mem_flatMap.mpr
        ⟨_, mem_items_value.mpr ⟨_, listed⟩, by simpa [Item.singles, found] using inside⟩)
    | default struct member inside =>
      exact .inl (List.mem_flatMap.mpr
        ⟨_, (mem_declStructs_types h).mpr struct, List.mem_flatMap.mpr ⟨_, member, inside⟩⟩)
    | range listed inside =>
      obtain ⟨i, hi, rfl⟩ := Array.getElem_of_mem listed
      obtain ⟨values, hordered⟩ := items_ordered h
      refine .inr (List.mem_flatMap.mpr ⟨_, hordered.constraint_mem (c := ⟨i⟩) hi, ?_⟩)
      simpa [Item.singles, Device.constraint?, Array.getElem?_eq_getElem hi] using inside

end Whole

end Cpp

end DeviceModel
