import DeviceModel.Cpp.Generate
import DeviceModel.Proofs.Closure
import DeviceModel.Proofs.Constraints
import DeviceModel.Proofs.Items

namespace DeviceModel

namespace Cpp

section Checked

variable (d : Device)

def declName? (position : Position) (t : TypeId) : Option String := do
  let decl ← d.typeDecl? t
  match position with
  | .inside => return decl.qualifiedName
  | .outside => return d.ns ++ "::" ++ decl.qualifiedName

def typeName? (position : Position) : ValueType → Option String
  | .empty => some (runtime ++ "::EmptyValue")
  | .string => some "std::string"
  | .int32 => some "int32_t"
  | .float32 => some "float"
  | .struct t => declName? d position t
  | .variant t => declName? d position t
  | .array t => do return "std::vector<" ++ (← typeName? position t) ++ ">"

def paramType? (position : Position) (p : Param) : Option String :=
  match p.container with
  | some t => declName? d position t
  | none => typeName? d position p.type

mutual

def initializer? (position : Position) : Initializer → Option String
  | .string s => some (quote s)
  | .int32 i => some (int i)
  | .float32 x => some (float x)
  | .list items => do return braced (← initializers? position items)
  | .struct fields => do return braced (← designators? position fields)
  | .variant t index _ type value => do
    let name ← declName? d position t
    let typed ← (if needsType value then typeName? d position type else some "")
    return name ++ braced
      ["std::in_place_index<" ++ toString index ++ ">", typed ++ (← initializer? position value)]

def initializers? (position : Position) : List Initializer → Option (List String)
  | [] => some []
  | v :: rest => do return (← initializer? position v) :: (← initializers? position rest)

def designators? (position : Position) : List (String × Initializer) → Option (List String)
  | [] => some []
  | (name, v) :: rest => do
    return ("." ++ name ++ " = " ++ (← initializer? position v)) :: (← designators? position rest)

end

/-- A variable or member of a parameter's type, with its value. -/
def binding? (position : Position) (p : Param) : Option String := do
  let type ← paramType? d position p
  let value ← p.value.mapM (initializer? d position)
  return type ++ " " ++ p.oid ++
    match value with
    | some text => " = " ++ text ++ ";"
    | none => "\x7b\x7d;"

def ownContainer? (p : Param) : Option (List Decl) :=
  match p.container with
  | none => some []
  | some t => do
    let decl ← d.typeDecl? t
    match decl with
    | { name, owner, shape := .array element, .. } =>
      return if owner = p.id then [.container t name element] else []
    | _ => return []

def declaresAnything? (p : Param) : Option Bool := do
  let container ← ownContainer? d p
  return p.declares.isSome || !container.isEmpty

def holder? (p : Param) (inStruct : Bool) (inner : List Decl) : Option (List Decl) := do
  let children ← d.children? p.id
  let declaring ← children.mapM (declaresAnything? d)
  return if declaring.any id then [.holder ("_" ++ p.oid) inStruct inner] else []

def declarations? : Nat → Bool → Param → Option (List Decl)
  | 0, _, _ => none
  | depth + 1, inStruct, p => do
    let children ← d.children? p.id
    let decl ← p.declares.mapM fun t => (d.typeDecl? t).map fun decl => (t, decl)
    let own ← (match decl with
      | some (t, { name, shape := .struct _, .. }) =>
        (gather (declarations? depth true) children).map fun inner =>
          [.struct t name inner children]
      | some (t, { name, shape := .variant _, .. }) =>
        ((gather (declarations? depth inStruct) children).bind (holder? d p inStruct)).map
          (· ++ [.variant t name children])
      | some _ => some []
      | none =>
        if p.isCommand then (gather (declarations? depth inStruct) children).bind
          (holder? d p inStruct)
        else some [])
    return own ++ (← ownContainer? d p)

def types? : Option (List Decl) :=
  gather (fun e => d.param? e.2 >>= declarations? d (d.nodes.size + 1) false)
    (d.params ++ d.commands)

mutual

def Decl.lines? (depth : Nat) : Decl → Option (List Line)
  | .struct _ name inner members => do
    let inner ← declLines? (depth + 1) inner
    let members ← members.mapM fun p => (binding? d .inside p).map (Line.mk (depth + 1))
    return block depth ("struct " ++ name)
      (inner ++ members ++ [⟨depth + 1, usingLine "isCatenaStruct" "void"⟩]) "\x7d;"
  | .variant _ name alternatives => do
    let types ← alternatives.mapM (paramType? d .inside)
    return [⟨depth, usingLine name ("std::variant<" ++ Text.join ", " types ++ ">")⟩]
  | .container _ name element =>
    do return [⟨depth, usingLine name (← typeName? d .inside (.array element))⟩]
  | .holder name inStruct inner => do
    let inner ← declLines? (depth + 1) inner
    return if inStruct then block depth ("struct " ++ name) inner "\x7d;"
      else block depth ("namespace " ++ name) inner ("\x7d // namespace " ++ name)

def declLines? (depth : Nat) : List Decl → Option (List Line)
  | [] => some []
  | decl :: rest => do return (← decl.lines? depth) ++ (← declLines? depth rest)

end

def reflection? (t : TypeDecl) : Option (List Line) := do
  let full := d.ns ++ "::" ++ t.qualifiedName
  let children ← d.children? t.owner
  let types ← children.mapM (paramType? d .outside)
  match t.shape with
  | .struct fields =>
    return info "StructInfo" full [
      usingLine "T" full,
      usingLine "Type" (tuple (types.map fun type => runtime ++ "::FieldInfo<" ++ type ++ ", T>")),
      "static constexpr Type fields = "
        ++ braced (fields.map fun f => braced [quote f.name, "&T::" ++ f.name]) ++ ";"]
  | .variant alternatives =>
    return info "VariantInfo" full [
      usingLine "Type"
        (tuple (types.map fun type => runtime ++ "::AlternativeInfo<" ++ type ++ ">")),
      "static constexpr Type alternatives = "
        ++ braced (alternatives.map fun a => braced [quote a.name]) ++ ";"]
  | .array _ => return []

def header? (sourceName : String) : Option (List Line) := do
  let decls ← types? d
  let lines ← declLines? d 1 decls
  let infos ← gather (reflection? d) d.types.toList
  return [⟨0, "#pragma once"⟩, .blank]
    ++ banner sourceName
    ++ includes ["Device.h", "StructInfo.h", "cstdint", "string", "tuple", "variant", "vector"]
    ++ [.blank, ⟨0, "extern " ++ runtime ++ "::Device dm;"⟩, .blank]
    ++ block 0 ("namespace " ++ d.ns) lines ("\x7d // namespace " ++ d.ns)
    ++ infos

def ownedConstraint? (p : Param) : Option (List Item) :=
  match p.constraint with
  | none => some []
  | some id => do
    let c ← d.constraint? id
    return if c.owner = some p.id then [.constraint id] else []

def descriptors? (root : ParamId) : Option (List Item) := do
  let ids ← d.subtree? root
  gather (fun id => (d.param? id >>= ownedConstraint? d).map (· ++ [.descriptor id])) ids

def items? : Option (List Item) := do
  let params ← gather
    (fun e => (descriptors? d e.2).map ([.blank, .value e.2] ++ · ++ [.param e.2])) d.params
  let commands ← gather
    (fun e => (descriptors? d e.2).map ([.blank] ++ · ++ [.command e.2])) d.commands
  return [.device]
    ++ paragraph (d.languagePacks.map .languagePack)
    ++ paragraph (d.sharedConstraints.map fun e => .constraint e.2)
    ++ unrepeated [] (params ++ commands)
    ++ d.menuGroups.flatMap menuItems

def descriptorText? (p : Param) : Option String := do
  let constraint ← p.constraint.mapM d.constraint?
  let parent ← p.parent.mapM d.param?
  return define "ParamDescriptor" (descriptorName p) [
    "catena::ParamType::" ++ p.type.code.text,
    strings p.oidAliases,
    pairs p.name,
    optional p.widget,
    optional p.accessScope,
    bool p.readOnly,
    quote p.oid,
    reference (constraint.map constraintName),
    reference (parent.map descriptorName),
    "dm",
    bool p.isCommand]

/-- The text of an item. Most items hold all that they say. -/
def Item.text? : Item → Option String
  | .constraint id => do return constraintText (← d.constraint? id)
  | .value id => do binding? d .outside (← d.param? id)
  | .descriptor id => do descriptorText? d (← d.param? id)
  | .param id => do
    let p ← d.param? id
    return paramText (← paramType? d .outside p) p.oid false p
  | .command id => do
    return paramText (runtime ++ "::EmptyValue") (runtime ++ "::emptyValue") true (← d.param? id)
  | i => some (i.text d)

def body? (headerName sourceName : String) : Option (List Line) := do
  let items ← items? d
  let lines ← items.mapM fun i => (i.text? d).map (Line.mk 0)
  return preamble headerName sourceName ++ lines

def generate? (sourceName : String) : Option Generated := do
  let headerName := sourceName ++ ".h"
  let header ← header? d sourceName
  let body ← body? d headerName sourceName
  return { headerName
           header := render header
           bodyName := sourceName ++ ".cpp"
           body := render body }

end Checked

section Names

variable {d : Device} (position : Position)

theorem declName?_eq {t : TypeId} (ht : t.index < d.types.size) :
    declName? d position t = some (declName d position t) := by
  have hfound : d.typeDecl? t = some d.types[t.index] := Array.getElem?_eq_getElem ht
  rw [declName?, declName, hfound]
  cases position <;> rfl

theorem typeName?_eq {t : ValueType} (ht : Among d.types.size t.typeIds) :
    typeName? d position t = some (typeName d position t) := by
  induction t with
  | struct u | variant u => exact declName?_eq position (ht u (by simp [ValueType.typeIds]))
  | array element ih =>
    rw [typeName?, ih ht]
    rfl
  | _ => rfl

/-- The type of a parameter is named where the types it refers to are there. -/
theorem paramType?_eq {p : Param} (hp : Among d.types.size p.typeIds) :
    paramType? d position p = some (paramType d position p) := by
  unfold paramType? paramType
  cases hc : p.container with
  | none => exact typeName?_eq position hp.left
  | some t => exact declName?_eq position (hp.right.left t (by simp [hc]))

mutual

theorem initializer?_eq :
    ∀ (v : Initializer), Among d.types.size v.typeIds →
      initializer? d position v = some (initializer d position v)
  | .string _, _ | .int32 _, _ | .float32 _, _ => rfl
  | .list items, hv => by
    rw [initializer?, initializers?_eq items hv]
    rfl
  | .struct fields, hv => by
    rw [initializer?, designators?_eq fields hv]
    rfl
  | .variant t index alternative type v, hv => by
    rw [Initializer.typeIds] at hv
    have hname := declName?_eq position (hv t (by simp))
    have hinner : Among d.types.size (type.typeIds ++ v.typeIds) := fun u hu =>
      hv u (List.mem_cons_of_mem _ hu)
    have htyped : (if needsType v then typeName? d position type else some "") =
        some (if needsType v then typeName d position type else "") := by
      split
      · exact typeName?_eq position hinner.left
      · rfl
    rw [initializer?, hname, htyped, initializer?_eq v hinner.right, initializer]
    rfl

theorem initializers?_eq :
    ∀ (items : List Initializer), Among d.types.size (itemTypeIds items) →
      initializers? d position items = some (initializers d position items)
  | [], _ => rfl
  | v :: rest, h => by
    rw [initializers?, initializer?_eq v h.left, initializers?_eq rest h.right]
    rfl

theorem designators?_eq :
    ∀ (fields : List (String × Initializer)), Among d.types.size (fieldTypeIds fields) →
      designators? d position fields = some (designators d position fields)
  | [], _ => rfl
  | (name, v) :: rest, h => by
    rw [designators?, initializer?_eq v h.left, designators?_eq rest h.right]
    rfl

end

/-- Parameters of the device are written with their types and values. -/
theorem binding?_eq {p : Param} (hp : Among d.types.size p.typeIds) :
    binding? d position p = some (paramType d position p ++ " " ++ p.oid ++
      match p.value with
      | some v => " = " ++ initializer d position v ++ ";"
      | none => "\x7b\x7d;") := by
  rw [binding?, paramType?_eq position hp]
  cases hv : p.value with
  | none => rfl
  | some v =>
    have hvalue : Among d.types.size v.typeIds := fun t ht =>
      hp.right.right t (by simp [hv, valueTypeIds, ht])
    simp only [Option.mapM_some, initializer?_eq position v hvalue]
    rfl

end Names

section Declarations

variable {d : Device} (h : Closed d)

/-- A type of the device has this name. -/
def Titled (d : Device) (t : TypeId) (title : String) : Prop :=
  ∃ decl, d.typeDecl? t = some decl ∧ decl.name = title

mutual

/-- A declaration that is made of parameters of the device and of types that it has, and named after
them. -/
def Decl.Drawn (d : Device) : Decl → Prop
  | .struct t title inner members =>
    Titled d t title ∧ AllDrawn d inner ∧ ∀ p ∈ members, p ∈ d.nodes
  | .variant t title alternatives => Titled d t title ∧ ∀ p ∈ alternatives, p ∈ d.nodes
  | .container t title element => Titled d t title ∧ Among d.types.size element.typeIds
  | .holder title _ inner => (∃ p ∈ d.nodes, title = "_" ++ p.oid) ∧ AllDrawn d inner

def AllDrawn (d : Device) : List Decl → Prop
  | [] => True
  | decl :: rest => decl.Drawn d ∧ AllDrawn d rest

end

theorem allDrawn_append {front back : List Decl} (hfront : AllDrawn d front)
    (hback : AllDrawn d back) :
    AllDrawn d (front ++ back) := by
  induction front with
  | nil => exact hback
  | cons decl rest ih => exact ⟨hfront.1, ih hfront.2⟩

theorem allDrawn_flatMap {α : Type} {f : α → List Decl} {as : List α}
    (h : ∀ a ∈ as, AllDrawn d (f a)) :
    AllDrawn d (as.flatMap f) := by
  induction as with
  | nil => trivial
  | cons a rest ih =>
    have hrest := ih fun b hb => h b (List.mem_cons_of_mem _ hb)
    exact allDrawn_append (h a (List.mem_cons_self ..)) hrest

theorem holder_drawn {p : Param} (hp : p ∈ d.nodes) {inStruct : Bool} {inner : List Decl}
    (hinner : AllDrawn d inner) : AllDrawn d (holder d p inStruct inner) := by
  unfold holder
  split
  · exact ⟨⟨⟨p, hp, rfl⟩, hinner⟩, trivial⟩
  · trivial

/-- A declared type has the name that it is found with. -/
theorem titled_of_declares {p : Param} {t : TypeId} {decl : TypeDecl}
    (hfound : (p.declares.bind fun t => (d.typeDecl? t).map fun decl => (t, decl)) =
      some (t, decl)) :
    Titled d t decl.name := by
  obtain ⟨u, _, hu⟩ := Option.bind_eq_some_iff.mp hfound
  obtain ⟨decl', hdecl, heq⟩ := Option.map_eq_some_iff.mp hu
  cases heq
  exact ⟨decl, hdecl, rfl⟩

include h

/-- A container that a parameter has is there, and what it contains is. -/
theorem ownContainer?_eq {p : Param} (hp : p ∈ d.nodes) :
    ownContainer? d p = some (ownContainer d p) ∧ AllDrawn d (ownContainer d p) := by
  unfold ownContainer? ownContainer
  cases hc : p.container with
  | none => exact ⟨rfl, trivial⟩
  | some t =>
    have ht : t.index < d.types.size := (h.typed p hp).right.left t (by simp [hc])
    have hfound : d.typeDecl? t = some d.types[t.index] := Array.getElem?_eq_getElem ht
    have hshape := (h.shapes t.index d.types[t.index] (by simp)).mono (Nat.le_of_lt ht)
    simp only [hfound]
    generalize d.types[t.index] = decl at hshape hfound
    obtain ⟨name, scope, owner, shape⟩ := decl
    cases shape with
    | array element =>
      refine ⟨rfl, ?_⟩
      dsimp only
      split
      · exact ⟨⟨⟨_, hfound, rfl⟩, hshape⟩, trivial⟩
      · trivial
    | _ => exact ⟨rfl, trivial⟩

theorem holder?_eq {p : Param} (hp : p ∈ d.nodes) (inStruct : Bool) (inner : List Decl) :
    holder? d p inStruct inner = some (holder d p inStruct inner) := by
  have hdeclaring : (d.children p.id).mapM (declaresAnything? d) =
      some ((d.children p.id).map (declaresAnything d)) := by
    apply mapM_eq_some
    intro c hc
    rw [declaresAnything?, (ownContainer?_eq h (h.mem_children hp hc).1).1]
    rfl
  rw [holder?, h.children? hp]
  simp only [hdeclaring, Option.bind_eq_bind, Option.bind_some, List.any_map, holder]
  rfl

theorem declared? {p : Param} (hp : p ∈ d.nodes) :
    (p.declares.mapM fun t => (d.typeDecl? t).map fun decl => (t, decl)) =
      some (p.declares.bind fun t => (d.typeDecl? t).map fun decl => (t, decl)) := by
  cases ht : p.declares with
  | none => rfl
  | some t =>
    have hfound : d.typeDecl? t = some _ := Array.getElem?_eq_getElem (h.declares p hp t ht)
    simp [hfound]

theorem declarations_drawn {depth : Nat} {p : Param} (hp : p ∈ d.nodes) (inStruct : Bool) :
    AllDrawn d (declarations d depth inStruct p) := by
  induction depth generalizing p inStruct with
  | zero => trivial
  | succ depth ih =>
    have hmembers : ∀ c ∈ d.children p.id, c ∈ d.nodes := fun c hc => (h.mem_children hp hc).1
    have hinner : ∀ inStruct,
        AllDrawn d ((d.children p.id).flatMap (declarations d depth inStruct)) :=
      fun inStruct => allDrawn_flatMap fun c hc => ih (hmembers c hc) inStruct
    rw [declarations]
    apply allDrawn_append _ (ownContainer?_eq h hp).2
    split
    · next hfound => exact ⟨⟨titled_of_declares hfound, hinner true, hmembers⟩, trivial⟩
    · next hfound =>
      exact allDrawn_append (holder_drawn hp (hinner inStruct))
        ⟨⟨titled_of_declares hfound, hmembers⟩, trivial⟩
    · trivial
    · split
      · exact holder_drawn hp (hinner inStruct)
      · trivial

/-- The depth is never reached: each level down starts further along the arena. -/
theorem declarations?_eq {depth : Nat} {p : Param} (hp : p ∈ d.nodes)
    (hn : d.nodes.size ≤ p.id.index + depth) (inStruct : Bool) :
    declarations? d depth inStruct p = some (declarations d depth inStruct p) := by
  induction depth generalizing p inStruct with
  | zero =>
    have hlt := h.param?_lt hp
    omega
  | succ depth ih =>
    have hinner : ∀ inStruct, gather (declarations? d depth inStruct) (d.children p.id) =
        some ((d.children p.id).flatMap (declarations d depth inStruct)) := by
      intro inStruct
      apply gather_eq_some
      intro c hc
      obtain ⟨hmem, hlt⟩ := h.mem_children hp hc
      exact ih hmem (by omega) inStruct
    rw [declarations?, declarations, h.children? hp, declared? h hp]
    simp only [hinner, (ownContainer?_eq h hp).1, holder?_eq h hp, Option.bind_eq_bind,
      Option.bind_some]
    generalize (p.declares.bind fun t => (d.typeDecl? t).map fun decl => (t, decl)) = declared
    cases declared with
    | none => cases p.isCommand <;> rfl
    | some declared =>
      obtain ⟨t, name, scope, owner, shape⟩ := declared
      cases shape <;> rfl

theorem types?_eq : types? d = some (types d) ∧ AllDrawn d (types d) := by
  have hroot : ∀ e ∈ d.params ++ d.commands, ∃ p ∈ d.nodes, d.param? e.2 = some p := by
    intro e he
    rcases List.mem_append.mp he with he | he
    · obtain ⟨p, hp, hid⟩ := h.roots .params e he
      exact ⟨p, hp, hid ▸ h.placed p hp⟩
    · obtain ⟨p, hp, hid⟩ := h.roots .commands e he
      exact ⟨p, hp, hid ▸ h.placed p hp⟩
  constructor
  · apply gather_eq_some
    intro e he
    obtain ⟨p, hp, hfound⟩ := hroot e he
    simp only [hfound, Option.bind_eq_bind, Option.bind_some]
    exact declarations?_eq h hp (by omega) false
  · apply allDrawn_flatMap
    intro e he
    obtain ⟨p, hp, hfound⟩ := hroot e he
    simp only [hfound]
    exact declarations_drawn h hp false

theorem paramTypes?_eq (position : Position) {ps : List Param} (hps : ∀ p ∈ ps, p ∈ d.nodes) :
    ps.mapM (paramType? d position) = some (ps.map (paramType d position)) :=
  mapM_eq_some fun p hp => paramType?_eq position (h.typed p (hps p hp))

omit h

mutual

theorem lines?_eq (h : Closed d) (depth : Nat) :
    ∀ (decl : Decl), decl.Drawn d → decl.lines? d depth = some (decl.lines d depth)
  | .struct _ name inner members, hdrawn => by
    have hmembers : members.mapM (fun p => (binding? d .inside p).map (Line.mk (depth + 1))) =
        some (members.map fun p => ⟨depth + 1, member d p⟩) := by
      apply mapM_eq_some
      intro p hp
      rw [binding?_eq .inside (h.typed p (hdrawn.2.2 p hp))]
      rfl
    rw [Decl.lines?, declLines?_eq h (depth + 1) inner hdrawn.2.1, Decl.lines]
    simp only [hmembers, Option.bind_eq_bind, Option.bind_some]
    rfl
  | .variant _ name alternatives, hdrawn => by
    rw [Decl.lines?, paramTypes?_eq h .inside hdrawn.2]
    rfl
  | .container _ name element, hdrawn => by
    rw [Decl.lines?, typeName?_eq .inside
      (show Among d.types.size (ValueType.array element).typeIds from hdrawn.2)]
    rfl
  | .holder name inStruct inner, hdrawn => by
    rw [Decl.lines?, declLines?_eq h (depth + 1) inner hdrawn.2]
    rfl

theorem declLines?_eq (h : Closed d) (depth : Nat) :
    ∀ (decls : List Decl), AllDrawn d decls →
      declLines? d depth decls = some (declLines d depth decls)
  | [], _ => rfl
  | decl :: rest, hdrawn => by
    rw [declLines?, lines?_eq h depth decl hdrawn.1, declLines?_eq h depth rest hdrawn.2]
    rfl

end

include h

theorem reflection?_eq {t : TypeDecl} (ht : t ∈ d.types) :
    reflection? d t = some (reflection d t) := by
  obtain ⟨owner, howner, hid⟩ := h.typeOwners t ht
  have hmembers : ∀ c ∈ d.children t.owner, c ∈ d.nodes := fun c hc =>
    (h.mem_children howner (hid ▸ hc)).1
  rw [reflection?, ← hid, h.children? howner, hid]
  simp only [paramTypes?_eq h .outside hmembers, Option.bind_eq_bind, Option.bind_some, reflection]
  cases t.shape <;> simp only [List.map_map] <;> rfl

theorem header?_eq (sourceName : String) : header? d sourceName = some (header d sourceName) := by
  obtain ⟨htypes, hdrawn⟩ := types?_eq h
  have hinfos : gather (reflection? d) d.types.toList =
      some (d.types.toList.flatMap (reflection d)) :=
    gather_eq_some fun t ht => reflection?_eq h (Array.mem_toList_iff.mp ht)
  rw [header?, htypes]
  simp only [declLines?_eq h 1 _ hdrawn, hinfos, Option.bind_eq_bind, Option.bind_some]
  rfl

end Declarations

section Definitions

variable {d : Device} (h : Closed d)

/-- An item of something that the device has. -/
def Item.Drawn (d : Device) : Item → Prop
  | .blank | .device => True
  | .languagePack pack => pack ∈ d.languagePacks
  | .constraint id => id.index < d.constraints.size
  | .value id | .descriptor id | .param id | .command id => ∃ p ∈ d.nodes, p.id = id
  | .menuGroup g => g ∈ d.menuGroups
  | .menu group m => ∃ g ∈ d.menuGroups, g.oid = group ∧ m ∈ g.menus

include h

theorem ownedConstraint?_eq {p : Param} (hp : p ∈ d.nodes) :
    ownedConstraint? d p = some (ownedConstraint d p) ∧ ∀ i ∈ ownedConstraint d p, i.Drawn d := by
  unfold ownedConstraint? ownedConstraint
  cases hc : p.constraint with
  | none => exact ⟨rfl, by simp⟩
  | some id =>
    have hid := h.constraints p hp id hc
    have hfound : d.constraint? id = some d.constraints[id.index] := Array.getElem?_eq_getElem hid
    simp only [hfound]
    refine ⟨rfl, ?_⟩
    intro i hi
    split at hi
    · rw [List.mem_singleton.mp hi]
      exact hid
    · cases hi

theorem descriptors?_eq {root : Param} (hroot : root ∈ d.nodes) :
    descriptors? d root.id = some (descriptors d root.id) ∧ ∀ i ∈ descriptors d root.id,
      i.Drawn d := by
  constructor
  · rw [descriptors?, h.subtree? hroot]
    apply gather_eq_some
    intro id hid
    obtain ⟨p, hp, rfl⟩ := h.mem_subtree hroot hid
    simp only [h.placed p hp, Option.bind_eq_bind, Option.bind_some, (ownedConstraint?_eq h hp).1]
    rfl
  · intro i hi
    obtain ⟨id, hid, hi⟩ := List.mem_flatMap.mp hi
    obtain ⟨p, hp, rfl⟩ := h.mem_subtree hroot hid
    simp only [h.placed p hp, List.mem_append, List.mem_singleton] at hi
    rcases hi with hi | rfl
    · exact (ownedConstraint?_eq h hp).2 i hi
    · exact ⟨p, hp, rfl⟩

theorem items?_eq : items? d = some (items d) := by
  have hdescriptors : ∀ realm, ∀ e ∈ d.roots realm, descriptors? d e.2 =
      some (descriptors d e.2) := by
    intro realm e he
    obtain ⟨p, hp, hid⟩ := h.roots realm e he
    rw [← hid]
    exact (descriptors?_eq h hp).1
  have hparams : gather
      (fun e => (descriptors? d e.2).map ([.blank, .value e.2] ++ · ++ [.param e.2])) d.params =
        some (d.params.flatMap fun e => paramItems d e.2) := by
    apply gather_eq_some
    intro e he
    rw [hdescriptors .params e he]
    rfl
  have hcommands : gather (fun e => (descriptors? d e.2).map ([.blank] ++ · ++ [.command e.2]))
      d.commands =
        some (d.commands.flatMap fun e => commandItems d e.2) := by
    apply gather_eq_some
    intro e he
    rw [hdescriptors .commands e he]
    rfl
  rw [items?, hparams, hcommands]
  rfl

theorem items_drawn {i : Item} (hi : i ∈ items d) : i.Drawn d := by
  have htree : i ∈ unrepeated [] (trees d) → (∃ e ∈ d.params, i ∈ paramItems d e.2) ∨
      ∃ e ∈ d.commands, i ∈ commandItems d e.2 := by
    intro hi
    simpa only [trees, List.mem_append, List.mem_flatMap] using mem_of_mem_unrepeated hi
  simp only [items, List.mem_append, List.mem_flatMap, List.mem_singleton] at hi
  rcases hi with (((rfl | hi) | hi) | hi) | ⟨g, hg, hi⟩
  · trivial
  · rcases mem_paragraph hi with rfl | hi
    · trivial
    · obtain ⟨pack, hpack, rfl⟩ := List.mem_map.mp hi
      exact hpack
  · rcases mem_paragraph hi with rfl | hi
    · trivial
    · obtain ⟨e, he, rfl⟩ := List.mem_map.mp hi
      exact h.shared e he
  · rcases htree hi with ⟨e, he, hi⟩ | ⟨e, he, hi⟩
    · obtain ⟨p, hp, hid⟩ := h.roots .params e he
      simp only [paramItems, List.mem_append, List.mem_cons, List.not_mem_nil, or_false] at hi
      rcases hi with ((rfl | rfl) | hi) | rfl
      · trivial
      · exact ⟨p, hp, hid⟩
      · exact (descriptors?_eq h hp).2 i (hid ▸ hi)
      · exact ⟨p, hp, hid⟩
    · obtain ⟨p, hp, hid⟩ := h.roots .commands e he
      simp only [commandItems, List.mem_append, List.mem_cons, List.not_mem_nil, or_false] at hi
      rcases hi with (rfl | hi) | rfl
      · trivial
      · exact (descriptors?_eq h hp).2 i (hid ▸ hi)
      · exact ⟨p, hp, hid⟩
  · simp only [menuItems, List.mem_append, List.mem_cons, List.not_mem_nil, or_false,
      List.mem_map] at hi
    rcases hi with (rfl | rfl) | ⟨m, hm, rfl⟩
    · trivial
    · exact hg
    · exact ⟨g, hg, rfl, hm⟩

theorem text?_eq {i : Item} (hi : i.Drawn d) : i.text? d = some (i.text d) := by
  cases i with
  | constraint id =>
    have hfound : d.constraint? id = some d.constraints[id.index] := Array.getElem?_eq_getElem hi
    simp [Item.text?, Item.text, hfound]
  | value id =>
    obtain ⟨p, hp, rfl⟩ := hi
    simp only [Item.text?, Item.text, h.placed p hp, Option.bind_eq_bind, Option.bind_some,
      binding?_eq .outside (h.typed p hp)]
    rfl
  | descriptor id =>
    obtain ⟨p, hp, rfl⟩ := hi
    simp only [Item.text?, Item.text, h.placed p hp, Option.bind_eq_bind, Option.bind_some,
      descriptorText?, h.constraint? hp, h.parent? hp]
    rfl
  | param id =>
    obtain ⟨p, hp, rfl⟩ := hi
    simp only [Item.text?, Item.text, h.placed p hp, Option.bind_eq_bind, Option.bind_some,
      paramType?_eq .outside (h.typed p hp)]
    rfl
  | command id =>
    obtain ⟨p, hp, rfl⟩ := hi
    simp [Item.text?, Item.text, h.placed p hp]
  | _ => rfl

theorem body?_eq (headerName sourceName : String) :
    body? d headerName sourceName = some (body d headerName sourceName) := by
  have hlines : (items d).mapM (fun i => (i.text? d).map (Line.mk 0)) =
      some ((items d).map fun i => ⟨0, i.text d⟩) := by
    apply mapM_eq_some
    intro i hi
    rw [text?_eq h (items_drawn h hi)]
    rfl
  rw [body?, items?_eq h]
  simp only [hlines, Option.bind_eq_bind, Option.bind_some]
  rfl

/-- Generation reads nothing that is not there. -/
theorem generate?_eq (sourceName : String) :
    generate? d sourceName = some (generate d sourceName) := by
  rw [generate?, header?_eq h, body?_eq h]
  rfl

end Definitions

end Cpp

/-- No index leads nowhere: neither one that a device holds, nor one that is followed in reading it,
in generating code for it or in resolving one more value for a parameter of it. -/
structure InRange (d : Device) : Prop where
  closed : Closed d
  children : ∀ id : ParamId, id.index < d.nodes.size → d.children? id = some (d.children id)
  subtree : ∀ id : ParamId, id.index < d.nodes.size → d.subtree? id = some (d.subtree id)
  located : ∀ realm fqoid, d.locate? realm fqoid = some (d.find? realm fqoid)
  summary : d.summary? = some d.summary
  values : ∀ p ∈ d.nodes, ∀ v label oid, Resolve.value d.types v label p.type ≠
    .error (.dangling oid)
  code : ∀ sourceName, Cpp.generate? d sourceName = some (Cpp.generate d sourceName)

namespace Closed

variable {d : Device} (h : Closed d)

include h

/-- A value of a declared type is resolved with what is declared. -/
theorem value_not_dangling {p : Param} (hp : p ∈ d.nodes) (v : Description.Value)
    (label oid : String) :
    Resolve.value d.types v label p.type ≠ .error (.dangling oid) := by
  intro hv
  have hgood := Resolve.value_avoids Resolve.isDangling_onlyReferences (fun _ _ => h.shapes) v
    (fun _ _ => (h.typed p hp).left) hv
  cases hgood

theorem inRange : InRange d where
  closed := h
  children id hid := by
    obtain ⟨p, hp, rfl⟩ := h.node hid
    exact h.children? hp
  subtree id hid := by
    obtain ⟨p, hp, rfl⟩ := h.node hid
    exact h.subtree? hp
  located := h.locate?
  summary := h.summary?
  values _ hp := h.value_not_dangling hp
  code := Cpp.generate?_eq h

end Closed

open Resolve
open Description (Declaration)

theorem resolved_inRange (ns : String) (description : Description.Device) (importRoot : Path)
    (source : Source) :
    (∀ oid, (resolveDevice ns description importRoot source).result ≠ .error (.dangling oid)) ∧
      ∀ d, (resolveDevice ns description importRoot source).result = .ok d → InRange d := by
  refine ⟨resolveDevice_not_dangling ns description importRoot source, ?_⟩
  intro d hd
  obtain ⟨shared, params, commands, h⟩ := resolveDevice_resolved hd
  exact h.closed.inRange

/-- A channel whose level has a range of its own, an array of such channels, a command that is given
one, and a menu that shows all of them. -/
def mixer : Description.Device :=
  { Description.Device.small
      [("channel",
        ⟨{ Declaration.ofType "STRUCT" with value := some (.struct [("level", .int32 7)]) },
          [("level", ⟨{ Declaration.ofType "INT32" with constraint := some percent }, []⟩)]⟩),
        ("spares", ⟨{ Declaration.ofType "STRUCT_ARRAY" with template := some "channel" }, []⟩)]
      [("mute",
        ⟨.ofType "EMPTY",
        [("one", ⟨{ Declaration.ofType "STRUCT" with template := some "channel" }, []⟩)]⟩)] with
    menuGroups :=
      [⟨"main", [], [⟨"all", [], false, false, ["channel", "spares/level"], ["mute"], []⟩]⟩] }

theorem mixer_inRange :
    ∃ d, (resolveDevice "m" mixer ⟨"params"⟩ (Documents.source {})).result = .ok d ∧
      d.nodes.toList.map (fun p => (p.fqoid, p.parent, p.template, p.constraint)) =
        [("/channel", none, none, none), ("/channel/level", some ⟨0⟩, none, some ⟨0⟩),
          ("/spares", none, some ⟨0⟩, none),
          ("/spares/level", some ⟨2⟩, none, some ⟨0⟩), ("/mute", none, none, none),
          ("/mute/one", some ⟨4⟩, some ⟨0⟩, none), ("/mute/one/level", some ⟨5⟩, none, some ⟨0⟩)] ∧
      InRange d := by
  have hok :
      ((resolveDevice "m" mixer ⟨"params"⟩ (Documents.source {})).result.toOption.map fun d =>
      d.nodes.toList.map fun p => (p.fqoid, p.parent, p.template, p.constraint)) = some
        [("/channel", none, none, none), ("/channel/level", some ⟨0⟩, none, some ⟨0⟩),
          ("/spares", none, some ⟨0⟩, none),
          ("/spares/level", some ⟨2⟩, none, some ⟨0⟩), ("/mute", none, none, none),
          ("/mute/one", some ⟨4⟩, some ⟨0⟩, none),
          ("/mute/one/level", some ⟨5⟩, none, some ⟨0⟩)] := by
    decide +kernel
  obtain ⟨d, hd, hnodes⟩ := ok_of_toOption hok
  exact ⟨d, hd, hnodes, (resolved_inRange "m" mixer ⟨"params"⟩ (Documents.source {})).2 d hd⟩

end DeviceModel
