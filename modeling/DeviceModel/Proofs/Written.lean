import DeviceModel.Cpp.Header
import DeviceModel.Proofs.References

namespace DeviceModel.Cpp

/-- A type as it is written: under which name, and as what. -/
structure Completed where
  type : TypeId
  name : String
  shape : String
  deriving DecidableEq, Repr

/-- A block is the struct of a type, or a holder: a struct inside structs, else a namespace. -/
inductive Opened where
  | struct
  | holder (inStruct : Bool)
  deriving DecidableEq, Repr

/-- A line and what it does. The blocks around it are named outermost first. -/
structure Written where
  line : Line
  nest : List String
  opens : Option (String × Opened) := none
  completes : Option Completed := none
  spells : List TypeId := []
  deriving Repr

mutual

/-- The types whose names are in the text of a value. -/
def spelledByValue : Initializer → List TypeId
  | .list items => spelledByItems items
  | .struct fields => spelledByFields fields
  | .variant t _ _ type v => t :: ((if needsType v then type.typeIds else []) ++ spelledByValue v)
  | _ => []

def spelledByItems : List Initializer → List TypeId
  | [] => []
  | v :: rest => spelledByValue v ++ spelledByItems rest

def spelledByFields : List (String × Initializer) → List TypeId
  | [] => []
  | (_, v) :: rest => spelledByValue v ++ spelledByFields rest

end

/-- The types whose names are in the type of a parameter. -/
def spelledByType (p : Param) : List TypeId :=
  match p.container with
  | some t => [t]
  | none => p.type.typeIds

/-- The types whose names are in a member of a struct. -/
def spelledByMember (p : Param) : List TypeId :=
  spelledByType p ++ p.value.toList.flatMap spelledByValue

/-- Lines between those that open and close a block. -/
def enclosed (nest : List String) (name : String) (block : Opened) (opening closing : String)
    (completes : Option Completed) (inner : List Written) : List Written :=
  { line := ⟨nest.length + 1, opening ++ " \x7b"⟩, nest, opens := some (name, block) }
    :: inner ++ [{ line := ⟨nest.length + 1, closing⟩, nest, completes }]

mutual

/-- The lines of a declaration inside the given blocks. -/
def Decl.written (d : Device) (nest : List String) : Decl → List Written
  | .struct t name inner members =>
    enclosed nest name .struct ("struct " ++ name) "\x7d;" (some ⟨t, name, "struct"⟩)
      (declsWritten d (nest ++ [name]) inner
        ++ members.map (fun p =>
          { line := ⟨nest.length + 2, member d p⟩
            nest := nest ++ [name]
            spells := spelledByMember p })
        ++ [{ line := ⟨nest.length + 2, usingLine "isCatenaStruct" "void"⟩
              nest := nest ++ [name] }])
  | .variant t name alternatives =>
    [{ line := ⟨nest.length + 1, usingLine name
         ("std::variant<" ++ Text.join ", " (alternatives.map (paramType d .inside)) ++ ">")⟩
       nest
       completes := some ⟨t, name, "variant"⟩
       spells := alternatives.flatMap spelledByType }]
  | .container t name element =>
    [{ line := ⟨nest.length + 1, usingLine name (typeName d .inside (.array element))⟩
       nest
       completes := some ⟨t, name, "array"⟩
       spells := element.typeIds }]
  | .holder name inStruct inner =>
    if inStruct then
      enclosed nest name (.holder true) ("struct " ++ name) "\x7d;" none
        (declsWritten d (nest ++ [name]) inner)
    else
      enclosed nest name (.holder false) ("namespace " ++ name) ("\x7d // namespace " ++ name) none
        (declsWritten d (nest ++ [name]) inner)

def declsWritten (d : Device) (nest : List String) : List Decl → List Written
  | [] => []
  | decl :: rest => decl.written d nest ++ declsWritten d nest rest

end

/-- The lines that declare the types of a device. -/
def typesWritten (d : Device) : List Written := declsWritten d [] (types d)

@[simp] theorem declsWritten_nil (d : Device) (nest : List String) :
    declsWritten d nest [] = [] := by
  simp [declsWritten]

@[simp] theorem declsWritten_cons (d : Device) (nest : List String) (decl : Decl)
    (rest : List Decl) :
    declsWritten d nest (decl :: rest) = decl.written d nest ++ declsWritten d nest rest := by
  simp [declsWritten]

@[simp] theorem declsWritten_append (d : Device) (nest : List String) (decls rest : List Decl) :
    declsWritten d nest (decls ++ rest) = declsWritten d nest decls ++
      declsWritten d nest rest := by
  induction decls with
  | nil => simp
  | cons decl decls ih => simp [ih]

theorem line_enclosed (nest : List String) (name : String) (block' : Opened)
    (opening closing : String) (completes : Option Completed) (inner : List Written) :
    (enclosed nest name block' opening closing completes inner).map Written.line =
      block (nest.length + 1) opening (inner.map Written.line) closing := by
  simp [enclosed, block]

mutual

theorem line_written (d : Device) (nest : List String) :
    ∀ decl : Decl, (decl.written d nest).map Written.line = decl.lines d (nest.length + 1)
  | .struct t name inner members => by
    have h := line_declsWritten d (nest ++ [name]) inner
    rw [List.length_append] at h
    simp only [Decl.written, Decl.lines, line_enclosed, List.map_append, h, List.map_map]
    rfl
  | .variant t name alternatives => by simp [Decl.written, Decl.lines]
  | .container t name element => by simp [Decl.written, Decl.lines]
  | .holder name inStruct inner => by
    have h := line_declsWritten d (nest ++ [name]) inner
    rw [List.length_append] at h
    cases inStruct with
    | true => simp only [Decl.written, Decl.lines, if_true, line_enclosed, h]; rfl
    | false =>
      simp only [Decl.written, Decl.lines, Bool.false_eq_true, if_false, line_enclosed, h]; rfl

theorem line_declsWritten (d : Device) (nest : List String) :
    ∀ decls : List Decl, (declsWritten d nest decls).map Written.line =
      declLines d (nest.length + 1) decls
  | [] => by simp [declLines]
  | decl :: rest => by
    rw [declsWritten_cons, List.map_append, line_written d nest decl, line_declsWritten d nest rest,
      declLines]

end

/-- Two devices name these types alike. -/
def Alike (d d' : Device) (ids : List TypeId) : Prop :=
  ∀ t ∈ ids, declName d' .inside t = declName d .inside t

section Spelling

variable {d d' : Device}

theorem typeName_congr {type : ValueType} (h : Alike d d' type.typeIds) :
    typeName d' .inside type = typeName d .inside type := by
  induction type with
  | empty | string | int32 | float32 => rfl
  | struct t | variant t => exact h t (by simp [ValueType.typeIds])
  | array element ih =>
    rw [typeName, typeName, ih h]

theorem paramType_congr {p : Param} (h : Alike d d' (spelledByType p)) :
    paramType d' .inside p = paramType d .inside p := by
  unfold paramType
  cases hc : p.container with
  | none =>
    rw [spelledByType, hc] at h
    exact typeName_congr h
  | some t =>
    rw [spelledByType, hc] at h
    exact h t (by simp)

mutual

theorem initializer_congr :
    ∀ {v : Initializer}, Alike d d' (spelledByValue v) →
      initializer d' .inside v = initializer d .inside v
  | .string _, _ | .int32 _, _ | .float32 _, _ => by simp only [initializer]
  | .list items, h => by
    rw [spelledByValue] at h
    rw [initializer, initializer, initializers_congr h]
  | .struct fields, h => by
    rw [spelledByValue] at h
    rw [initializer, initializer, designators_congr h]
  | .variant t _ _ type v, h => by
    rw [spelledByValue] at h
    have hname : declName d' .inside t = declName d .inside t := h t (by simp)
    have hvalue : initializer d' .inside v = initializer d .inside v :=
      initializer_congr fun u hu => h u (by simp [hu])
    rw [initializer, initializer, hname, hvalue]
    cases hneeds : needsType v with
    | false => rfl
    | true =>
      have htype : typeName d' .inside type = typeName d .inside type :=
        typeName_congr fun u hu => h u (by simp [hneeds, hu])
      rw [htype]

theorem initializers_congr :
    ∀ {items : List Initializer}, Alike d d' (spelledByItems items) →
      initializers d' .inside items = initializers d .inside items
  | [], _ => by simp only [initializers]
  | v :: rest, h => by
    rw [spelledByItems] at h
    have hfirst := initializer_congr fun u hu => h u (List.mem_append_left _ hu)
    have hrest := initializers_congr fun u hu => h u (List.mem_append_right _ hu)
    rw [initializers, initializers, hfirst, hrest]

theorem designators_congr :
    ∀ {fields : List (String × Initializer)}, Alike d d' (spelledByFields fields) →
      designators d' .inside fields = designators d .inside fields
  | [], _ => by simp only [designators]
  | (_, v) :: rest, h => by
    rw [spelledByFields] at h
    have hfirst := initializer_congr fun u hu => h u (List.mem_append_left _ hu)
    have hrest := designators_congr fun u hu => h u (List.mem_append_right _ hu)
    rw [designators, designators, hfirst, hrest]

end

theorem member_congr {p : Param} (h : Alike d d' (spelledByMember p)) :
    member d' p = member d p := by
  have htype := paramType_congr fun u hu => h u (List.mem_append_left _ hu)
  unfold member
  cases hv : p.value with
  | none => rw [htype]
  | some v =>
    have hvalue : initializer d' .inside v = initializer d .inside v :=
      initializer_congr fun u hu => h u (by simp [spelledByMember, hv, hu])
    simp only [htype, hvalue]

/-- Two devices name alike what the lines spell. -/
def AlikeIn (d d' : Device) (ws : List Written) : Prop := ∀ w ∈ ws, Alike d d' w.spells

theorem AlikeIn.inner {nest : List String} {name opening closing : String} {block : Opened}
    {completes : Option Completed} {inner : List Written}
    (h : AlikeIn d d' (enclosed nest name block opening closing completes inner)) :
    AlikeIn d d' inner := by
  intro w hw
  exact h w (by simp [enclosed, hw])

theorem length_concat (nest : List String) (name : String) :
    (nest ++ [name]).length + 1 = nest.length + 1 + 1 := by
  rw [List.length_append]
  rfl

mutual

/-- The lines of a declaration depend only on the names that they are said to spell. -/
theorem lines_congr :
    ∀ {decl : Decl} {nest : List String} {depth : Nat}, nest.length + 1 = depth →
      AlikeIn d d' (decl.written d nest) →
      decl.lines d' depth = decl.lines d depth
  | .struct t name inner members, nest, _, rfl, h => by
    rw [Decl.written] at h
    have hinner : declLines d' (nest.length + 1 + 1) inner =
        declLines d (nest.length + 1 + 1) inner :=
      declLines_congr (length_concat nest name)
        fun w hw => h.inner w (List.mem_append_left _ (List.mem_append_left _ hw))
    have hmembers : ∀ p ∈ members, Alike d d' (spelledByMember p) := by
      intro p hp
      have hline :=
        h.inner ⟨⟨nest.length + 2, member d p⟩, nest ++ [name], none, none, spelledByMember p⟩
      exact hline (List.mem_append_left _ (List.mem_append_right _ (List.mem_map.mpr ⟨p, hp, rfl⟩)))
    rw [Decl.lines, Decl.lines, hinner]
    simp only [List.map_congr_left fun p hp => congrArg (Line.mk _) (member_congr (hmembers p hp))]
  | .variant t name alternatives, nest, _, rfl, h => by
    rw [Decl.written] at h
    have hspells : Alike d d' (alternatives.flatMap spelledByType) :=
      h _ (List.mem_singleton.mpr rfl)
    have htypes : alternatives.map (paramType d' .inside) =
        alternatives.map (paramType d .inside) :=
      List.map_congr_left fun p hp =>
        paramType_congr fun u hu => hspells u (List.mem_flatMap.mpr ⟨p, hp, hu⟩)
    rw [Decl.lines, Decl.lines, htypes]
  | .container t name element, nest, _, rfl, h => by
    rw [Decl.written] at h
    have hspells : Alike d d' element.typeIds := h _ (List.mem_singleton.mpr rfl)
    rw [Decl.lines, Decl.lines, typeName, typeName, typeName_congr hspells]
  | .holder name inStruct inner, nest, _, rfl, h => by
    rw [Decl.written] at h
    rw [Decl.lines, Decl.lines]
    split at h
    · next hin => rw [if_pos hin, if_pos hin, declLines_congr (length_concat nest name) h.inner]
    · next hin => rw [if_neg hin, if_neg hin, declLines_congr (length_concat nest name) h.inner]

theorem declLines_congr :
    ∀ {decls : List Decl} {nest : List String} {depth : Nat}, nest.length + 1 = depth →
      AlikeIn d d' (declsWritten d nest decls) → declLines d' depth decls = declLines d depth decls
  | [], _, _, _, _ => by simp only [declLines]
  | decl :: rest, nest, depth, hdepth, h => by
    rw [declsWritten_cons] at h
    have hfirst := lines_congr hdepth fun w hw => h w (List.mem_append_left _ hw)
    have hrest := declLines_congr hdepth fun w hw => h w (List.mem_append_right _ hw)
    rw [declLines, declLines, hfirst, hrest]

end

end Spelling

end DeviceModel.Cpp
