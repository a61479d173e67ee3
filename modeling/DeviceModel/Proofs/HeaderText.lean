import DeviceModel.Proofs.Definitions
import DeviceModel.Proofs.Written

namespace DeviceModel.Cpp

section Occurrence

/-- A text with another one somewhere in it. -/
def Contains (text part : String) : Prop := ∃ front back, text = front ++ part ++ back

variable {text part : String}

theorem contains_self (text : String) : Contains text text := ⟨"", "", by simp⟩

theorem Contains.append_left (h : Contains text part) (before : String) :
    Contains (before ++ text) part := by
  obtain ⟨front, back, rfl⟩ := h
  exact ⟨before ++ front, back, by simp only [String.append_assoc]⟩

theorem Contains.append_right (h : Contains text part) (after : String) :
    Contains (text ++ after) part := by
  obtain ⟨front, back, rfl⟩ := h
  exact ⟨front, back ++ after, by simp only [String.append_assoc]⟩

theorem Contains.join {texts : List String} (h : Contains text part) (hm : text ∈ texts)
    (sep : String) : Contains (Text.join sep texts) part := by
  induction texts with
  | nil => cases hm
  | cons first rest ih =>
    rw [Text.join]
    cases rest with
    | nil =>
      rw [List.mem_singleton.mp hm] at h
      simpa using h
    | cons second rest =>
      rw [String.intercalate_cons_cons]
      rcases List.mem_cons.mp hm with rfl | hm
      · exact (h.append_right sep).append_right _
      · exact (ih hm).append_left _

theorem Contains.braced {texts : List String} (h : Contains text part) (hm : text ∈ texts) :
    Contains (braced texts) part := ((h.join hm ", ").append_left _).append_right _

end Occurrence

section Spelling

variable {d : Device} {t : TypeId}

theorem typeName_contains {position : Position} {type : ValueType} (h : t ∈ type.typeIds) :
    Contains (typeName d position type) (declName d position t) := by
  induction type with
  | empty | string | int32 | float32 => cases h
  | struct u | variant u =>
    rw [List.mem_singleton.mp h]
    exact contains_self _
  | array element ih => exact ((ih h).append_left _).append_right _

theorem paramType_contains {p : Param} (h : t ∈ spelledByType p) :
    Contains (paramType d .inside p) (declName d .inside t) := by
  cases hc : p.container with
  | some u =>
    rw [spelledByType, hc] at h
    rw [paramType, hc, List.mem_singleton.mp h]
    exact contains_self _
  | none =>
    rw [spelledByType, hc] at h
    rw [paramType, hc]
    exact typeName_contains h

mutual

theorem initializer_contains :
    ∀ {v : Initializer}, t ∈ spelledByValue v →
      Contains (initializer d .inside v) (declName d .inside t)
  | .string _, h | .int32 _, h | .float32 _, h => by simp [spelledByValue] at h
  | .list items, h => by
    rw [spelledByValue] at h
    obtain ⟨text, hm, ht⟩ := initializers_contain h
    rw [initializer]
    exact ht.braced hm
  | .struct fields, h => by
    rw [spelledByValue] at h
    obtain ⟨text, hm, ht⟩ := designators_contain h
    rw [initializer]
    exact ht.braced hm
  | .variant u index _ type v, h => by
    rw [spelledByValue, List.mem_cons, List.mem_append] at h
    rw [initializer]
    rcases h with rfl | h | h
    · exact (contains_self _).append_right _
    · cases hneeds : needsType v with
      | false => simp [hneeds] at h
      | true =>
        rw [hneeds, if_pos rfl] at h
        refine (Contains.braced ?_ (List.mem_cons_of_mem _ List.mem_cons_self)).append_left _
        exact (typeName_contains h).append_right _
    · refine (Contains.braced ?_ (List.mem_cons_of_mem _ List.mem_cons_self)).append_left _
      exact (initializer_contains h).append_left _

theorem initializers_contain :
    ∀ {items : List Initializer}, t ∈ spelledByItems items →
      ∃ text ∈ initializers d .inside items, Contains text (declName d .inside t)
  | [], h => by simp [spelledByItems] at h
  | v :: rest, h => by
    rw [spelledByItems, List.mem_append] at h
    rw [initializers]
    rcases h with h | h
    · exact ⟨_, List.mem_cons_self, initializer_contains h⟩
    · obtain ⟨text, hm, ht⟩ := initializers_contain h
      exact ⟨text, List.mem_cons_of_mem _ hm, ht⟩

theorem designators_contain :
    ∀ {fields : List (String × Initializer)}, t ∈ spelledByFields fields →
      ∃ text ∈ designators d .inside fields, Contains text (declName d .inside t)
  | [], h => by simp [spelledByFields] at h
  | (name, v) :: rest, h => by
    rw [spelledByFields, List.mem_append] at h
    rw [designators]
    rcases h with h | h
    · exact ⟨_, List.mem_cons_self, (initializer_contains h).append_left _⟩
    · obtain ⟨text, hm, ht⟩ := designators_contain h
      exact ⟨text, List.mem_cons_of_mem _ hm, ht⟩

end

theorem member_contains {p : Param} (h : t ∈ spelledByMember p) :
    Contains (member d p) (declName d .inside t) := by
  rw [spelledByMember, List.mem_append, List.mem_flatMap] at h
  unfold member
  rcases h with h | ⟨v, hv, h⟩
  · exact ((paramType_contains h).append_right _).append_right _ |>.append_right _
  · rw [Option.mem_toList.mp hv]
    exact ((initializer_contains h).append_left _).append_right _ |>.append_left _

end Spelling

/-- Blocks that are open, outermost first: their names, and what they are. -/
abbrev Blocks := List (String × Opened)

def Blocks.names (blocks : Blocks) : List String := blocks.map Prod.fst

namespace Opened

def keyword : Opened → String
  | .struct | .holder true => "struct"
  | .holder false => "namespace"

/-- The text that closes a block of the name. -/
def closing (name : String) : Opened → String
  | .struct | .holder true => "\x7d;"
  | .holder false => "\x7d // namespace " ++ name

end Opened

/-- How a line is read among blocks, by its text: which are open before it and after it, which block
it opens, and which type is complete with it. It stands in the blocks that are open on both sides.
Members, and the marker that there is in every struct of a type, are right inside such a struct and
never inside a holder. -/
inductive Reads : Blocks → Written → Blocks → Prop where
  | opening {blocks : Blocks} {name : String} {kind : Opened} (depth : Nat) :
      Reads blocks
        { line := ⟨depth, kind.keyword ++ " " ++ name ++ " \x7b"⟩, nest := blocks.names
          opens := some (name, kind) }
        (blocks ++ [(name, kind)])
  | struct {blocks : Blocks} {name : String} (depth : Nat) (type : TypeId) :
      Reads (blocks ++ [(name, .struct)])
        { line := ⟨depth, Opened.struct.closing name⟩, nest := blocks.names
          completes := some ⟨type, name, "struct"⟩ }
        blocks
  | holder {blocks : Blocks} {name : String} {inStruct : Bool} (depth : Nat) :
      Reads (blocks ++ [(name, .holder inStruct)])
        { line := ⟨depth, (Opened.holder inStruct).closing name⟩, nest := blocks.names }
        blocks
  | variant {blocks : Blocks} (depth : Nat) (type : TypeId) (name alternatives : String)
      (spells : List TypeId) :
      Reads blocks
        { line := ⟨depth, "using " ++ name ++ " = std::variant<" ++ alternatives ++ ">;"⟩
          nest := blocks.names, completes := some ⟨type, name, "variant"⟩, spells }
        blocks
  | array {blocks : Blocks} (depth : Nat) (type : TypeId) (name element : String)
      (spells : List TypeId) :
      Reads blocks
        { line := ⟨depth, "using " ++ name ++ " = std::vector<" ++ element ++ ">;"⟩
          nest := blocks.names, completes := some ⟨type, name, "array"⟩, spells }
        blocks
  | member {outer blocks : Blocks} {struct text name : String} (depth : Nat) (spells : List TypeId)
      (inside : blocks = outer ++ [(struct, .struct)]) (defines : Defines text name) :
      Reads blocks { line := ⟨depth, text⟩, nest := blocks.names, spells } blocks
  | marker {outer blocks : Blocks} {struct : String} (depth : Nat)
      (inside : blocks = outer ++ [(struct, .struct)]) :
      Reads blocks { line := ⟨depth, "using isCatenaStruct = void;"⟩, nest := blocks.names } blocks

/-- Lines that are read one after the other. -/
def ReadsThrough : Blocks → List Written → Blocks → Prop
  | before, [], after => before = after
  | before, w :: rest, after => ∃ next, Reads before w next ∧ ReadsThrough next rest after

namespace ReadsThrough

variable {before next after : Blocks}

theorem append {ws rest : List Written} (h : ReadsThrough before ws next)
    (hrest : ReadsThrough next rest after) :
    ReadsThrough before (ws ++ rest) after := by
  induction ws generalizing before with
  | nil =>
    cases h
    exact hrest
  | cons w ws ih =>
    obtain ⟨middle, hw, hws⟩ := h
    exact ⟨middle, hw, ih hws⟩

theorem single {w : Written} (h : Reads before w after) : ReadsThrough before [w] after :=
  ⟨after, h, rfl⟩

/-- Lines of which each leaves the blocks as they are. -/
theorem of_forall {ws : List Written} (h : ∀ w ∈ ws, Reads before w before) :
    ReadsThrough before ws before := by
  induction ws with
  | nil => rfl
  | cons w ws ih =>
    exact ⟨before, h w List.mem_cons_self, ih fun v hv => h v (List.mem_cons_of_mem _ hv)⟩

/-- A block opens, is read and closes. -/
theorem enclosed {blocks : Blocks} {name opening : String} {kind : Opened}
    {completes : Option Completed} {inner : List Written}
    (hopening : opening = kind.keyword ++ " " ++ name)
    (hinner : ReadsThrough (blocks ++ [(name, kind)]) inner (blocks ++ [(name, kind)]))
    (hclosing : Reads (blocks ++ [(name, kind)])
      { line := ⟨blocks.names.length + 1, kind.closing name⟩, nest := blocks.names, completes }
      blocks) :
    ReadsThrough blocks
      (Cpp.enclosed blocks.names name kind opening (kind.closing name) completes inner) blocks := by
  rw [hopening]
  exact ⟨_, .opening _, hinner.append (.single hclosing)⟩

end ReadsThrough

theorem names_concat (blocks : Blocks) (name : String) (kind : Opened) :
    Blocks.names (blocks ++ [(name, kind)]) = blocks.names ++ [name] := by
  simp [Blocks.names]

theorem struct_opening (name : String) : "struct " ++ name = "struct" ++ " " ++ name := by
  have hkeyword : "struct " = "struct" ++ " " := by decide
  rw [hkeyword]

theorem usingLine_template (name : String) {template opening : String}
    (h : opening = " = " ++ template) (arguments : String) :
    usingLine name (template ++ arguments ++ ">") =
      "using " ++ name ++ opening ++ arguments ++ ">;" := by
  have hclosing : ">;" = ">" ++ ";" := by decide
  rw [h, hclosing]
  simp only [usingLine, String.append_assoc]

mutual

/-- Blocks, declarations and names are in the text as they are said to be. -/
theorem written_readsThrough (d : Device) :
    ∀ (decl : Decl) (blocks : Blocks), ReadsThrough blocks (decl.written d blocks.names) blocks
  | .struct t name inner members, blocks => by
    have hinner := declsWritten_readsThrough d inner (blocks ++ [(name, .struct)])
    rw [Decl.written, ← names_concat blocks name .struct]
    have hmembers : ReadsThrough (blocks ++ [(name, .struct)])
        (members.map fun p =>
          { line := ⟨blocks.names.length + 2, member d p⟩
            nest := Blocks.names (blocks ++ [(name, .struct)])
            spells := spelledByMember p }) (blocks ++ [(name, .struct)]) := by
      apply ReadsThrough.of_forall
      intro w hw
      obtain ⟨p, _, rfl⟩ := List.mem_map.mp hw
      exact .member _ _ rfl (defines_binding _ _ _ _)
    have hmarker : usingLine "isCatenaStruct" "void" = "using isCatenaStruct = void;" := by decide
    rw [hmarker]
    exact .enclosed (struct_opening name)
      ((hinner.append hmembers).append (.single (.marker _ rfl))) (.struct _ t)
  | .variant t name alternatives, blocks => by
    have hopening : " = std::variant<" = " = " ++ "std::variant<" := by decide
    rw [Decl.written, usingLine_template name hopening]
    exact .single (.variant _ t name _ _)
  | .container t name element, blocks => by
    have hopening : " = std::vector<" = " = " ++ "std::vector<" := by decide
    rw [Decl.written, typeName, usingLine_template name hopening]
    exact .single (.array _ t name _ _)
  | .holder name inStruct inner, blocks => by
    have hinner := declsWritten_readsThrough d inner (blocks ++ [(name, .holder inStruct)])
    rw [names_concat] at hinner
    rw [Decl.written]
    cases inStruct with
    | true => exact .enclosed (struct_opening name) hinner (.holder _)
    | false =>
      have hkeyword : "namespace " = "namespace" ++ " " := by decide
      exact .enclosed (congrArg (· ++ name) hkeyword) hinner (.holder _)

theorem declsWritten_readsThrough (d : Device) :
    ∀ (decls : List Decl) (blocks : Blocks),
      ReadsThrough blocks (declsWritten d blocks.names decls) blocks
  | [], _ => by
    rw [declsWritten_nil]
    rfl
  | decl :: rest, blocks => by
    rw [declsWritten_cons]
    exact (written_readsThrough d decl blocks).append (declsWritten_readsThrough d rest blocks)

end

section Names

variable {d : Device} {w : Written} {t : TypeId}

/-- The lines around a block spell no types. -/
theorem mem_inner_of_spells {nest : List String} {name opening closing : String} {kind : Opened}
    {completes : Option Completed} {inner : List Written}
    (hw : w ∈ enclosed nest name kind opening closing completes inner) (ht : t ∈ w.spells) :
    w ∈ inner := by
  simp only [enclosed, List.cons_append, List.mem_cons, List.mem_append, List.not_mem_nil,
    or_false] at hw
  rcases hw with rfl | hw | rfl
  · cases ht
  · exact hw
  · cases ht

mutual

theorem written_contains :
    ∀ {decl : Decl} {nest : List String}, w ∈ decl.written d nest → t ∈ w.spells →
      Contains w.line.text (declName d .inside t)
  | .struct _ name inner members, nest, hw, ht => by
    rw [Decl.written] at hw
    have hinner := mem_inner_of_spells hw ht
    rw [List.mem_append, List.mem_append, List.mem_singleton] at hinner
    rcases hinner with (hinner | hmember) | rfl
    · exact declsWritten_contains hinner ht
    · obtain ⟨p, _, rfl⟩ := List.mem_map.mp hmember
      exact member_contains ht
    · cases ht
  | .variant _ name alternatives, nest, hw, ht => by
    rw [Decl.written] at hw
    obtain rfl := List.mem_singleton.mp hw
    obtain ⟨p, hp, ht⟩ := List.mem_flatMap.mp ht
    have htype : Contains (paramType d .inside p) (declName d .inside t) := paramType_contains ht
    have hjoined := htype.join (List.mem_map_of_mem hp) ", "
    exact (((hjoined.append_left _).append_right _).append_left _).append_right _
  | .container _ name element, nest, hw, ht => by
    rw [Decl.written] at hw
    obtain rfl := List.mem_singleton.mp hw
    have htype : Contains (typeName d .inside (.array element)) (declName d .inside t) :=
      typeName_contains ht
    exact (htype.append_left _).append_right _
  | .holder name inStruct inner, nest, hw, ht => by
    rw [Decl.written] at hw
    split at hw
    · exact declsWritten_contains (mem_inner_of_spells hw ht) ht
    · exact declsWritten_contains (mem_inner_of_spells hw ht) ht

theorem declsWritten_contains :
    ∀ {decls : List Decl} {nest : List String}, w ∈ declsWritten d nest decls → t ∈ w.spells →
      Contains w.line.text (declName d .inside t)
  | [], _, hw, _ => by simp at hw
  | decl :: rest, _, hw, ht => by
    rw [declsWritten_cons, List.mem_append] at hw
    rcases hw with hw | hw
    · exact written_contains hw ht
    · exact declsWritten_contains hw ht

end

end Names

end DeviceModel.Cpp
