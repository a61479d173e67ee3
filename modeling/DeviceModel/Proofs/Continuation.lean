import DeviceModel.Cpp.Generate
import DeviceModel.Proofs.Blocks

namespace DeviceModel

theorem firstRepeat?_left [BEq α] {seen as bs : List α} (h : firstRepeat? seen (as ++ bs) = none) :
    firstRepeat? seen as = none := by
  induction as generalizing seen with
  | nil => rfl
  | cons a rest ih =>
    rw [List.cons_append, firstRepeat?] at h
    rw [firstRepeat?]
    split at h
    · cases h
    · next hseen =>
      rw [if_neg hseen]
      exact ih h

theorem Entries.duplicate?_left {earlier later : Entries α}
    (h : (earlier ++ later).duplicate? = none) :
    earlier.duplicate? = none := by
  unfold duplicate? keys at *
  rw [List.map_append] at h
  exact firstRepeat?_left h

namespace Cpp

theorem generate_body (d : Device) (sourceName : String) :
    (generate d sourceName).body = render (body d (sourceName ++ ".h") sourceName) := by
  simp only [generate]

theorem render_append (ls ls' : List Line) : render (ls ++ ls') = render ls ++ render ls' := by
  rw [render, List.map_append, String.join_append]
  rfl

end Cpp

namespace Resolve

open Cpp (blockLines body_blocks prologue_lines forest_blocks)

/-- Parameters are resolved one after the other. -/
theorem resolveEach_append {importer : Importer} {slot : Slot} {s s' : Progress}
    {ids : Entries ParamId} (earlier : List (String × Description.Param))
    {later : List (String × Description.Param)}
    (h : (resolveEach importer slot (earlier ++ later)).run s = .ok ids s') :
    ∃ ids₁ t ids₂, (resolveEach importer slot earlier).run s = .ok ids₁ t ∧
      (resolveEach importer slot later).run t = .ok ids₂ s' ∧ ids = ids₁ ++ ids₂ := by
  induction earlier generalizing s ids with
  | nil => exact ⟨[], s, ids, by rw [resolveEach]; exact pure_ok.mpr ⟨rfl, rfl⟩, h, rfl⟩
  | cons e rest ih =>
    obtain ⟨oid, q⟩ := e
    simp only [List.cons_append, resolveEach, bind_ok, pure_ok] at h ⊢
    obtain ⟨site, t, hsite, id, t', hfirst, ids', t'', hrest, rfl, rfl⟩ := h
    obtain ⟨ids₁, u, ids₂, hearlier, hlater, rfl⟩ := ih hrest
    exact ⟨(oid, id) :: ids₁, u, ids₂,
      ⟨site, t, hsite, id, t', hfirst, ids₁, u, hearlier, rfl, rfl⟩, hlater, rfl⟩

/-- A realm with nothing in it. -/
theorem forest_nil {source : Source} {importRoot : Path} {realm : Realm} {s s' : Progress}
    {ids : Entries ParamId} :
    (forest source importRoot realm []).run s = .ok ids s' ↔ [] = ids ∧ s = s' := by
  simp only [forest, bind_ok, checkDistinct_ok, resolveEach, pure_ok]
  constructor
  · rintro ⟨_, _, ⟨_, rfl⟩, rfl, rfl⟩
    exact ⟨rfl, rfl⟩
  · rintro ⟨rfl, rfl⟩
    exact ⟨(), s, ⟨rfl, rfl⟩, rfl, rfl⟩

theorem menuGroups_nil {s s' : Progress} {groups : List MenuGroup} :
    (menuGroups []).run s = .ok groups s' ↔ [] = groups ∧ s = s' := by
  simp only [menuGroups, bind_ok, checkDistinct_ok, List.map_nil, List.mapM_nil, pure_ok]
  constructor
  · rintro ⟨_, _, ⟨_, rfl⟩, rfl, rfl⟩
    exact ⟨rfl, rfl⟩
  · rintro ⟨rfl, rfl⟩
    exact ⟨(), s, ⟨rfl, rfl⟩, rfl, rfl⟩

section Planted

variable {head : String × Settings × List LanguagePack} {shared : List Constraint} {f : Forest}
  {d : Device}

/-- A device of parameters alone: a forest behind the shared constraints. -/
structure Planted (head : String × Settings × List LanguagePack) (shared : List Constraint)
    (f : Forest) (d : Device) : Prop where
  head_eq : d.head = head
  sharedConstraints : d.sharedConstraints = (start shared).shared
  params : d.params = f.entries
  commands : d.commands = []
  menuGroups : d.menuGroups = []
  holds : Holds d (start shared) f
  nodes : d.nodes.toList = f.params
  types : d.types.toList = f.types
  constraints : d.constraints.toList = shared ++ f.constraints

/-- The device at the end of a run without commands and menus. -/
def withParams (s : Progress) (params : Entries ParamId) : Device :=
  { s.device with params, commands := [], menuGroups := [] }

theorem Grew.planted {s t : Progress} {d : Device} (frame : OnlyShares d s.device)
    (empty : d.nodes = #[]) (h : Grew s t (start shared) f) :
    Planted d.head shared f (withParams t f.entries) := by
  have stands := h.stands.frame (d := withParams t f.entries) rfl rfl rfl rfl
  have hempty : s.device.nodes = #[] := (congrArg Device.nodes frame).trans empty
  have hnodes := h.nodes
  rw [hempty] at hnodes
  exact ⟨h.frame.head_eq.trans frame.head_eq, h.stands.shared, rfl, rfl, rfl, stands.holds, hnodes,
    h.stands.types, h.stands.constraints⟩

/-- A device without commands and menus is resolved up to any of its parameters. -/
theorem resolveDevice_planted {ns : String} {description : Description.Device} {importRoot : Path}
    {source : Source} {earlier later : Entries Description.Param}
    (commands : description.commands = []) (menus : description.menuGroups = [])
    (h : (resolveDevice ns { description with params := earlier ++ later } importRoot
      source).result = .ok d) :
    ∃ head shared f f' d₀, (∀ c ∈ shared, c.owner = none) ∧
      Grown source [] (start shared) (.root .params importRoot) earlier f ∧
      (resolveDevice ns { description with params := earlier } importRoot source).result = .ok d₀ ∧
      Planted head shared f d₀ ∧ Planted head shared (f.append f') d := by
  obtain ⟨s, hrun, rfl⟩ := resolveDevice_ok.mp h
  obtain ⟨t, ids, v, ids', w, groups, x, hopening, hparams, hcommands, hmenus, rfl⟩ :=
    parts_ok.mp hrun
  simp only [commands] at hcommands
  simp only [menus] at hmenus
  obtain ⟨rfl, rfl⟩ := forest_nil.mp hcommands
  obtain ⟨rfl, rfl⟩ := menuGroups_nil.mp hmenus
  simp only [forest, bind_ok, checkDistinct_ok] at hparams
  obtain ⟨_, _, ⟨hdistinct, rfl⟩, hparams⟩ := hparams
  obtain ⟨ids₁, u, ids₂, hearlier, hlater, rfl⟩ := resolveEach_append earlier hparams
  obtain ⟨_, _, shared, hshareable, ht, hframe⟩ := opening_stands hopening
  have hroot : ∀ s, Located s (.root .params importRoot) := fun _ => rfl
  obtain ⟨f, grown, rfl, grew⟩ :=
    resolveEach_grew (importer_grows _ []) ht (hroot t) earlier hearlier
  obtain ⟨f', grown', rfl, grew'⟩ :=
    resolveEach_grew (importer_grows _ []) grew.stands (hroot u) later hlater
  have hall := (grew.append grew').planted hframe rfl
  rw [Forest.entries_append] at hall
  refine ⟨_, shared, f, f', withParams u f.entries, (shareable_all hshareable).1, grown, ?_,
    grew.planted hframe rfl, hall⟩
  let v₁ : Progress := { u with device := { u.device with params := f.entries } }
  let w₁ : Progress := { v₁ with device := { v₁.device with commands := [] } }
  refine resolveDevice_ok.mpr
    ⟨_, parts_ok.mpr ⟨t, f.entries, u, [], v₁, [], w₁, hopening, ?_, ?_, ?_, rfl⟩, rfl⟩
  · simp only [forest, bind_ok, checkDistinct_ok]
    exact ⟨(), t, ⟨Entries.duplicate?_left hdistinct, rfl⟩, hearlier⟩
  · simp only [commands]
    exact forest_nil.mpr ⟨rfl, rfl⟩
  · simp only [menus]
    exact menuGroups_nil.mpr ⟨rfl, rfl⟩

end Planted

/-- A device that has all of an earlier one, and more behind it. -/
structure Continues (earlier later : Device) : Prop where
  nodes : earlier.nodes.toList <+: later.nodes.toList
  constraints : earlier.constraints.toList <+: later.constraints.toList
  types : earlier.types.toList <+: later.types.toList
  body : ∀ sourceName, ∃ rest,
    (Cpp.generate later sourceName).body = (Cpp.generate earlier sourceName).body ++ rest

/-- The longer of two forests leaves the text of the shorter one as it is. -/
theorem Planted.body {head : String × Settings × List LanguagePack} {shared : List Constraint}
    {f f' : Forest} {d d' : Device} (h : Planted head shared f d)
    (h' : Planted head shared (f.append f') d') (linked : f.Linked)
    (twins : Cpp.ForestTwin d d' f f)
    (same : ∀ e ∈ d.sharedConstraints, d'.constraint? e.2 = d.constraint? e.2)
    (once : Cpp.unrepeated [] (Cpp.trees d) = Cpp.trees d)
    (once' : Cpp.unrepeated [] (Cpp.trees d') = Cpp.trees d') (headerName sourceName : String) :
    ∃ rest, Cpp.body d' headerName sourceName = Cpp.body d headerName sourceName ++ rest := by
  have hhead : d'.head = d.head := h'.head_eq.trans h.head_eq.symm
  have hn : f.params.length ≤ d.nodes.size := Nat.le_of_eq (by rw [← Array.length_toList, h.nodes])
  have hn' : f.params.length ≤ d'.nodes.size := by
    rw [← Array.length_toList, h'.nodes, Forest.params_append, List.length_append]
    omega
  have hblocks :=
    forest_blocks (congrArg Prod.fst hhead) .params twins linked linked h.holds h'.holds.left hn hn'
  have hearlier : f.entries.flatMap (fun e => blockLines d' .params e.2) =
      f.entries.flatMap fun e => blockLines d .params e.2 := by
    rw [Forest.flatMap_entries (fun p _ => rfl), Forest.flatMap_entries (fun p _ => rfl)]
    have hlines := congrArg (List.flatMap Prod.snd) hblocks
    rwa [List.flatMap_map, List.flatMap_map] at hlines
  have hprologue := prologue_lines hhead (h'.sharedConstraints.trans h.sharedConstraints.symm) same
  refine ⟨f'.entries.flatMap fun e => blockLines d' .params e.2, ?_⟩
  rw [body_blocks once', body_blocks once, hprologue]
  simp only [Cpp.realmLines, Cpp.menuLines, Device.roots, h.params, h'.params, h.commands,
    h'.commands, h.menuGroups, h'.menuGroups, Forest.entries_append, List.flatMap_append, hearlier,
    List.flatMap_nil, Cpp.lines, List.map_nil, List.append_nil, List.append_assoc]

/-- Without commands and menus, the first parameters of a device resolve alone if all of them
resolve. The rest of the device lies behind them, and so does the rest of its text. -/
theorem earlier_undisturbed {ns : String} {description : Description.Device} {importRoot : Path}
    {source : Source} {earlier later : Entries Description.Param} {d : Device}
    (commands : description.commands = []) (menus : description.menuGroups = [])
    (split : description.params = earlier ++ later)
    (h : (resolveDevice ns description importRoot source).result = .ok d) :
    ∃ d₀,
      (resolveDevice ns { description with params := earlier } importRoot source).result = .ok d₀ ∧
      Continues d₀ d := by
  have hsplit : { description with params := earlier ++ later } = description := by rw [← split]
  obtain ⟨head, shared, f, f', d₀, unowned, grown, hd₀, planted, planted'⟩ :=
    resolveDevice_planted commands menus (by rwa [hsplit])
  obtain ⟨_, _, _, hresolved⟩ := resolveDevice_resolved h
  obtain ⟨_, _, _, hresolved₀⟩ := resolveDevice_resolved hd₀
  have level : Abreast d₀ d (start shared) (start shared) := by
    refine .start unowned ?_ ?_
    · rw [planted.constraints]
      exact List.prefix_append _ _
    · rw [planted'.constraints]
      exact List.prefix_append _ _
  have hhead : d.head = d₀.head := planted'.head_eq.trans planted.head_eq.symm
  have twins := grown.mirror (congrArg Prod.fst hhead) hresolved.unambiguous grown level
    (.root .params importRoot) planted.holds planted'.holds.left
  have same : ∀ e ∈ d₀.sharedConstraints, d.constraint? e.2 = d₀.constraint? e.2 := by
    rw [planted.sharedConstraints]
    exact level.same
  refine ⟨d₀, hd₀, ?_, ?_, ?_, ?_⟩
  · rw [planted.nodes, planted'.nodes, Forest.params_append]
    exact List.prefix_append _ _
  · rw [planted.constraints, planted'.constraints, Forest.constraints_append, ← List.append_assoc]
    exact List.prefix_append _ _
  · rw [planted.types, planted'.types, Forest.types_append]
    exact List.prefix_append _ _
  · intro sourceName
    obtain ⟨rest, hrest⟩ := planted.body planted' grown.linked twins same
      (Cpp.unrepeated_trees hresolved₀) (Cpp.unrepeated_trees hresolved)
        (sourceName ++ ".h") sourceName
    refine ⟨Cpp.render rest, ?_⟩
    rw [Cpp.generate_body, Cpp.generate_body, hrest, Cpp.render_append]

/-- A shared constraint, one that belongs to a field, and a copy of the struct with the field. -/
def constrainedParams : Description.Device := { Cpp.constrainedFields with commands := [] }

/-- The same without the copy. -/
def constrainedOriginals : Description.Device :=
  { constrainedParams with params := constrainedParams.params.take 2 }

theorem constrainedParams_undisturbed :
    ∃ d d₀, (resolveDevice "m" constrainedParams ⟨"params"⟩ (Documents.source {})).result = .ok d ∧
      (resolveDevice "m" constrainedOriginals ⟨"params"⟩ (Documents.source {})).result = .ok d₀ ∧
      (d₀.nodes.size, d.nodes.size) = (3, 5) ∧ Continues d₀ d := by
  have hok :
      ((resolveDevice "m" constrainedParams ⟨"params"⟩ (Documents.source {})).result.toOption.map
        fun d => d.nodes.size) = some 5 := by decide +kernel
  have hok₀ :
      ((resolveDevice "m" constrainedOriginals ⟨"params"⟩ (Documents.source {})).result.toOption.map
        fun d => d.nodes.size) = some 3 := by decide +kernel
  obtain ⟨d, hd, hsize⟩ := ok_of_toOption hok
  obtain ⟨d₀, hd₀, hsize₀⟩ := ok_of_toOption hok₀
  obtain ⟨d₁, hd₁, hcontinues⟩ := earlier_undisturbed rfl rfl (List.take_append_drop 2 _).symm hd
  have heq : d₁ = d₀ := Except.ok.inj (hd₁.symm.trans hd₀)
  rw [heq] at hcontinues
  exact ⟨d, d₀, hd, hd₀, by rw [hsize, hsize₀], hcontinues⟩

end Resolve

end DeviceModel
