import DeviceModel.Proofs.Mirror

namespace DeviceModel.Cpp

open Resolve

/-- Items as they are written. -/
def lines (d : Device) (items : List Item) : List Line := items.map fun i => ⟨0, i.text d⟩

/-- What is defined before any parameter: the device, language packs and shared constraints. -/
def prologue (d : Device) : List Item :=
  [.device] ++ paragraph (d.languagePacks.map .languagePack) ++
    paragraph (d.sharedConstraints.map fun e => .constraint e.2)

/-- The block of an outermost parameter or command. -/
def blockLines (d : Device) (realm : Realm) (id : ParamId) : List Line :=
  lines d (rootItems d realm id)

/-- The blocks of all outermost parameters or commands. -/
def realmLines (d : Device) (realm : Realm) : List Line :=
  (d.roots realm).flatMap fun e => blockLines d realm e.2

/-- What is defined after all commands. -/
def menuLines (d : Device) : List Line := lines d (d.menuGroups.flatMap menuItems)

theorem body_blocks {d : Device} (h : unrepeated [] (trees d) = trees d)
    (headerName sourceName : String) :
    body d headerName sourceName = preamble headerName sourceName ++ lines d (prologue d)
      ++ realmLines d .params ++ realmLines d .commands ++ menuLines d := by
  rw [body, items, h]
  simp [trees, prologue, realmLines, menuLines, Device.roots, lines, blockLines, rootItems,
    List.map_append, List.map_flatMap, List.append_assoc]

/-- Text is written by lines of the same text. -/
theorem lines_eq {d d' : Device} {is is' : List Item}
    (h : is'.map (Item.text d') = is.map (Item.text d)) :
    lines d' is' = lines d is := by
  have hlines := congrArg (List.map (Line.mk 0)) h
  rwa [List.map_map, List.map_map] at hlines

theorem paragraph_text {d d' : Device} {is is' : List Item}
    (h : is'.map (Item.text d') = is.map (Item.text d)) :
    (paragraph is').map (Item.text d') = (paragraph is).map (Item.text d) := by
  cases is with
  | nil =>
    rw [List.map_nil, List.map_eq_nil_iff] at h
    subst h
    simp only [paragraph, List.isEmpty_nil, if_true, List.map_nil]
  | cons i rest =>
    cases is' with
    | nil => simp at h
    | cons i' rest' =>
      have hblank : Item.text d' .blank = Item.text d .blank := rfl
      simp only [paragraph, List.isEmpty_cons, Bool.false_eq_true, if_false]
      rw [List.map_cons, h, hblank, ← List.map_cons]

/-- Devices with the same settings, language packs and shared constraints start alike. -/
theorem prologue_lines {d d' : Device} (head : d'.head = d.head)
    (shared : d'.sharedConstraints = d.sharedConstraints)
    (same : ∀ e ∈ d.sharedConstraints, d'.constraint? e.2 = d.constraint? e.2) :
    lines d' (prologue d') = lines d (prologue d) := by
  obtain ⟨_, settings, packs⟩ : d'.ns = d.ns ∧ d'.settings = d.settings ∧
      d'.languagePacks = d.languagePacks := by
    simpa [Device.head] using head
  have hpacks : (d.languagePacks.map Item.languagePack).map (Item.text d') =
      (d.languagePacks.map Item.languagePack).map (Item.text d) := by
    simp only [List.map_map, Function.comp_def, Item.text]
  have hshared : (d.sharedConstraints.map fun e => Item.constraint e.2).map (Item.text d') =
      (d.sharedConstraints.map fun e => Item.constraint e.2).map (Item.text d) := by
    rw [List.map_map, List.map_map]
    refine List.map_congr_left fun e he => ?_
    simp only [Function.comp, Item.text, same e he]
  apply lines_eq
  rw [prologue, prologue, packs, shared]
  simp only [List.map_append, paragraph_text hpacks, paragraph_text hshared, List.map_cons,
    List.map_nil, Item.text, settings]

/-- Menus are written as they are, whatever the device has besides. -/
theorem menuLines_eq {d d' : Device} (h : d'.menuGroups = d.menuGroups) :
    menuLines d' = menuLines d := by
  apply lines_eq
  rw [h]
  simp only [menuItems, List.map_flatMap, List.map_append, List.map_cons, List.map_nil,
    List.map_map, Function.comp_def, Item.text]

section Blocks

variable {d d' : Device} {g g' : Ground} {f f' : Forest} (ns : d'.ns = d.ns)

include ns

/-- The blocks of twins are the same, if the descriptors in them are. -/
theorem block_twin (realm : Realm) {id id' : ParamId} {p p' : Param} (hp : d.param? id = some p)
    (hp' : d'.param? id' = some p') (node : Twin d d' p p')
    (hdescriptors : (descriptors d' id').map (Item.text d') =
      (descriptors d id).map (Item.text d)) :
    blockLines d' realm id' = blockLines d realm id := by
  apply lines_eq
  cases realm with
  | params =>
    simp only [rootItems, paramItems, List.map_append, List.map_cons, List.map_nil, hdescriptors,
      Item.text, hp, hp', Option.map_some, Option.getD_some, node.valueText_eq ns,
      node.paramText_eq ns]
  | commands =>
    simp only [rootItems, commandItems, List.map_append, List.map_cons, List.map_nil, hdescriptors,
      Item.text, hp, hp', Option.map_some, Option.getD_some, node.commandText_eq]

/-- Forests of twins are written in the same blocks. -/
theorem forest_blocks (realm : Realm) (h : ForestTwin d d' f f') (linked : f.Linked)
    (linked' : f'.Linked) (hd : Holds d g f) (hd' : Holds d' g' f')
    (hn : f.params.length ≤ d.nodes.size) (hn' : f'.params.length ≤ d'.nodes.size) :
    f'.roots.map (fun p => (p.oid, blockLines d' realm p.id)) =
      f.roots.map fun p => (p.oid, blockLines d realm p.id) := by
  induction h generalizing g g' with
  | nil => simp only [Forest.roots_nil, List.map_nil]
  | @cons p p' own own' below below' rest rest' node inner next _ ih =>
    simp only [Forest.params_cons, List.length_cons, List.length_append] at hn hn'
    change Holds d g ((Forest.tree p own below).append rest) at hd
    change Holds d' g' ((Forest.tree p' own' below').append rest') at hd'
    have htree : ForestTwin d d' (.tree p own below) (.tree p' own' below') := .tree node inner
    have hdescriptors : (descriptors d' p'.id).map (Item.text d') =
        (descriptors d p.id).map (Item.text d) := by
      rw [descriptors_tree ⟨linked.1, linked.2.1, trivial⟩ hd.left (by omega),
        descriptors_tree ⟨linked'.1, linked'.2.1, trivial⟩ hd'.left (by omega)]
      exact htree.descriptors hd.left.found hd'.left.found
    have hfirst :=
      block_twin ns realm (hd.found p (by simp)) (hd'.found p' (by simp)) node hdescriptors
    have hrest := ih linked.2.2 linked'.2.2 hd.right hd'.right (by omega) (by omega)
    simp only [Forest.roots_cons, List.map_cons, node.oid_eq, hfirst, hrest]

end Blocks

end DeviceModel.Cpp
