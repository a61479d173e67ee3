import Mathlib.Data.List.Perm.Basic
import DeviceModel.Device.Summary
import DeviceModel.Proofs.Blocks

namespace DeviceModel

open Cpp (Twin Item blockLines realmLines descriptors ownedConstraint)

/-- Devices of as many parameters, in which those of one address are twins. -/
structure Mirrors (d d' : Device) : Prop where
  ns : d'.ns = d.ns
  size : d'.nodes.size = d.nodes.size
  twin : ∀ {id id' : ParamId} {p p' : Param}, d.param? id = some p → d'.param? id' = some p' →
    p'.address = p.address → Twin d d' p p'

theorem map_eq_map_cases {α β γ : Type} {f : α → γ} {f' : β → γ} {o : Option α} {o' : Option β}
    (h : o'.map f' = o.map f) :
    (o = none ∧ o' = none) ∨ ∃ a a', o = some a ∧ o' = some a' ∧ f' a' = f a := by
  cases o with
  | none => exact .inl ⟨rfl, Option.map_eq_none_iff.mp h⟩
  | some a =>
    obtain ⟨a', ha', he⟩ := Option.map_eq_some_iff.mp h
    exact .inr ⟨a, a', rfl, ha', he⟩

section Places

variable {d d' : Device} {l l' : Entries ParamId}

/-- What depends only on places is the same for entries at the same places. -/
theorem places_map {β : Type} {f f' : String × ParamId → β}
    (hf : ∀ e e', placeIn d' e' = placeIn d e → f' e' = f e)
    (h : l'.map (placeIn d') = l.map (placeIn d)) : l'.map f' = l.map f := by
  induction l generalizing l' with
  | nil =>
    rw [List.map_nil, List.map_eq_nil_iff] at h
    rw [h, List.map_nil, List.map_nil]
  | cons e rest ih =>
    obtain ⟨e', rest', rfl, he, hrest⟩ := List.map_eq_cons_iff.mp h
    rw [List.map_cons, List.map_cons, hf e e' he, ih hrest]

theorem places_perm {β : Type} {f f' : String × ParamId → β}
    (hf : ∀ e e', placeIn d' e' = placeIn d e → f' e' = f e)
    (h : (l'.map (placeIn d')).Perm (l.map (placeIn d))) : (l'.map f').Perm (l.map f) := by
  obtain ⟨l'', heq, hperm⟩ := (congrFun₂ (List.eq_map_comp_perm (placeIn d)) _ _).mpr h
  rw [places_map hf heq]
  exact hperm.map f

theorem lookup_placeIn (d : Device) (l : Entries ParamId) (name : String) :
    (l.map (placeIn d)).lookup name = (l.get? name).map d.spot := by
  unfold Entries.get?
  induction l with
  | nil => rfl
  | cons e rest ih =>
    rw [List.map_cons, placeIn, List.lookup_cons, List.lookup_cons]
    cases name == e.1 with
    | true => rfl
    | false => exact ih

theorem get?_places (h : l'.map (placeIn d') = l.map (placeIn d)) (name : String) :
    (l'.get? name).map d'.spot = (l.get? name).map d.spot := by
  rw [← lookup_placeIn, h, lookup_placeIn]

end Places

/-- What a summary says of a parameter itself, it says of its twins. -/
theorem Cpp.Twin.summary_fields {d d' : Device} {p p' : Param} (h : Twin d d' p p') :
    ((p'.template.bind d'.param?).map fun t => ("template", Json.string t.fqoid)) =
        ((p.template.bind d.param?).map fun t => ("template", Json.string t.fqoid)) ∧
      ((p'.constraint.bind d'.constraint?).map fun c =>
          ("constraint",
            Json.object [("kind", .string c.rule.code), ("shared", .bool c.isShared)])) =
        ((p.constraint.bind d.constraint?).map fun c =>
          ("constraint",
            Json.object [("kind", .string c.rule.code), ("shared", .bool c.isShared)])) ∧
      p'.value.isSome = p.value.isSome ∧ p'.children.isEmpty = p.children.isEmpty := by
  refine ⟨?_, ?_, ?_, ?_⟩
  · have htemplate := congrArg (Option.map fun fqoid => ("template", Json.string fqoid)) h.template
    rwa [Option.map_map, Option.map_map] at htemplate
  · have hconstraint := congrArg (Option.map fun c : Constraint =>
      ("constraint", Json.object [("kind", .string c.rule.code), ("shared", .bool c.isShared)]))
        h.constraint
    simpa only [Option.map_map, Function.comp_def, Constraint.face_rule,
      Constraint.face_isShared] using hconstraint
  · have hvalue := congrArg Option.isSome h.value
    rwa [Option.isSome_map, Option.isSome_map] at hvalue
  · have hchildren := congrArg List.isEmpty h.children
    rwa [List.isEmpty_map, List.isEmpty_map] at hchildren

/-- What stands in a block for one parameter. -/
def itemsAt (d : Device) (id : ParamId) : List Item :=
  match d.param? id with
  | some p => ownedConstraint d p ++ [.descriptor id]
  | none => []

namespace Mirrors

variable {d d' : Device} (m : Mirrors d d')

include m

/-- Ids at one address lead to nothing or to twins. -/
theorem cases {id id' : ParamId} (h : d'.spot id' = d.spot id) :
    (d.param? id = none ∧ d'.param? id' = none) ∨
      ∃ p p', d.param? id = some p ∧ d'.param? id' = some p' ∧ Twin d d' p p' := by
  rcases map_eq_map_cases h with hnone | ⟨p, p', hp, hp', haddress⟩
  · exact .inl hnone
  · exact .inr ⟨p, p', hp, hp', m.twin hp hp' haddress⟩

theorem summaryWithin_eq (depth : Nat) :
    ∀ id id', d'.spot id' = d.spot id → d'.summaryWithin depth id' = d.summaryWithin depth id := by
  induction depth with
  | zero =>
    intro id id' _
    rfl
  | succ depth ih =>
    intro id id' h
    rcases m.cases h with ⟨hnone, hnone'⟩ | ⟨p, p', hp, hp', twins⟩
    · simp only [Device.summaryWithin, hnone, hnone']
    · obtain ⟨htemplate, hconstraint, hvalue, hempty⟩ := twins.summary_fields
      have hchildren :=
        places_map (fun e e' he => ih e.2 e'.2 (congrArg Prod.snd he)) twins.children
      simp only [Device.summaryWithin, Device.account, hp, hp', twins.fqoid_eq, twins.type.code_eq,
        htemplate, hconstraint, hvalue, hempty, hchildren]

theorem paramSummary_eq {id id' : ParamId} (h : d'.spot id' = d.spot id) :
    d'.paramSummary id' = d.paramSummary id := by
  rw [Device.paramSummary, Device.paramSummary, m.size]
  exact m.summaryWithin_eq _ id id' h

theorem itemsAt_text {id id' : ParamId} (h : d'.spot id' = d.spot id) :
    (itemsAt d' id').map (Item.text d') = (itemsAt d id).map (Item.text d) := by
  rcases m.cases h with ⟨hnone, hnone'⟩ | ⟨p, p', hp, hp', twins⟩
  · simp only [itemsAt, hnone, hnone', List.map_nil]
  · simp only [itemsAt, hp, hp', List.map_append, twins.owned, List.map_cons, List.map_nil,
      Item.text, Option.map_some, twins.descriptorText_eq]

/-- Trees at one address are written alike, down to any depth. -/
theorem subtreeWithin_text (depth : Nat) :
    ∀ id id', d'.spot id' = d.spot id →
      (d'.subtreeWithin depth id').flatMap (fun c => (itemsAt d' c).map (Item.text d')) =
        (d.subtreeWithin depth id).flatMap fun c => (itemsAt d c).map (Item.text d) := by
  induction depth with
  | zero =>
    intro id id' h
    simp only [Device.subtreeWithin, List.flatMap_cons, List.flatMap_nil, m.itemsAt_text h]
  | succ depth ih =>
    intro id id' h
    have hself := m.itemsAt_text h
    rcases m.cases h with ⟨hnone, hnone'⟩ | ⟨p, p', hp, hp', twins⟩
    · simp only [Device.subtreeWithin, hnone, hnone', List.flatMap_cons, List.flatMap_nil, hself]
    · have hbelow := places_map (fun e e' he => ih e.2 e'.2 (congrArg Prod.snd he)) twins.children
      have hchildren := congrArg List.flatten hbelow
      simp only [← List.flatMap_def] at hchildren
      simp only [Device.subtreeWithin, hp, hp', List.flatMap_cons, List.flatMap_assoc, hself,
        hchildren]

theorem blockLines_eq (realm : Realm) {id id' : ParamId} (h : d'.spot id' = d.spot id) :
    blockLines d' realm id' = blockLines d realm id := by
  have hdescriptors : (descriptors d' id').map (Item.text d') =
      (descriptors d id).map (Item.text d) := by
    have htext := m.subtreeWithin_text d.nodes.size id id' h
    simp only [descriptors, Device.subtree, m.size, List.map_flatMap]
    exact htext
  rcases m.cases h with ⟨hnone, hnone'⟩ | ⟨p, p', hp, hp', twins⟩
  · apply Cpp.lines_eq
    cases realm <;>
      simp only [Cpp.rootItems, Cpp.paramItems, Cpp.commandItems, List.map_append, List.map_cons,
        List.map_nil, hdescriptors, Item.text, hnone, hnone', Option.map_none]
  · exact Cpp.block_twin m.ns realm hp hp' twins hdescriptors

theorem realmLines_eq {realm : Realm}
    (h : (d'.roots realm).map (placeIn d') = (d.roots realm).map (placeIn d)) :
    realmLines d' realm = realmLines d realm := by
  have hblocks := places_map (fun e e' he => m.blockLines_eq realm (congrArg Prod.snd he)) h
  rw [realmLines, realmLines, List.flatMap_def, List.flatMap_def, hblocks]

/-- The names lead to the same address, from the same address. -/
theorem descend_eq {β : Type} {f f' : ParamId → β}
    (hf : ∀ id id', d'.spot id' = d.spot id → f' id' = f id) :
    ∀ names id id', d'.spot id' = d.spot id →
      (d'.descend id' names).map f' = (d.descend id names).map f := by
  intro names
  induction names with
  | nil =>
    intro id id' h
    exact congrArg some (hf id id' h)
  | cons name rest ih =>
    intro id id' h
    rcases m.cases h with ⟨hnone, hnone'⟩ | ⟨p, p', hp, hp', twins⟩
    · simp only [Device.descend, hnone, hnone', Option.bind_eq_bind, Option.bind_none,
        Option.map_none]
    · rcases map_eq_map_cases (get?_places twins.children name) with ⟨hchild, hchild'⟩ | ⟨c, c',
        hchild, hchild', hspot⟩
      · simp only [Device.descend, hp, hp', Option.bind_eq_bind, Option.bind_some, hchild, hchild',
          Option.bind_none, Option.map_none]
      · simp only [Device.descend, hp, hp', Option.bind_eq_bind, Option.bind_some, hchild, hchild']
        exact ih c c' hspot

/-- What is found by an oid is the same, if the outermost names lead to the same addresses. -/
theorem find?_eq {realm : Realm}
    (roots : ∀ name, ((d'.roots realm).get? name).map d'.spot =
      ((d.roots realm).get? name).map d.spot)
    (fqoid : String) :
    (d'.find? realm fqoid).map d'.paramSummary = (d.find? realm fqoid).map d.paramSummary := by
  unfold Device.find?
  split
  · rfl
  · next root rest _ =>
    rcases map_eq_map_cases (roots root) with ⟨hroot, hroot'⟩ | ⟨id, id', hroot, hroot', hspot⟩
    · simp only [hroot, hroot', Option.bind_eq_bind, Option.bind_none, Option.map_none]
    · simp only [hroot, hroot', Option.bind_eq_bind, Option.bind_some]
      exact m.descend_eq (fun _ _ h => m.paramSummary_eq h) rest id id' hspot

end Mirrors

end DeviceModel
