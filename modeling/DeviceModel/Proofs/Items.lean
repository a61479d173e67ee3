import DeviceModel.Cpp.Body

namespace DeviceModel.Cpp

namespace Item

def constraint? : Item → Option ConstraintId
  | .constraint id => some id
  | _ => none

def descriptor? : Item → Option ParamId
  | .descriptor id => some id
  | _ => none

def value? : Item → Option ParamId
  | .value id => some id
  | _ => none

def outer : Item → Bool
  | .value _ | .param _ | .command _ => true
  | _ => false

end Item

section Unrepeated

variable {written : List ConstraintId} {is : List Item}

/-- Where no constraint comes twice, none is left out. -/
theorem unrepeated_eq (h : (written.reverse ++ is.filterMap Item.constraint?).Nodup) :
    unrepeated written is = is := by
  induction is generalizing written with
  | nil => rfl
  | cons i rest ih =>
    cases i with
    | constraint id =>
      have hnew : id ∉ written := by
        intro hid
        exact (List.nodup_append.mp h).2.2 id (List.mem_reverse.mpr hid) id List.mem_cons_self rfl
      have hrest : ((id :: written).reverse ++ rest.filterMap Item.constraint?).Nodup := by
        rwa [List.reverse_cons, List.append_assoc]
      simp only [unrepeated, List.contains_iff_mem, hnew, if_false]
      rw [ih hrest]
    | _ =>
      simp only [unrepeated]
      rw [ih h]

/-- Only constraints are left out. -/
theorem filterMap_unrepeated {α : Type} {f : Item → Option α}
    (hf : ∀ id, f (.constraint id) = none) :
    (unrepeated written is).filterMap f = is.filterMap f := by
  induction is generalizing written with
  | nil => rfl
  | cons i rest ih =>
    cases i with
    | constraint id =>
      simp only [unrepeated]
      split
      · rw [ih, List.filterMap_cons_none (hf id)]
      · rw [List.filterMap_cons_none (hf id), List.filterMap_cons_none (hf id), ih]
    | _ => simp only [unrepeated, List.filterMap_cons, ih]

theorem mem_of_mem_unrepeated {i : Item} (h : i ∈ unrepeated written is) : i ∈ is := by
  induction is generalizing written with
  | nil => exact h
  | cons j rest ih =>
    have hrest : ∀ {written}, i ∈ unrepeated written rest → i ∈ j :: rest :=
      fun hi => List.mem_cons_of_mem _ (ih hi)
    cases j with
    | constraint id =>
      simp only [unrepeated] at h
      split at h
      · exact hrest h
      · rcases List.mem_cons.mp h with rfl | h
        · exact List.mem_cons_self
        · exact hrest h
    | _ =>
      rcases List.mem_cons.mp h with rfl | h
      · exact List.mem_cons_self
      · exact hrest h

end Unrepeated

section Parts

variable {d : Device}

/-- Among descriptors there are only constraints beside them. -/
theorem mem_descriptors {root : ParamId} {i : Item} (h : i ∈ descriptors d root) :
    (∃ id, i = .constraint id) ∨ ∃ id, i = .descriptor id := by
  obtain ⟨id, _, hi⟩ := List.mem_flatMap.mp h
  split at hi
  · next p _ =>
    rcases List.mem_append.mp hi with hi | hi
    · unfold ownedConstraint at hi
      split at hi
      · simp at hi
      · next k _ =>
        split at hi
        · split at hi
          · exact .inl ⟨k, List.mem_singleton.mp hi⟩
          · simp at hi
        · simp at hi
    · exact .inr ⟨id, List.mem_singleton.mp hi⟩
  · simp at hi

theorem mem_paragraph {i : Item} {is : List Item} (hi : i ∈ paragraph is) :
    i = .blank ∨ i ∈ is := by
  unfold paragraph at hi
  split at hi
  · cases hi
  · exact List.mem_cons.mp hi

theorem filterMap_paragraph {α : Type} {f : Item → Option α} (hblank : f .blank = none)
    (is : List Item) : (paragraph is).filterMap f = is.filterMap f := by
  unfold paragraph
  split
  · next hempty => rw [List.isEmpty_iff.mp hempty]
  · rw [List.filterMap_cons, hblank]

/-- What is taken from the items, part by part, if nothing is from among descriptors. -/
theorem filterMap_items {α : Type} {f : Item → Option α} (hblank : f .blank = none)
    (hconstraint : ∀ id, f (.constraint id) = none)
    (hdescriptor : ∀ id, f (.descriptor id) = none) :
    (items d).filterMap f =
      (f .device).toList ++ d.languagePacks.filterMap (fun p => f (.languagePack p))
        ++ d.params.flatMap (fun e => (f (.value e.2)).toList ++ (f (.param e.2)).toList)
        ++ d.commands.flatMap (fun e => (f (.command e.2)).toList)
        ++ d.menuGroups.flatMap (fun g =>
          (f (.menuGroup g)).toList ++ g.menus.filterMap fun m => f (.menu g.oid m)) := by
  have hsingle : ∀ i, [i].filterMap f = (f i).toList := by
    intro i
    cases hi : f i <;> simp [hi]
  have hdescriptors : ∀ root, (descriptors d root).filterMap f = [] := by
    intro root
    rw [List.filterMap_eq_nil_iff]
    intro i hi
    rcases mem_descriptors hi with ⟨id, rfl⟩ | ⟨id, rfl⟩
    · exact hconstraint id
    · exact hdescriptor id
  have hshared : (d.sharedConstraints.map fun e => Item.constraint e.2).filterMap f = [] := by
    rw [List.filterMap_eq_nil_iff]
    intro i hi
    obtain ⟨e, _, rfl⟩ := List.mem_map.mp hi
    exact hconstraint e.2
  simp only [items, trees, filterMap_unrepeated hconstraint, paramItems, commandItems, menuItems,
    List.filterMap_append, List.filterMap_flatMap, ← List.append_assoc, filterMap_paragraph hblank,
    hshared, hdescriptors, hsingle, List.filterMap_map, List.filterMap_cons, hblank,
    List.append_nil, List.nil_append, Option.toList_none]
  rfl

/-- Where nothing is taken but from the items of outermost parameters and commands themselves. -/
theorem filterMap_items_outer {f : Item → Option ParamId} (h : ∀ i, i.outer = false → f i = none) :
    (items d).filterMap f =
      d.params.flatMap (fun e => (f (.value e.2)).toList ++ (f (.param e.2)).toList)
        ++ d.commands.flatMap (fun e => (f (.command e.2)).toList) := by
  have hpacks : d.languagePacks.filterMap (fun p => f (.languagePack p)) = [] :=
    List.filterMap_eq_nil_iff.mpr fun p _ => h _ rfl
  have hmenus : d.menuGroups.flatMap (fun g => (f (.menuGroup g)).toList ++
      g.menus.filterMap fun m => f (.menu g.oid m)) = [] := by
    refine List.flatMap_eq_nil_iff.mpr fun g _ => ?_
    have hmenu : g.menus.filterMap (fun m => f (.menu g.oid m)) = [] :=
      List.filterMap_eq_nil_iff.mpr fun m _ => h _ rfl
    rw [h (.menuGroup g) rfl, hmenu]
    rfl
  rw [filterMap_items (h _ rfl) (fun _ => h _ rfl) (fun _ => h _ rfl), h .device rfl, hpacks,
    hmenus]
  simp

/-- Values are defined for outermost parameters alone. -/
theorem mem_items_value {id : ParamId} : .value id ∈ items d ↔ ∃ oid, (oid, id) ∈ d.params := by
  have hvalues : (items d).filterMap Item.value? = d.params.map Prod.snd := by
    rw [filterMap_items_outer]
    · simp [Item.value?, List.map_eq_flatMap]
    · intro i hi
      cases i <;> first | rfl | cases hi
  have hmem : .value id ∈ items d ↔ id ∈ (items d).filterMap Item.value? := by
    rw [List.mem_filterMap]
    constructor
    · intro hi
      exact ⟨.value id, hi, rfl⟩
    · rintro ⟨i, hi, hid⟩
      cases i <;> cases hid
      exact hi
  rw [hmem, hvalues]
  simp

end Parts

end DeviceModel.Cpp
