import DeviceModel.Proofs.References

namespace DeviceModel

namespace Forest

/-- Every parameter lists those below it. -/
def Linked : Forest → Prop
  | nil => True
  | cons p _ below rest => p.children = below.entries ∧ below.Linked ∧ rest.Linked

theorem Linked.append {f g : Forest} (hf : f.Linked) (hg : g.Linked) : (f.append g).Linked := by
  induction f with
  | nil => exact hg
  | cons p own below rest _ ih => exact ⟨hf.1, hf.2.1, ih hf.2.2⟩

/-- A forest holds the children of all its parameters. -/
theorem Linked.closed {f : Forest} (h : f.Linked) :
    ∀ p ∈ f.params, ∀ e ∈ p.children, ∃ q ∈ f.params, q.id = e.2 := by
  induction f with
  | nil => simp
  | cons p own below rest ihBelow ihRest =>
    obtain ⟨hc, hb, hr⟩ := h
    intro q hq e he
    simp only [params_cons, List.mem_cons, List.mem_append] at hq ⊢
    rcases hq with rfl | hq | hq
    · rw [hc] at he
      obtain ⟨r, hr, rfl⟩ := List.mem_map.mp he
      exact ⟨r, .inr (.inl (mem_params_of_mem_roots hr)), rfl⟩
    · obtain ⟨r, hr, he⟩ := ihBelow hb q hq e he
      exact ⟨r, .inr (.inl hr), he⟩
    · obtain ⟨r, hr, he⟩ := ihRest hr q hq e he
      exact ⟨r, .inr (.inr hr), he⟩

end Forest

namespace Resolve

theorem Copied.linked {realm : Realm} {g : Ground} {parent : ParamId} {path : String}
    {entries : Entries ParamId} {f : Forest} (h : Copied realm g parent path entries f) :
    f.Linked := by
  induction h with
  | nil => trivial
  | cons _ node _ _ _ inner next => exact ⟨by rw [node]; rfl, inner, next⟩

theorem Grown.linked {source : Source} {opened : List Path} {g : Ground} {site : Site}
    {entries : List (String × Description.Param)} {f : Forest}
    (h : Grown source opened g site entries f) :
    f.Linked := by
  induction h with
  | nil => trivial
  | cons _ _ first next => exact first.append next
  | imported _ _ _ ih => exact ih
  | templated _ _ _ _ _ _ copied _ settled => exact ⟨settled.children, copied.linked, trivial⟩
  | composite _ _ _ _ _ _ _ _ settled ih => exact ⟨settled.children, ih, trivial⟩
  | plain _ _ _ _ _ _ settled ih => exact ⟨settled.children, ih, trivial⟩

end Resolve

/-- The device holds the forest, behind what is on the ground. -/
structure Holds (d : Device) (g : Ground) (f : Forest) : Prop where
  found : ∀ p ∈ f.params, d.param? p.id = some p
  types : g.types ++ f.types <+: d.types.toList
  constraints : g.constraints ++ f.constraints <+: d.constraints.toList

namespace Holds

variable {d : Device} {g : Ground} {f h : Forest} {p : Param} {own : Share} {below : Forest}

theorem left (hd : Holds d g (f.append h)) : Holds d g f where
  found q hq := hd.found q (by simp [hq])
  types := by
    have ht := hd.types
    rw [Forest.types_append, ← List.append_assoc] at ht
    exact (List.prefix_append _ _).trans ht
  constraints := by
    have hc := hd.constraints
    rw [Forest.constraints_append, ← List.append_assoc] at hc
    exact (List.prefix_append _ _).trans hc

theorem right (hd : Holds d g (f.append h)) : Holds d (g.after f) h where
  found q hq := hd.found q (by simp [hq])
  types := by simpa using hd.types
  constraints := by simpa using hd.constraints

/-- What is finished after the forest is found as well. -/
theorem known_after (hd : Holds d g f) (known : ∀ p ∈ g.known, d.param? p.id = some p) :
    ∀ p ∈ (g.after f).known, d.param? p.id = some p :=
  Ground.forall_after known hd.found

/-- What is below a parameter lies behind its constraint. -/
theorem inner (hd : Holds d g (.tree p own below)) (realm : Realm) (fqoid : String) :
    Holds d (g.enter realm fqoid own.rule) below where
  found q hq := hd.found q (by simp [hq])
  types := by
    have ht := hd.types
    rw [Forest.types_tree, ← List.append_assoc] at ht
    exact (List.prefix_append _ _).trans ht
  constraints := by simpa using hd.constraints

/-- The constraint of a parameter lies behind those before it. -/
theorem constraint? (hd : Holds d g (.tree p own below)) {k : Constraint} (hk : own.rule = some k) :
    d.constraint? ⟨g.constraints.length⟩ = some k := by
  obtain ⟨rest, hr⟩ := hd.constraints
  rw [Device.constraint?, ← Array.getElem?_toList, ← hr]
  simp [hk]

/-- The types of a parameter lie behind those below it. -/
theorem typeDecl? (hd : Holds d g (.tree p own below)) {i : Nat} {t : TypeDecl}
    (ht : own.types[i]? = some t) :
    d.typeDecl? ⟨g.types.length + below.types.length + i⟩ = some t := by
  obtain ⟨rest, hr⟩ := hd.types
  have hi := (List.getElem?_eq_some_iff.mp ht).1
  rw [Device.typeDecl?, ← Array.getElem?_toList, ← hr, Forest.types_tree, ← List.append_assoc,
    List.append_assoc _ own.types, List.getElem?_append_right (by simp),
    List.getElem?_append_left (by simp; omega)]
  simpa [Nat.add_sub_cancel_left] using ht

/-- A constraint of the ground is one of the device. -/
theorem constraint?_old (hd : Holds d g f) {c : ConstraintId}
    (hc : c.index < g.constraints.length) :
    ∃ k ∈ g.constraints, d.constraint? c = some k := by
  obtain ⟨rest, hr⟩ := hd.constraints
  refine ⟨g.constraints[c.index], List.getElem_mem hc, ?_⟩
  rw [Device.constraint?, ← Array.getElem?_toList, ← hr, List.append_assoc,
    List.getElem?_append_left hc, List.getElem?_eq_getElem hc]

/-- A type of the ground is one of the device. -/
theorem typeDecl?_old (hd : Holds d g f) {t : TypeId} (ht : t.index < g.types.length) :
    ∃ decl ∈ g.types, d.typeDecl? t = some decl := by
  obtain ⟨rest, hr⟩ := hd.types
  refine ⟨g.types[t.index], List.getElem_mem ht, ?_⟩
  rw [Device.typeDecl?, ← Array.getElem?_toList, ← hr, List.append_assoc,
    List.getElem?_append_left ht, List.getElem?_eq_getElem ht]

/-- The children of a parameter are what is right below it. -/
theorem children (hd : Holds d g (.tree p own below)) (hc : p.children = below.entries) :
    d.children p.id = below.roots := by
  refine Forest.children_eq (hd.found p (by simp)) hc ?_
  intro q hq
  exact hd.found q (by simp [Forest.mem_params_of_mem_roots hq])

end Holds

namespace Device

variable {d : Device}

/-- A forest is written out by the subtrees of its roots, if they may go as deep as it is long. -/
theorem subtreeWithin_forest {f : Forest} (depth : Nat) (linked : f.Linked)
    (found : ∀ p ∈ f.params, d.param? p.id = some p) (hn : f.params.length ≤ depth) :
    f.roots.flatMap (fun p => d.subtreeWithin depth p.id) = f.params.map Param.id := by
  induction f generalizing depth with
  | nil => rfl
  | cons p own below rest ihBelow ihRest =>
    obtain ⟨hc, hb, hr⟩ := linked
    simp only [Forest.params_cons, List.length_cons, List.length_append] at hn
    obtain ⟨depth, rfl⟩ : ∃ n, depth = n + 1 := ⟨depth - 1, by omega⟩
    have hbelow := ihBelow depth hb (fun q hq => found q (by simp [hq])) (by omega)
    have hrest := ihRest (depth + 1) hr (fun q hq => found q (by simp [hq])) (by omega)
    have htree : d.subtreeWithin (depth + 1) p.id = p.id :: below.params.map Param.id := by
      rw [subtreeWithin, found p (by simp)]
      simp only [hc, Forest.entries, List.flatMap_map]
      rw [hbelow]
    simp [htree, hrest]

theorem subtree_eq {p : Param} {own : Share} {below : Forest}
    (linked : (Forest.tree p own below).Linked)
    (found : ∀ q ∈ (Forest.tree p own below).params, d.param? q.id = some q)
    (hn : below.params.length < d.nodes.size) :
    d.subtree p.id = p.id :: below.params.map Param.id := by
  have h := subtreeWithin_forest d.nodes.size linked found (by rw [Forest.params_tree]; exact hn)
  simpa [subtree] using h

/-- The parameters of the tree below one, and itself. -/
inductive Below (d : Device) (root : ParamId) : ParamId → Prop where
  | self : Below d root root
  | child {id : ParamId} {p : Param} {entry : String × ParamId} (above : Below d root id)
      (found : d.param? id = some p) (listed : entry ∈ p.children) : Below d root entry.2

/-- What is below a parameter of a forest is in the forest. -/
theorem Below.mem {f : Forest} (linked : f.Linked) (found : ∀ p ∈ f.params, d.param? p.id = some p)
    {p : Param} (hp : p ∈ f.params) {id : ParamId} (h : Below d p.id id) :
    ∃ q ∈ f.params, q.id = id := by
  induction h with
  | self => exact ⟨p, hp, rfl⟩
  | child _ hfound listed ih =>
    obtain ⟨q, hq, rfl⟩ := ih
    rw [← Option.some.inj ((found q hq).symm.trans hfound)] at listed
    exact linked.closed q hq _ listed

end Device

namespace Resolve

/-- On the ground after a forest, the device holds the forest. -/
theorem Stands.holds {s : Progress} {g : Ground} {f : Forest} (h : Stands s (g.after f)) :
    Holds s.device g f where
  found p hp := h.known p (List.mem_append_right _ hp)
  types := by
    rw [h.types]
    exact List.prefix_rfl
  constraints := by
    rw [h.constraints]
    exact List.prefix_rfl

/-- Where a forest is numbered from the start, an id says where a parameter is. -/
theorem Numbered.index_eq {f : Forest} (h : Numbered 0 f) {i : Nat} {p : Param}
    (hi : f.params[i]? = some p) :
    p.id.index = i := by
  have hm : (f.params.map fun p => p.id.index)[i]? = some p.id.index := by simp [hi]
  rw [h] at hm
  simpa using (List.getElem?_eq_some_iff.mp hm).2.symm

/-- Where all of an arena is numbered, each parameter is found under its id. -/
theorem Numbered.found {d : Device} {f : Forest} (h : Numbered 0 f)
    (nodes : d.nodes.toList = f.params) :
    ∀ p ∈ f.params, d.param? p.id = some p := by
  intro p hp
  obtain ⟨i, hi⟩ := List.mem_iff_getElem?.mp hp
  rw [Device.param?, ← Array.getElem?_toList, nodes, h.index_eq hi, hi]

namespace Resolved

variable {source : Source} {importRoot : Path} {description : Description.Device} {d : Device}
  {shared : List Constraint} {params commands : Forest}
  (h : Resolved source importRoot description d shared params commands)

include h

theorem numbered : Numbered 0 (params.append commands) := by
  have hc := h.commands_grown.numbered
  exact h.params_grown.numbered.append (by simpa using hc)

theorem found : ∀ p ∈ (params.append commands).params, d.param? p.id = some p :=
  h.numbered.found (by rw [h.nodes, Forest.params_append])

/-- What is found under an id has that id. -/
theorem id_eq {id : ParamId} {p : Param} (hp : d.param? id = some p) : p.id = id := by
  rw [Device.param?, ← Array.getElem?_toList, h.nodes, ← Forest.params_append] at hp
  exact congrArg ParamId.mk (h.numbered.index_eq hp)

theorem holds : Holds d (start shared) (params.append commands) where
  found := h.found
  types := by simp [start, h.types]
  constraints := by simp [start, h.constraints]

theorem sound : Sound ((start shared).after params) := h.params_grown.sound (.start h.unowned)

end Resolved

end Resolve

end DeviceModel
