import DeviceModel.Proofs.Definitions
import DeviceModel.Proofs.Items
import DeviceModel.Proofs.Layout

namespace DeviceModel.Cpp

open Resolve

/-- How much of the arenas is defined, and which values. -/
structure Defined where
  constraints : Nat
  descriptors : Nat
  values : List ParamId

namespace Defined

/-- What is defined after one more item. -/
def add (s : Defined) : Item → Defined
  | .constraint _ => { s with constraints := s.constraints + 1 }
  | .descriptor _ => { s with descriptors := s.descriptors + 1 }
  | .value id => { s with values := id :: s.values }
  | _ => s

end Defined

/-- An item defines what is next in its arena, and refers to what is defined. -/
def Ready (d : Device) (s : Defined) : Item → Prop
  | .constraint id => id.index = s.constraints
  | .descriptor id =>
    id.index = s.descriptors ∧ ∃ p, d.param? id = some p ∧
      (∀ c, p.constraint = some c → c.index < s.constraints) ∧ ∀ q, p.parent = some q →
        q.index < s.descriptors
  | .value id => ∃ p, d.param? id = some p
  | .param id =>
    (∃ p, d.param? id = some p) ∧ id ∈ s.values ∧ ∀ q, d.Below id q → q.index < s.descriptors
  | .command id => (∃ p, d.param? id = some p) ∧ ∀ q, d.Below id q → q.index < s.descriptors
  | _ => True

/-- Each item is ready when its turn comes. -/
def Ordered (d : Device) : Defined → List Item → Defined → Prop
  | s, [], s' => s = s'
  | s, i :: rest, s' => Ready d s i ∧ Ordered d (s.add i) rest s'

namespace Ordered

variable {d : Device} {s s' s'' : Defined}

theorem append {is is' : List Item} (h : Ordered d s is s') (h' : Ordered d s' is' s'') :
    Ordered d s (is ++ is') s'' := by
  induction is generalizing s with
  | nil =>
    cases h
    exact h'
  | cons i rest ih => exact ⟨h.1, ih h.2⟩

theorem single {i : Item} (h : Ready d s i) : Ordered d s [i] (s.add i) := ⟨h, rfl⟩

/-- Items that define nothing of the arenas and refer to nothing of them. -/
theorem of_free {is : List Item} (h : ∀ i ∈ is, ∀ s, Ready d s i ∧ s.add i = s) :
    Ordered d s is s := by
  induction is with
  | nil => rfl
  | cons i rest ih =>
    obtain ⟨hi, hs⟩ := h i (by simp) s
    refine ⟨hi, ?_⟩
    rw [hs]
    exact ih fun j hj => h j (List.mem_cons_of_mem _ hj)

/-- A blank in front changes nothing. -/
theorem paragraph {is : List Item} (h : Ordered d s is s') : Ordered d s (paragraph is) s' := by
  unfold Cpp.paragraph
  split
  · next hempty => rwa [List.isEmpty_iff.mp hempty] at h
  · exact ⟨trivial, h⟩

/-- Every item is ready after those before it. -/
theorem split {pre post : List Item} {i : Item} (h : Ordered d s (pre ++ i :: post) s') :
    ∃ m, Ordered d s pre m ∧ Ready d m i := by
  induction pre generalizing s with
  | nil => exact ⟨s, rfl, h.1⟩
  | cons j pre ih =>
    obtain ⟨m, hm, hi⟩ := ih h.2
    exact ⟨m, ⟨h.1, hm⟩, hi⟩

/-- The constraints are defined in order. -/
theorem constraints {is : List Item} (h : Ordered d s is s') :
    ∃ n, s'.constraints = s.constraints + n ∧
      is.filterMap Item.constraint? = (List.range' s.constraints n).map ConstraintId.mk := by
  induction is generalizing s with
  | nil =>
    cases h
    exact ⟨0, rfl, rfl⟩
  | cons i rest ih =>
    obtain ⟨hi, h⟩ := h
    obtain ⟨n, hn, he⟩ := ih h
    cases i with
    | constraint id =>
      obtain ⟨k⟩ := id
      cases hi
      refine ⟨n + 1, by rw [hn]; simp [Defined.add]; omega, ?_⟩
      simp [Item.constraint?, he, Defined.add, List.range'_succ]
    | _ => exact ⟨n, hn, he⟩

/-- The descriptors are defined in order. -/
theorem descriptors {is : List Item} (h : Ordered d s is s') :
    ∃ n, s'.descriptors = s.descriptors + n ∧
      is.filterMap Item.descriptor? = (List.range' s.descriptors n).map ParamId.mk := by
  induction is generalizing s with
  | nil =>
    cases h
    exact ⟨0, rfl, rfl⟩
  | cons i rest ih =>
    obtain ⟨hi, h⟩ := h
    obtain ⟨n, hn, he⟩ := ih h
    cases i with
    | descriptor id =>
      obtain ⟨k⟩ := id
      obtain ⟨rfl, _⟩ := hi
      refine ⟨n + 1, by rw [hn]; simp [Defined.add]; omega, ?_⟩
      simp [Item.descriptor?, he, Defined.add, List.range'_succ]
    | _ => exact ⟨n, hn, he⟩

/-- What is counted as defined is defined by one of the items. -/
theorem constraint_mem {is : List Item} (h : Ordered d ⟨0, 0, []⟩ is s) {c : ConstraintId}
    (hc : c.index < s.constraints) : .constraint c ∈ is := by
  obtain ⟨n, hn, he⟩ := h.constraints
  have hm : c ∈ is.filterMap Item.constraint? := by
    rw [he]
    exact List.mem_map.mpr ⟨c.index, List.mem_range'_1.mpr ⟨Nat.zero_le _, hn ▸ hc⟩, rfl⟩
  obtain ⟨i, hi, hic⟩ := List.mem_filterMap.mp hm
  cases i <;> simp [Item.constraint?] at hic
  rwa [hic] at hi

theorem descriptor_mem {is : List Item} (h : Ordered d ⟨0, 0, []⟩ is s) {q : ParamId}
    (hq : q.index < s.descriptors) : .descriptor q ∈ is := by
  obtain ⟨n, hn, he⟩ := h.descriptors
  have hm : q ∈ is.filterMap Item.descriptor? := by
    rw [he]
    exact List.mem_map.mpr ⟨q.index, List.mem_range'_1.mpr ⟨Nat.zero_le _, hn ▸ hq⟩, rfl⟩
  obtain ⟨i, hi, hiq⟩ := List.mem_filterMap.mp hm
  cases i <;> simp [Item.descriptor?] at hiq
  rwa [hiq] at hi

theorem values {is : List Item} (h : Ordered d s is s') {id : ParamId} (hid : id ∈ s'.values) :
    id ∈ s.values ∨ .value id ∈ is := by
  induction is generalizing s with
  | nil =>
    cases h
    exact .inl hid
  | cons i rest ih =>
    rcases ih h.2 with hs | hr
    · cases i with
      | value q =>
        rcases List.mem_cons.mp hs with rfl | hs
        · exact .inr (by simp)
        · exact .inl hs
      | _ => exact .inl hs
    · exact .inr (List.mem_cons_of_mem _ hr)

end Ordered

/-- A constraint with an owner comes right before the descriptor of its owner. -/
def Paired (d : Device) : List Item → Prop
  | [] => True
  | i :: rest =>
    (∀ id c p, i = .constraint id → d.constraint? id = some c → c.owner = some p →
      rest.head? = some (.descriptor p)) ∧ Paired d rest

namespace Paired

variable {d : Device}

theorem append {is is' : List Item} (h : Paired d is) (h' : Paired d is') :
    Paired d (is ++ is') := by
  induction is with
  | nil => exact h'
  | cons i rest ih =>
    refine ⟨fun id c p hi hc ho => ?_, ih h.2⟩
    change (rest ++ is').head? = _
    rw [List.head?_append, h.1 id c p hi hc ho]
    rfl

theorem flatMap {α : Type} {as : List α} {f : α → List Item} (h : ∀ a ∈ as, Paired d (f a)) :
    Paired d (as.flatMap f) := by
  induction as with
  | nil => trivial
  | cons a rest ih =>
    rw [List.flatMap_cons]
    exact (h a (by simp)).append (ih fun b hb => h b (List.mem_cons_of_mem _ hb))

/-- Items without a constraint of a single owner. -/
theorem of_unowned {is : List Item}
    (h : ∀ id c, .constraint id ∈ is → d.constraint? id = some c → c.owner = none) :
    Paired d is := by
  induction is with
  | nil => trivial
  | cons i rest ih =>
    refine ⟨?_, ih fun id c hi => h id c (List.mem_cons_of_mem _ hi)⟩
    rintro id c p rfl hc ho
    rw [h id c (by simp) hc] at ho
    cases ho

theorem split {pre post : List Item} {i : Item} (h : Paired d (pre ++ i :: post)) :
    Paired d (i :: post) := by
  induction pre with
  | nil => exact h
  | cons j pre ih => exact ih h.2

theorem ownedConstraint (p : Param) : Paired d (ownedConstraint d p ++ [.descriptor p.id]) := by
  unfold Cpp.ownedConstraint
  split
  · exact .of_unowned (by simp)
  · next k hk =>
    split
    · next c hc =>
      split
      · next howner =>
        refine ⟨?_, .of_unowned (by simp)⟩
        rintro id c' q he hc' ho
        cases he
        cases hc.symm.trans hc'
        rw [howner] at ho
        cases ho
        rfl
      · exact .of_unowned (by simp)
    · exact .of_unowned (by simp)

theorem descriptors (ids : ∀ id p, d.param? id = some p → p.id = id) (root : ParamId) :
    Paired d (descriptors d root) := by
  refine .flatMap fun id _ => ?_
  split
  · next p hp =>
    rw [← ids id p hp]
    exact .ownedConstraint p
  · trivial

end Paired

/-- What is defined on a ground. -/
def definedOn (g : Ground) (values : List ParamId) : Defined :=
  ⟨g.constraints.length, g.count, values⟩

/-- A parameter's own constraint and its descriptor. -/
def nodeItems (d : Device) (p : Param) : List Item := ownedConstraint d p ++ [.descriptor p.id]

section Nodes

variable {d : Device} {g : Ground} {f : Forest} {p : Param} (values : List ParamId)

/-- A constraint from before is not the parameter's own. -/
theorem ownedConstraint_old (hd : Holds d g f) (hg : Sound g) (hid : p.id = ⟨g.count⟩)
    (hc : ∀ c, p.constraint = some c → c.index < g.constraints.length) :
    ownedConstraint d p = [] := by
  unfold ownedConstraint
  cases hp : p.constraint with
  | none => rfl
  | some c =>
    obtain ⟨k, hk, hfound⟩ := hd.constraint?_old (hc c hp)
    have howner : k.owner ≠ some p.id := by
      intro he
      have hlt := hg.owned k hk p.id he
      rw [hid] at hlt
      exact Nat.lt_irrefl _ hlt
    simp [hfound, howner]

/-- The descriptor of a parameter that refers only to constraints from before. -/
theorem node_old (hd : Holds d g f) (hg : Sound g) (hp : p ∈ f.params) (hid : p.id = ⟨g.count⟩)
    (hc : ∀ c, p.constraint = some c → c.index < g.constraints.length)
    (hparent : ∀ q, p.parent = some q → q.index < g.count) (realm : Realm) (fqoid : String) :
    Ordered d (definedOn g values) (nodeItems d p)
      (definedOn (g.enter realm fqoid none) values) := by
  have hnext : definedOn (g.enter realm fqoid none) values =
      (definedOn g values).add (.descriptor p.id) := by
    simp [definedOn, Defined.add]
  rw [nodeItems, ownedConstraint_old hd hg hid hc, hnext]
  exact .single ⟨by rw [hid]; rfl, p, hd.found p hp, hc, hparent⟩

variable {site : Site} {oid : String} {declaration : Description.Declaration}
  {binding : Option Binding} {typing : Typing} {below : Forest} {own : Share}

/-- A declared parameter's own constraint comes right before its descriptor. -/
theorem settled_ordered (h : Settled g site oid declaration binding typing below own p)
    (hd : Holds d g (.tree p own below)) (hg : Sound g)
    (hbinding : ∀ c, binding.bind Binding.constraint = some c → c.index < g.constraints.length)
    (hparent : ∀ q, site.parent = some q → q.index < g.count) :
    Ordered d (definedOn g values) (nodeItems d p)
      (definedOn (g.enter site.realm (site.fqoid oid) own.rule) values) := by
  obtain ⟨id, ruled, hc⟩ := h.ruled
  have hp : p ∈ (Forest.tree p own below).params := by simp
  have hparent' : ∀ q, p.parent = some q → q.index < g.count := by rwa [h.parent]
  generalize hrule : own.rule = rule at ruled ⊢
  generalize declaration.constraint = declared at ruled
  cases ruled with
  | none => exact node_old values hd hg hp h.id (by simpa [hc] using hbinding) hparent' _ _
  | shared _ _ found =>
    have hlt := hg.shared_lt found
    exact node_old values hd hg hp h.id (by simpa [hc] using hlt) hparent' _ _
  | inline _ _ =>
    have hfound := hd.constraint? hrule
    have howned : ownedConstraint d p = [.constraint ⟨g.constraints.length⟩] := by
      simp [ownedConstraint, hc, hfound, h.id]
    rw [nodeItems, howned]
    refine ⟨rfl, ⟨by rw [h.id]; rfl, p, hd.found p hp, ?_, hparent'⟩, ?_⟩
    · simp [hc, definedOn, Defined.add]
    · simp [definedOn, Defined.add, Ordered]

/-- A parameter and then what is below it. -/
theorem tree_ordered {values : List ParamId} {realm : Realm} {fqoid : String}
    (hnode : Ordered d (definedOn g values) (nodeItems d p)
      (definedOn (g.enter realm fqoid own.rule) values))
    (hbelow : Ordered d (definedOn (g.enter realm fqoid own.rule) values)
      (below.params.flatMap (nodeItems d))
      (definedOn ((g.enter realm fqoid own.rule).after below) values)) :
    Ordered d (definedOn g values) ((Forest.tree p own below).params.flatMap (nodeItems d))
      (definedOn (g.after (.tree p own below)) values) := by
  have hend : definedOn (g.after (.tree p own below)) values =
      definedOn ((g.enter realm fqoid own.rule).after below) values := by
    simp only [definedOn, Ground.after_constraints, Ground.enter_constraints, Ground.after_count,
      Ground.enter_count, Forest.constraints_tree, Forest.params_tree, List.length_cons,
      List.append_assoc, Defined.mk.injEq, true_and, and_true]
    omega
  rw [Forest.params_tree, List.flatMap_cons, hend]
  exact hnode.append hbelow

/-- Descriptors of copies refer to what their originals refer to. -/
theorem copied_ordered {realm : Realm} {parent : ParamId} {path : String}
    {entries : Entries ParamId} (h : Copied realm g parent path entries f) (hg : Sound g)
    (hd : Holds d g f) (hparent : parent.index < g.count) :
    Ordered d (definedOn g values) (f.params.flatMap (nodeItems d))
      (definedOn (g.after f) values) := by
  induction h with
  | nil => simp [Ordered]
  | @cons g parent path key entries source p below rest known node fresh inner next ihInner
      ihNext =>
    have hsound := hg.graft known node inner.types (inner.sound (hg.enter (by simp)))
    change Holds d g ((Forest.tree p {} below).append rest) at hd
    have hp : Ordered d (definedOn g values) (nodeItems d p)
        (definedOn (g.enter realm p.fqoid none) values) := by
      refine node_old values hd.left hg (by simp) (by rw [node]; rfl) ?_ ?_ _ _
      · intro c hc
        rw [node] at hc
        exact hg.constrained source known c hc
      · intro q hq
        rw [node] at hq
        cases hq
        exact hparent
    have hbelow := ihInner (hg.enter (by simp)) (hd.left.inner _ _) (Nat.lt_succ_self _)
    have hrest := ihNext hsound hd.right (by simp; omega)
    have hfirst : Ordered d (definedOn g values)
        ((Forest.tree p {} below).params.flatMap (nodeItems d))
          (definedOn (g.after (.tree p {} below)) values) := tree_ordered hp hbelow
    have hall := hfirst.append hrest
    rwa [← List.flatMap_append, ← Forest.params_append, ← Ground.after_append] at hall

/-- Descriptors of a forest, each after the constraint of its parameter. -/
theorem grown_ordered {source : Source} {opened : List Path}
    {entries : List (String × Description.Param)} (h : Grown source opened g site entries f)
    (hg : Sound g) (hd : Holds d g f) (hparent : ∀ q, site.parent = some q → q.index < g.count) :
    Ordered d (definedOn g values) (f.params.flatMap (nodeItems d))
      (definedOn (g.after f) values) := by
  induction h with
  | nil => simp [Ordered]
  | cons first next ihFirst ihNext =>
    have hfirst := ihFirst hg hd.left hparent
    have hnext := ihNext (first.sound hg) hd.right (fun q hq => Nat.lt_add_right _ (hparent q hq))
    rw [Forest.params_append, List.flatMap_append, Ground.after_append]
    exact hfirst.append hnext
  | imported _ _ _ ih => exact ih hg hd hparent
  | @templated opened g site oid d' templateOid template p type overElements below rule _ _ known _
      _ _ copied _ settled =>
    obtain ⟨_, ruled, _⟩ := settled.ruled
    have hnode :=
      settled_ordered values settled hd hg (fun c hc => hg.constrained template known c hc) hparent
    have hbelow :=
      copied_ordered values copied (hg.enter ruled.owned) (hd.inner _ _) (Nat.lt_succ_self _)
    exact tree_ordered hnode hbelow
  | @composite opened g site oid d' params p below rule _ _ _ _ _ _ _ grown settled ih =>
    obtain ⟨_, ruled, _⟩ := settled.ruled
    have hnode := settled_ordered values settled hd hg (by simp) hparent
    have hbelow := ih (hg.enter ruled.owned) (hd.inner _ _) (by simp [Site.below, Site.inner])
    exact tree_ordered hnode hbelow
  | @plain opened g site oid d' params p below rule _ _ _ _ _ grown settled ih =>
    obtain ⟨_, ruled, _⟩ := settled.ruled
    have hnode := settled_ordered values settled hd hg (by simp) hparent
    have hbelow := ih (hg.enter ruled.owned) (hd.inner _ _) (by simp [Site.below, Site.inner])
    exact tree_ordered hnode hbelow

/-- The items of an outermost parameter. -/
def rootItems (d : Device) : Realm → ParamId → List Item
  | .params => paramItems d
  | .commands => commandItems d

theorem descriptors_tree (linked : (Forest.tree p own below).Linked)
    (hd : Holds d g (.tree p own below)) (hn : below.params.length < d.nodes.size) :
    descriptors d p.id = (Forest.tree p own below).params.flatMap (nodeItems d) := by
  have hsubtree : d.subtree p.id = (Forest.tree p own below).params.map Param.id := by
    rw [Device.subtree_eq linked hd.found hn, Forest.params_tree, List.map_cons]
  rw [descriptors, hsubtree, List.flatMap_map, List.flatMap_def, List.flatMap_def]
  refine congrArg List.flatten (List.map_congr_left fun q hq => ?_)
  simp only [hd.found q hq, nodeItems]

/-- An outermost parameter comes after its value and all descriptors of its tree. -/
theorem root_ordered (realm : Realm) (linked : (Forest.tree p own below).Linked)
    (numbered : Numbered g.count (.tree p own below)) (hd : Holds d g (.tree p own below))
    (hn : below.params.length < d.nodes.size)
    (h : ∀ values,
      Ordered d (definedOn g values) ((Forest.tree p own below).params.flatMap (nodeItems d))
      (definedOn (g.after (.tree p own below)) values)) :
    ∃ values', Ordered d (definedOn g values) (rootItems d realm p.id)
      (definedOn (g.after (.tree p own below)) values') := by
  have hbelow : ∀ q, d.Below p.id q → q.index < (g.after (.tree p own below)).count := by
    intro q hq
    obtain ⟨r, hr, rfl⟩ := hq.mem linked hd.found (by simp)
    exact (numbered.mem hr).2
  rw [← descriptors_tree linked hd hn] at h
  have hfound : ∃ q, d.param? p.id = some q := ⟨p, hd.found p (by simp)⟩
  cases realm with
  | params =>
    refine ⟨p.id :: values, ?_⟩
    have hopen : Ordered d (definedOn g values) [.blank, .value p.id]
        (definedOn g (p.id :: values)) :=
      ⟨trivial, hfound, rfl⟩
    exact (hopen.append (h _)).append (.single ⟨hfound, by simp [definedOn], hbelow⟩)
  | commands =>
    refine ⟨values, ?_⟩
    have hopen : Ordered d (definedOn g values) [.blank] (definedOn g values) := ⟨trivial, rfl⟩
    exact (hopen.append (h _)).append (.single ⟨hfound, hbelow⟩)

/-- The items of all outermost parameters of a realm. -/
theorem roots_ordered {source : Source} {opened : List Path}
    {entries : List (String × Description.Param)} (h : Grown source opened g site entries f)
    (realm : Realm) (hg : Sound g) (hd : Holds d g f) (hparent : site.parent = none)
    (hn : f.params.length ≤ d.nodes.size) :
    ∃ values', Ordered d (definedOn g values) (f.roots.flatMap fun p => rootItems d realm p.id)
      (definedOn (g.after f) values') := by
  have hall := fun values => grown_ordered values h hg hd (by simp [hparent])
  have hlinked := h.linked
  have hnumbered := h.numbered
  induction h generalizing values with
  | nil => exact ⟨values, by simp [Ordered]⟩
  | cons first next ihFirst ihNext =>
    rw [Forest.params_append, List.length_append] at hn
    have hsound := first.sound hg
    obtain ⟨values₁, h₁⟩ := ihFirst values hg hd.left hparent (by omega)
      (fun values => grown_ordered values first hg hd.left (by simp [hparent])) first.linked
        first.numbered
    obtain ⟨values₂, h₂⟩ := ihNext values₁ hsound hd.right hparent (by omega)
      (fun values => grown_ordered values next hsound hd.right (by simp [hparent])) next.linked
        next.numbered
    rw [Forest.roots_append, List.flatMap_append, Ground.after_append]
    exact ⟨values₂, h₁.append h₂⟩
  | imported _ _ _ ih => exact ih values hg hd hparent hn hall hlinked hnumbered
  | templated | composite | plain =>
    simp only [Forest.params_tree, List.length_cons] at hn
    simpa using root_ordered values realm hlinked hnumbered hd hn hall

end Nodes

section Whole

variable {source : Source} {importRoot : Path} {description : Description.Device} {d : Device}
  {shared : List Constraint} {params commands : Forest}
  (h : Resolved source importRoot description d shared params commands)

include h

/-- Shared constraints come first. -/
theorem shared_ordered :
    Ordered d ⟨0, 0, []⟩ (d.sharedConstraints.map fun (_, id) => .constraint id)
      (definedOn (start shared) []) := by
  have hfrom : ∀ (rest : List Constraint) (k : Nat),
      Ordered d ⟨k, 0, []⟩ ((rest.zipIdx k).map fun e => .constraint ⟨e.2⟩)
          ⟨k + rest.length, 0, []⟩ := by
    intro rest
    induction rest with
    | nil => intro k; rfl
    | cons c rest ih =>
      intro k
      refine ⟨rfl, ?_⟩
      have hrest := ih (k + 1)
      rw [Nat.add_right_comm] at hrest
      exact hrest
  have hall := hfrom shared 0
  rw [Nat.zero_add] at hall
  rw [h.shared_eq, List.map_map]
  exact hall

/-- The items of all parameters and commands are in order. -/
theorem trees_ordered : ∃ values, Ordered d (definedOn (start shared) []) (trees d)
    (definedOn (((start shared).after params).after commands) values) := by
  have hnodes : d.nodes.size = params.params.length + commands.params.length := by
    rw [← Array.length_toList, h.nodes, List.length_append]
  obtain ⟨values, hparams⟩ :=
    roots_ordered [] h.params_grown .params (.start h.unowned) h.holds.left rfl (by omega)
  obtain ⟨values', hcommands⟩ :=
    roots_ordered values h.commands_grown .commands h.sound h.holds.right rfl (by omega)
  refine ⟨values', ?_⟩
  rw [trees, h.params_eq, h.commands_eq, Forest.flatMap_entries (fun p _ => rfl),
    Forest.flatMap_entries (fun p _ => rfl)]
  exact hparams.append hcommands

/-- Every constraint belongs to one parameter, so none comes up for writing twice. -/
theorem unrepeated_trees : unrepeated [] (trees d) = trees d := by
  obtain ⟨values, hordered⟩ := trees_ordered h
  obtain ⟨n, _, he⟩ := hordered.constraints
  apply unrepeated_eq
  rw [List.reverse_nil, List.nil_append, he, List.Nodup, List.pairwise_map]
  exact (List.nodup_range' 1).imp fun hne heq => hne (ConstraintId.mk.inj heq)

/-- All items are in order, and define all of the arenas. -/
theorem items_ordered :
    ∃ values, Ordered d ⟨0, 0, []⟩ (items d) ⟨d.constraints.size, d.nodes.size, values⟩ := by
  have hnodes : d.nodes.size = params.params.length + commands.params.length := by
    rw [← Array.length_toList, h.nodes, List.length_append]
  have hend : ∀ values, definedOn (((start shared).after params).after commands) values =
      ⟨d.constraints.size, d.nodes.size, values⟩ := by
    intro values
    have hconstraints : d.constraints.size =
        (shared ++ (params.constraints ++ commands.constraints)).length := by
      rw [← Array.length_toList, h.constraints]
    rw [hconstraints, hnodes]
    simp [definedOn, start]
  have hdevice : Ordered d ⟨0, 0, []⟩ [.device] ⟨0, 0, []⟩ := ⟨trivial, rfl⟩
  have hpacks : Ordered d ⟨0, 0, []⟩ (d.languagePacks.map .languagePack) ⟨0, 0, []⟩ := by
    refine .of_free ?_
    intro i hi s
    obtain ⟨pack, _, rfl⟩ := List.mem_map.mp hi
    exact ⟨trivial, rfl⟩
  obtain ⟨values, htrees⟩ := trees_ordered h
  have hmenus : Ordered d (definedOn (((start shared).after params).after commands) values)
      (d.menuGroups.flatMap menuItems)
      (definedOn (((start shared).after params).after commands) values) := by
    refine .of_free ?_
    intro i hi s
    obtain ⟨group, _, hi⟩ := List.mem_flatMap.mp hi
    simp only [menuItems, List.cons_append, List.nil_append, List.mem_cons, List.mem_map] at hi
    rcases hi with rfl | rfl | ⟨menu, _, rfl⟩ <;> exact ⟨trivial, rfl⟩
  refine ⟨values, ?_⟩
  rw [items, unrepeated_trees h, ← hend]
  exact (((hdevice.append hpacks.paragraph).append (shared_ordered h).paragraph).append
    htrees).append hmenus

end Whole

namespace Ordered

variable {d : Device} {s : Defined} {is : List Item}

/-- What an item defines is there. -/
theorem found (h : Ordered d ⟨0, 0, []⟩ is s) (hs : s.constraints ≤ d.constraints.size) {i : Item}
    (hi : i ∈ is) : i = .blank ∨ ∃ v, i.global? d = some v := by
  obtain ⟨before, after, rfl⟩ := List.append_of_mem hi
  obtain ⟨m, _, hready⟩ := h.split
  cases i with
  | blank => exact .inl rfl
  | device | languagePack | menuGroup | menu => exact .inr ⟨_, rfl⟩
  | constraint id =>
    obtain ⟨n, hn, he⟩ := h.constraints
    have hid : id ∈ (before ++ .constraint id :: after).filterMap Item.constraint? :=
      List.mem_filterMap.mpr ⟨_, hi, rfl⟩
    rw [he, List.mem_map] at hid
    obtain ⟨k, hk, rfl⟩ := hid
    have hlt : k < d.constraints.size := by
      have := (List.mem_range'_1.mp hk).2
      omega
    have hfound : d.constraint? ⟨k⟩ = some d.constraints[k] := Array.getElem?_eq_getElem hlt
    exact .inr ⟨_, by rw [Item.global?, hfound]; rfl⟩
  | value id =>
    obtain ⟨p, hp⟩ := hready
    exact .inr ⟨_, by rw [Item.global?, hp]; rfl⟩
  | descriptor id =>
    obtain ⟨_, p, hp, _⟩ := hready
    exact .inr ⟨_, by rw [Item.global?, hp]; rfl⟩
  | param id | command id =>
    obtain ⟨⟨p, hp⟩, _⟩ := hready
    exact .inr ⟨_, by rw [Item.global?, hp]; rfl⟩

end Ordered

section References

variable {d : Device} {before : List Item}

end References

/-- From 0 to 10. -/
def decade : Description.Constraint where
  type := some "INT_RANGE"
  reference := none
  intRange := some ⟨0, 10, none, none, none⟩
  floatRange := none
  intChoice := none
  namedChoice := none
  picklist := none

/-- A constraint that is shared, one that belongs to a field, and copies that refer to it. -/
def constrainedFields : Description.Device :=
  { Description.Device.small
      [("gain", ⟨{ Description.Declaration.ofType "INT32" with
          constraint := some { decade with type := none, reference := some "level" } }, []⟩),
        ("point", ⟨.ofType "STRUCT", [("x", ⟨{ Description.Declaration.ofType "INT32" with
          constraint := some decade }, []⟩)]⟩),
        ("other", ⟨{ Description.Declaration.ofType "STRUCT" with template := some "point" }, []⟩)]
      [("reset", ⟨.ofType "EMPTY", [("to", ⟨{ Description.Declaration.ofType "STRUCT" with
        template := some "other" }, []⟩)]⟩)] with
    constraints := [("level", decade)] }

end DeviceModel.Cpp
