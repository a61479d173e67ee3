import DeviceModel.Proofs.Lineage
import Mathlib.Data.Set.Card

namespace DeviceModel

namespace Device

/-- A walk that has some parameters still to meet, and those that it meets until nothing is left. It
meets the first one and then looks at its children before the others. Where parameters list one
another in a circle, a walk that gets there has no end. -/
inductive Walk (d : Device) : List ParamId → List ParamId → Prop where
  | done : Walk d [] []
  | meet {id : ParamId} {p : Param} {pending met : List ParamId} (found : d.param? id = some p)
      (next : Walk d (p.children.map Prod.snd ++ pending) met) : Walk d (id :: pending) (id :: met)

variable {d : Device}

/-- A walk meets the same parameters every time. -/
theorem Walk.unique {pending met met' : List ParamId} (h : d.Walk pending met)
    (h' : d.Walk pending met') :
    met = met' := by
  induction h generalizing met' with
  | done =>
    cases h'
    rfl
  | @meet id p pending met found _ ih =>
    cases h' with
    | @meet _ p' _ met' found' next' =>
      cases found.symm.trans found'
      rw [ih next']

/-- A walk through a forest meets all of it in order, and then what was left before. -/
theorem Walk.forest {f : Forest} (linked : f.Linked)
    (found : ∀ p ∈ f.params, d.param? p.id = some p) {pending met : List ParamId}
    (h : d.Walk pending met) :
    d.Walk (f.roots.map Param.id ++ pending) (f.params.map Param.id ++ met) := by
  induction f generalizing pending met with
  | nil => exact h
  | cons p own below rest ihBelow ihRest =>
    obtain ⟨hc, hb, hr⟩ := linked
    have hrest := ihRest hr (fun q hq => found q (by simp [hq])) h
    have hbelow := ihBelow hb (fun q hq => found q (by simp [hq])) hrest
    have hids : p.children.map Prod.snd = below.roots.map Param.id := by
      rw [hc, Forest.entries, List.map_map]
      rfl
    simp only [Forest.roots_cons, Forest.params_cons, List.map_cons, List.map_append,
      List.cons_append, List.append_assoc]
    apply Walk.meet (found p (by simp))
    rw [hids]
    exact hbelow

namespace Below

theorem trans {a b c : ParamId} (h : d.Below a b) (h' : d.Below b c) : d.Below a c := by
  induction h' with
  | self => exact h
  | child _ found listed ih => exact .child ih found listed

/-- Every parameter of a forest is below an outermost one. -/
theorem of_mem {f : Forest} (linked : f.Linked) (found : ∀ p ∈ f.params, d.param? p.id = some p)
    {q : Param} (hq : q ∈ f.params) : ∃ r ∈ f.roots, d.Below r.id q.id := by
  induction f with
  | nil => cases hq
  | cons p own below rest ihBelow ihRest =>
    obtain ⟨hc, hb, hr⟩ := linked
    simp only [Forest.params_cons, List.mem_cons, List.mem_append] at hq
    rcases hq with rfl | hq | hq
    · exact ⟨q, by simp, .self⟩
    · obtain ⟨r, hroot, hbelow⟩ := ihBelow hb (fun q hq => found q (by simp [hq])) hq
      have hlisted : (r.oid, r.id) ∈ p.children := by
        rw [hc]
        exact List.mem_map.mpr ⟨r, hroot, rfl⟩
      have hchild : d.Below p.id r.id := .child .self (found p (by simp)) hlisted
      exact ⟨p, by simp, hchild.trans hbelow⟩
    · obtain ⟨r, hroot, hbelow⟩ := ihRest hr (fun q hq => found q (by simp [hq])) hq
      exact ⟨r, by simp [hroot], hbelow⟩

end Below

/-- The tree below a parameter, as it is written out. -/
theorem below_iff {p : Param} {own : Share} {below : Forest}
    (linked : (Forest.tree p own below).Linked)
    (found : ∀ q ∈ (Forest.tree p own below).params, d.param? q.id = some q) {id : ParamId} :
    d.Below p.id id ↔ id ∈ (p :: below.params).map Param.id := by
  rw [← Forest.params_tree p own below]
  constructor
  · intro h
    obtain ⟨q, hq, rfl⟩ := h.mem linked found (by simp)
    exact List.mem_map.mpr ⟨q, hq, rfl⟩
  · intro h
    obtain ⟨q, hq, rfl⟩ := List.mem_map.mp h
    obtain ⟨r, hroot, hbelow⟩ := Below.of_mem linked found hq
    rw [Forest.roots_tree, List.mem_singleton] at hroot
    rwa [hroot] at hbelow

end Device

/-- Where no id is listed twice, there is one entry with the id of a given one. -/
theorem filter_entries {entries : Entries ParamId} (h : (entries.map Prod.snd).Nodup) {key : String}
    {id : ParamId} (he : (key, id) ∈ entries) :
    entries.filter (fun e => e.2 = id) = [(key, id)] := by
  induction entries with
  | nil => cases he
  | cons first rest ih =>
    rw [List.map_cons, List.nodup_cons] at h
    rcases List.mem_cons.mp he with rfl | he
    · rw [List.filter_cons_of_pos (by simp), List.cons.injEq]
      refine ⟨rfl, List.filter_eq_nil_iff.mpr ?_⟩
      intro e he hid
      apply h.1
      exact List.mem_map.mpr ⟨e, he, by simpa using hid⟩
    · have hne : first.2 ≠ id := by
        intro heq
        apply h.1
        exact List.mem_map.mpr ⟨(key, id), he, heq.symm⟩
      rw [List.filter_cons_of_neg (by simpa using hne)]
      exact ih h.2 he

/-- The arena is the forest of parameters in preorder. -/
structure InPreorder (d : Device) : Prop where
  /-- A parameter is where its id says. -/
  ids : ∀ (i : Nat) (p : Param), d.nodes[i]? = some p → p.id = ⟨i⟩
  /-- What a parameter lists is its child, behind it, under its own oid and in the same realm. -/
  child : ∀ p ∈ d.nodes, ∀ key c, (key, c) ∈ p.children →
    ∃ q, d.param? c = some q ∧ q.parent = some p.id ∧ q.oid = key ∧ p.id.index < c.index ∧
      q.realm = p.realm
  /-- What a realm lists is outermost, under its own oid. -/
  root : ∀ realm key c, (key, c) ∈ d.roots realm →
    ∃ q, d.param? c = some q ∧ q.parent = none ∧ q.oid = key ∧ q.realm = realm
  /-- An outermost parameter is listed once, by one of the realms. -/
  outermost : ∀ p ∈ d.nodes, p.parent = none →
    (p.oid, p.id) ∈ d.roots p.realm ∧
      (d.params ++ d.commands).filter (fun e => e.2 = p.id) = [(p.oid, p.id)]
  /-- Any other is listed once, by its parent. -/
  inner : ∀ p ∈ d.nodes, ∀ above, p.parent = some above →
    ∃ q, d.param? above = some q ∧ q.children.filter (fun e => e.2 = p.id) = [(p.oid, p.id)]
  /-- A walk through the tree below a parameter ends, and what it meets is the subtree. -/
  walk : ∀ p ∈ d.nodes, ∀ met, d.Walk [p.id] met ↔ met = d.subtree p.id
  /-- The subtree is a stretch of the arena, as long as there are parameters below. -/
  subtree : ∀ p ∈ d.nodes,
    d.subtree p.id = (List.range' p.id.index (Set.ncard {q | d.Below p.id q})).map ParamId.mk
  /-- The subtrees of the outermost parameters and commands make up the arena. -/
  whole : (d.params ++ d.commands).flatMap (fun e => d.subtree e.2) =
    (List.range d.nodes.size).map ParamId.mk

namespace Resolve

/-- Ids without a gap. -/
theorem Numbered.ids {start : Nat} {f : Forest} (h : Numbered start f) :
    f.params.map Param.id = (List.range' start f.params.length).map ParamId.mk := by
  rw [← h, List.map_map]
  rfl

namespace Resolved

variable {source : Source} {importRoot : Path} {description : Description.Device} {d : Device}
  {shared : List Constraint} {params commands : Forest}
  (h : Resolved source importRoot description d shared params commands)

include h

theorem size_eq : (params.append commands).params.length = d.nodes.size := by
  rw [← Array.length_toList, h.nodes, Forest.params_append]

theorem entries_eq : d.params ++ d.commands = (params.append commands).entries := by
  rw [h.params_eq, h.commands_eq, Forest.entries_append]

/-- A parameter with those below it is a stretch of the arena. -/
theorem part_holds {p : Param} {own : Share} {below : Forest}
    (part : Forest.Part p own below (params.append commands)) :
    (Forest.tree p own below).Linked ∧
      (∀ q ∈ (Forest.tree p own below).params, d.param? q.id = some q) ∧
      Numbered p.id.index (.tree p own below) ∧ below.params.length < d.nodes.size := by
  refine ⟨part.linked h.linked, ?_, h.numbered.part part, ?_⟩
  · intro q hq
    rw [Forest.params_tree] at hq
    exact h.found q (part.contiguous.subset hq)
  · have hlength := part.contiguous.length_le
    rw [h.size_eq, List.length_cons] at hlength
    exact hlength

theorem walk_subtree {p : Param} (hp : p ∈ (params.append commands).params) :
    d.Walk [p.id] (d.subtree p.id) := by
  obtain ⟨own, below, part⟩ := Forest.exists_part hp
  obtain ⟨linked, found, _, hlt⟩ := h.part_holds part
  have hwalk := Device.Walk.forest linked found .done
  rw [Forest.roots_tree, Forest.params_tree, List.append_nil, List.append_nil] at hwalk
  rw [Device.subtree_eq linked found hlt]
  exact hwalk

/-- There are as many parameters below one as there are ids in its subtree. -/
theorem subtree_range {p : Param} (hp : p ∈ (params.append commands).params) :
    d.subtree p.id = (List.range' p.id.index (Set.ncard {q | d.Below p.id q})).map ParamId.mk := by
  obtain ⟨own, below, part⟩ := Forest.exists_part hp
  obtain ⟨linked, found, numbered, hlt⟩ := h.part_holds part
  have hids := numbered.ids
  have hnodup := numbered.nodup
  rw [Forest.params_tree] at hids hnodup
  have hcard : Set.ncard {q | d.Below p.id q} = (p :: below.params).length := by
    have hset : {q | d.Below p.id q} = ↑((p :: below.params).map Param.id).toFinset := by
      ext q
      rw [List.coe_toFinset]
      exact Device.below_iff linked found
    rw [hset, Set.ncard_coe_finset, List.toFinset_card_of_nodup hnodup, List.length_map]
  rw [Device.subtree_eq linked found hlt, hcard, ← hids]
  rfl

/-- No parameter is listed twice by one parent. -/
theorem children_nodup {p : Param} (hp : p ∈ (params.append commands).params) :
    (p.children.map Prod.snd).Nodup := by
  obtain ⟨own, below, part⟩ := Forest.exists_part hp
  have hnodup := (h.numbered.part part).cons.2.1.nodup
  rw [part.children h.linked, Forest.entries, List.map_map]
  exact (below.roots_sublist.map Param.id).nodup hnodup

theorem roots_nodup : ((d.params ++ d.commands).map Prod.snd).Nodup := by
  rw [h.entries_eq, Forest.entries, List.map_map]
  exact ((Forest.roots_sublist _).map Param.id).nodup h.numbered.nodup

/-- What a realm lists is outermost in it. -/
theorem root {realm : Realm} {e : String × ParamId} (he : e ∈ d.roots realm) :
    ∃ q ∈ (params.append commands).params, e = (q.oid, q.id) ∧ q.parent = none ∧
      q.realm = realm := by
  cases realm with
  | params =>
    rw [Device.roots, h.params_eq] at he
    obtain ⟨q, hq, rfl⟩ := List.mem_map.mp he
    have seat := h.params_grown.seated.root hq
    exact ⟨q, by simp [Forest.mem_params_of_mem_roots hq], rfl, seat.parent, seat.realm⟩
  | commands =>
    rw [Device.roots, h.commands_eq] at he
    obtain ⟨q, hq, rfl⟩ := List.mem_map.mp he
    have seat := h.commands_grown.seated.root hq
    exact ⟨q, by simp [Forest.mem_params_of_mem_roots hq], rfl, seat.parent, seat.realm⟩

/-- An outermost parameter is listed by its realm. -/
theorem mem_roots {p : Param} (hp : p ∈ (params.append commands).roots) :
    (p.oid, p.id) ∈ d.roots p.realm := by
  rw [Forest.roots_append, List.mem_append] at hp
  rcases hp with hp | hp
  · rw [(h.params_grown.seated.root hp).realm]
    change (p.oid, p.id) ∈ d.params
    rw [h.params_eq]
    exact List.mem_map.mpr ⟨p, hp, rfl⟩
  · rw [(h.commands_grown.seated.root hp).realm]
    change (p.oid, p.id) ∈ d.commands
    rw [h.commands_eq]
    exact List.mem_map.mpr ⟨p, hp, rfl⟩

theorem whole : (d.params ++ d.commands).flatMap (fun e => d.subtree e.2) =
    (List.range d.nodes.size).map ParamId.mk := by
  have hids := h.numbered.ids
  rw [h.size_eq, ← List.range_eq_range'] at hids
  rw [h.entries_eq, Forest.flatMap_entries (fun p _ => rfl), ← hids]
  exact Device.subtreeWithin_forest d.nodes.size h.linked h.found (Nat.le_of_eq h.size_eq)

end Resolved

end Resolve

theorem resolved_inPreorder {ns : String} {description : Description.Device} {importRoot : Path}
    {source : Source} {d : Device}
    (h : (Resolve.resolveDevice ns description importRoot source).result = .ok d) :
    InPreorder d := by
  obtain ⟨shared, params, commands, hr⟩ := Resolve.resolveDevice_resolved h
  constructor
  case ids =>
    intro i p hp
    have hfound : d.param? ⟨i⟩ = some p := hp
    exact hr.id_eq hfound
  case child =>
    intro p hp key c hc
    rw [hr.mem_nodes] at hp
    obtain ⟨q, hq, he, seat⟩ := hr.child hp hc
    cases he
    exact ⟨q, hr.found q hq, seat.parent, rfl, hr.numbered.child hr.linked hp hc, seat.realm⟩
  case root =>
    intro realm key c hc
    obtain ⟨q, hq, he, hparent, hrealm⟩ := hr.root hc
    cases he
    exact ⟨q, hr.found q hq, hparent, rfl, hrealm⟩
  case outermost =>
    intro p hp hparent
    rw [hr.mem_nodes] at hp
    rcases hr.lineage hp with ⟨hroot, _⟩ | ⟨q, _, seat, _⟩
    · refine ⟨hr.mem_roots hroot, filter_entries hr.roots_nodup ?_⟩
      rw [hr.entries_eq]
      exact List.mem_map.mpr ⟨p, hroot, rfl⟩
    · cases hparent.symm.trans seat.parent
  case inner =>
    intro p hp above hparent
    rw [hr.mem_nodes] at hp
    rcases hr.lineage hp with ⟨_, seat⟩ | ⟨q, hq, seat, hlisted⟩
    · cases hparent.symm.trans seat.parent
    · cases hparent.symm.trans seat.parent
      exact ⟨q, hr.found q hq, filter_entries (hr.children_nodup hq) hlisted⟩
  case walk =>
    intro p hp met
    rw [hr.mem_nodes] at hp
    constructor
    · intro hwalk
      exact hwalk.unique (hr.walk_subtree hp)
    · rintro rfl
      exact hr.walk_subtree hp
  case subtree =>
    intro p hp
    rw [hr.mem_nodes] at hp
    exact hr.subtree_range hp
  case whole => exact hr.whole

/-- A struct, another one made after it, and a command with an argument. -/
def pointsAndReset : Description.Device :=
  .small
    [("origin", ⟨.ofType "STRUCT", [("x", ⟨.ofType "INT32", []⟩), ("y", ⟨.ofType "INT32", []⟩)]⟩),
      ("corner", ⟨{ Description.Declaration.ofType "STRUCT" with template := some "origin" }, []⟩)]
    [("reset", ⟨.ofType "EMPTY", [("hard", ⟨.ofType "INT32", []⟩)]⟩)]

theorem pointsAndReset_inPreorder :
    ∃ d,
      (Resolve.resolveDevice "m" pointsAndReset ⟨"params"⟩ (Documents.source {})).result = .ok d ∧
      d.nodes.toList.map Param.fqoid =
        ["/origin", "/origin/x", "/origin/y", "/corner", "/corner/x", "/corner/y", "/reset",
          "/reset/hard"] ∧
      InPreorder d := by
  have hok :
      ((Resolve.resolveDevice "m" pointsAndReset ⟨"params"⟩
          (Documents.source {})).result.toOption.map fun d => d.nodes.toList.map Param.fqoid) =
        some ["/origin", "/origin/x", "/origin/y", "/corner", "/corner/x", "/corner/y", "/reset",
          "/reset/hard"] := by
    decide +kernel
  obtain ⟨d, hd, hpaths⟩ := Resolve.ok_of_toOption hok
  exact ⟨d, hd, hpaths, resolved_inPreorder hd⟩

end DeviceModel
