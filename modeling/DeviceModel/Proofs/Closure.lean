import DeviceModel.Device.Summary
import DeviceModel.Proofs.Agreement
import DeviceModel.Proofs.NoDanglingIndex
import DeviceModel.Proofs.Preorder

namespace DeviceModel

/-- Every index in a device leads to something, and children come behind their parents. -/
structure Closed (d : Device) : Prop where
  placed : ∀ p ∈ d.nodes, d.param? p.id = some p
  numbered : ∀ id p, d.param? id = some p → p.id = id
  roots : ∀ realm, ∀ e ∈ d.roots realm, ∃ p ∈ d.nodes, p.id = e.2
  shared : ∀ e ∈ d.sharedConstraints, e.2.index < d.constraints.size
  children : ∀ p ∈ d.nodes, ∀ e ∈ p.children, ∃ q ∈ d.nodes, q.id = e.2 ∧ p.id.index < q.id.index
  parents : ∀ p ∈ d.nodes, ∀ id, p.parent = some id → ∃ q ∈ d.nodes, q.id = id
  templates : ∀ p ∈ d.nodes, ∀ id, p.template = some id → ∃ q ∈ d.nodes, q.id = id
  constraints : ∀ p ∈ d.nodes, ∀ c, p.constraint = some c → c.index < d.constraints.size
  /-- Types that are declared, and those that types, containers and values refer to. -/
  declares : ∀ p ∈ d.nodes, ∀ t, p.declares = some t → t.index < d.types.size
  typed : ∀ p ∈ d.nodes, Among d.types.size p.typeIds
  /-- A declared type refers only to types before it. -/
  shapes : Backward d.types.toList
  typeOwners : ∀ t ∈ d.types, ∃ p ∈ d.nodes, p.id = t.owner
  constraintOwners : ∀ c ∈ d.constraints, ∀ id, c.owner = some id → ∃ p ∈ d.nodes, p.id = id

/-- What is gathered from a list, if something is gathered from each item. -/
def gather {α β : Type} (f : α → Option (List β)) (as : List α) : Option (List β) :=
  (as.mapM f).map List.flatten

theorem gather_eq_some {α β : Type} {f : α → Option (List β)} {g : α → List β} {as : List α}
    (h : ∀ a ∈ as, f a = some (g a)) : gather f as = some (as.flatMap g) := by
  rw [gather, mapM_eq_some h, List.flatMap_def]
  rfl

namespace Device

variable (d : Device)

/-- The tree below a parameter, if all of it is there and it is no deeper than given. -/
def subtreeWithin? : Nat → ParamId → Option (List ParamId)
  | 0, _ => none
  | depth + 1, id => do
    let p ← d.param? id
    return id :: (← gather (fun e => subtreeWithin? depth e.2) p.children)

def subtree? (id : ParamId) : Option (List ParamId) := d.subtreeWithin? d.nodes.size id

/-- What is said of a parameter and those below it, if all that it is said of is there. -/
def summaryWithin? : Nat → ParamId → Option Json
  | 0, _ => none
  | depth + 1, id => do
    let p ← d.param? id
    let template ← p.template.mapM d.param?
    let constraint ← p.constraint.mapM d.constraint?
    let below ← p.children.mapM fun e => summaryWithin? depth e.2
    return account p template constraint below

def summary? : Option Json := do
  let params ← d.params.mapM fun e => d.summaryWithin? (d.nodes.size + 1) e.2
  let commands ← d.commands.mapM fun e => d.summaryWithin? (d.nodes.size + 1) e.2
  return d.overview params commands

end Device

namespace Closed

variable {d : Device} (h : Closed d)

include h

/-- What an index of the arena leads to. -/
theorem param?_lt {p : Param} (hp : p ∈ d.nodes) : p.id.index < d.nodes.size := by
  have hfound := h.placed p hp
  rw [Device.param?] at hfound
  exact (Array.getElem?_eq_some_iff.mp hfound).1

/-- Every index of the arena is that of a parameter. -/
theorem node {id : ParamId} (hid : id.index < d.nodes.size) : ∃ p ∈ d.nodes, p.id = id := by
  have hfound : d.param? id = some d.nodes[id.index] := Array.getElem?_eq_getElem hid
  exact ⟨_, Array.getElem_mem hid, h.numbered id _ hfound⟩

theorem child? {p : Param} (hp : p ∈ d.nodes) {e : String × ParamId} (he : e ∈ p.children) :
    ∃ q ∈ d.nodes, d.param? e.2 = some q ∧ q.id = e.2 ∧ p.id.index < q.id.index := by
  obtain ⟨q, hq, hid, hlt⟩ := h.children p hp e he
  exact ⟨q, hq, hid ▸ h.placed q hq, hid, hlt⟩

theorem children? {p : Param} (hp : p ∈ d.nodes) : d.children? p.id = some (d.children p.id) := by
  have hall : ∀ entries : Entries ParamId, (∀ e ∈ entries, ∃ q, d.param? e.2 = some q) →
      entries.mapM (fun e => d.param? e.2) = some (entries.filterMap fun e => d.param? e.2) := by
    intro entries found
    induction entries with
    | nil => rfl
    | cons e rest ih =>
      obtain ⟨q, hq⟩ := found e (List.mem_cons_self ..)
      have hrest := ih fun e' he' => found e' (List.mem_cons_of_mem _ he')
      rw [List.mapM_cons, List.filterMap_cons, hq, hrest]
      rfl
  rw [Device.children_of_found (h.placed p hp), Device.children?, h.placed p hp]
  apply hall
  intro e he
  obtain ⟨q, _, hq, _⟩ := h.child? hp he
  exact ⟨q, hq⟩

theorem mem_children {p q : Param} (hp : p ∈ d.nodes) (hq : q ∈ d.children p.id) :
    q ∈ d.nodes ∧ p.id.index < q.id.index := by
  rw [Device.children_of_found (h.placed p hp)] at hq
  obtain ⟨e, he, hfound⟩ := List.mem_filterMap.mp hq
  obtain ⟨q', hq', hfound', _, hlt⟩ := h.child? hp he
  cases hfound.symm.trans hfound'
  exact ⟨hq', hlt⟩

theorem descend? {p : Param} (hp : p ∈ d.nodes) (names : List String) :
    d.descend? p.id names = some (d.descend p.id names) := by
  induction names generalizing p with
  | nil => rfl
  | cons name rest ih =>
    simp only [Device.descend?, Device.descend, h.placed p hp, Option.bind_eq_bind,
      Option.bind_some]
    cases hchild : p.children.get? name with
    | none => rfl
    | some child =>
      obtain ⟨before, after, he, _⟩ := List.lookup_eq_some_iff.mp hchild
      obtain ⟨q, hq, rfl, _⟩ := h.children p hp (name, child) (by simp [he])
      exact ih hq

theorem locate? (realm : Realm) (fqoid : String) :
    d.locate? realm fqoid = some (d.find? realm fqoid) := by
  unfold Device.locate? Device.find?
  split
  · rfl
  · next root rest _ =>
    cases hroot : (d.roots realm).get? root with
    | none => rfl
    | some id =>
      obtain ⟨before, after, he, _⟩ := List.lookup_eq_some_iff.mp hroot
      obtain ⟨p, hp, rfl⟩ := h.roots realm (root, id) (by simp [he])
      exact h.descend? hp rest

/-- The depth is never reached: each level down starts further along the arena. -/
theorem subtreeWithin? {depth : Nat} {p : Param} (hp : p ∈ d.nodes)
    (hn : d.nodes.size ≤ p.id.index + depth) :
    d.subtreeWithin? depth p.id = some (d.subtreeWithin depth p.id) := by
  induction depth generalizing p with
  | zero =>
    have hlt := h.param?_lt hp
    omega
  | succ depth ih =>
    have hbelow : gather (fun e => d.subtreeWithin? depth e.2) p.children =
        some (p.children.flatMap fun e => d.subtreeWithin depth e.2) := by
      apply gather_eq_some
      intro e he
      obtain ⟨q, hq, hid, hlt⟩ := h.children p hp e he
      rw [← hid]
      exact ih hq (by omega)
    simp only [Device.subtreeWithin?, Device.subtreeWithin, h.placed p hp, hbelow,
      Option.bind_eq_bind, Option.bind_some, Option.pure_def]

theorem subtree? {p : Param} (hp : p ∈ d.nodes) : d.subtree? p.id = some (d.subtree p.id) :=
  h.subtreeWithin? hp (Nat.le_add_left ..)

theorem mem_subtree {root : Param} (hroot : root ∈ d.nodes) {id : ParamId}
    (hid : id ∈ d.subtree root.id) :
    ∃ p ∈ d.nodes, p.id = id := by
  have hwithin : ∀ depth {p : Param}, p ∈ d.nodes → id ∈ d.subtreeWithin depth p.id → ∃ q ∈ d.nodes,
      q.id = id := by
    intro depth
    induction depth with
    | zero =>
      intro p hp hid
      exact ⟨p, hp, (List.mem_singleton.mp hid).symm⟩
    | succ depth ih =>
      intro p hp hid
      rw [Device.subtreeWithin, h.placed p hp] at hid
      rcases List.mem_cons.mp hid with rfl | hid
      · exact ⟨p, hp, rfl⟩
      · obtain ⟨e, he, hid⟩ := List.mem_flatMap.mp hid
        obtain ⟨q, hq, hqid, _⟩ := h.children p hp e he
        exact ih hq (hqid ▸ hid)
  exact hwithin d.nodes.size hroot hid

/-- What is stored as a reference is found where it leads. -/
theorem template? {p : Param} (hp : p ∈ d.nodes) :
    p.template.mapM d.param? = some (p.template.bind d.param?) := by
  cases ht : p.template with
  | none => rfl
  | some id =>
    obtain ⟨q, hq, rfl⟩ := h.templates p hp id ht
    simp [h.placed q hq]

theorem parent? {p : Param} (hp : p ∈ d.nodes) :
    p.parent.mapM d.param? = some (p.parent.bind d.param?) := by
  cases hparent : p.parent with
  | none => rfl
  | some id =>
    obtain ⟨q, hq, rfl⟩ := h.parents p hp id hparent
    simp [h.placed q hq]

theorem constraint? {p : Param} (hp : p ∈ d.nodes) :
    p.constraint.mapM d.constraint? = some (p.constraint.bind d.constraint?) := by
  cases hc : p.constraint with
  | none => rfl
  | some id =>
    have hlt := h.constraints p hp id hc
    simp [Device.constraint?, Array.getElem?_eq_getElem hlt]

theorem summaryWithin? {depth : Nat} {p : Param} (hp : p ∈ d.nodes)
    (hn : d.nodes.size ≤ p.id.index + depth) :
    d.summaryWithin? depth p.id = some (d.summaryWithin depth p.id) := by
  induction depth generalizing p with
  | zero =>
    have hlt := h.param?_lt hp
    omega
  | succ depth ih =>
    have hbelow : p.children.mapM (fun e => d.summaryWithin? depth e.2) =
        some (p.children.map fun e => d.summaryWithin depth e.2) := by
      apply mapM_eq_some
      intro e he
      obtain ⟨q, hq, hid, hlt⟩ := h.children p hp e he
      rw [← hid]
      exact ih hq (by omega)
    simp only [Device.summaryWithin?, Device.summaryWithin, h.placed p hp, h.template? hp,
      h.constraint? hp, hbelow, Option.bind_eq_bind, Option.bind_some, Option.pure_def]

theorem summary? : d.summary? = some d.summary := by
  have hrealm : ∀ realm, (d.roots realm).mapM (fun e => d.summaryWithin? (d.nodes.size + 1) e.2) =
      some ((d.roots realm).map fun e => d.paramSummary e.2) := by
    intro realm
    apply mapM_eq_some
    intro e he
    obtain ⟨p, hp, hid⟩ := h.roots realm e he
    rw [← hid]
    exact h.summaryWithin? hp (by omega)
  have hparams := hrealm .params
  have hcommands := hrealm .commands
  simp only [Device.roots] at hparams hcommands
  simp only [Device.summary?, hparams, hcommands, Option.bind_eq_bind, Option.bind_some,
    Option.pure_def]
  rfl

end Closed

namespace Resolve

namespace Resolved

variable {source : Source} {importRoot : Path} {description : Description.Device} {d : Device}
  {shared : List Constraint} {params commands : Forest}
  (h : Resolved source importRoot description d shared params commands)

include h

theorem sound_whole : Sound ((start shared).after (params.append commands)) := by
  rw [Ground.after_append]
  exact h.commands_grown.sound h.sound

/-- Every index below the number of parameters is that of one. -/
theorem node_of_lt {id : ParamId} (hid : id.index < (params.append commands).params.length) :
    ∃ p ∈ d.nodes, p.id = id := by
  have hlt : id.index < d.nodes.size := by
    rwa [← Array.length_toList, h.nodes, ← Forest.params_append]
  have hfound : d.param? id = some d.nodes[id.index] := Array.getElem?_eq_getElem hlt
  exact ⟨_, Array.getElem_mem hlt, h.id_eq hfound⟩

theorem closed : Closed d := by
  have hsound := h.sound_whole
  have htypes : ((start shared).after (params.append commands)).types.length = d.types.size := by
    rw [← Array.length_toList, h.types]
    simp [start]
  have hconstraints : ((start shared).after (params.append commands)).constraints.length =
      d.constraints.size := by
    rw [← Array.length_toList, h.constraints]
    simp [start]
  have hknown : ∀ {p : Param}, p ∈ d.nodes →
      p ∈ ((start shared).after (params.append commands)).known :=
    fun hp => List.mem_append_right _ (h.mem_nodes.mp hp)
  have hcount : ((start shared).after (params.append commands)).count =
      (params.append commands).params.length := by
    simp [start]
  constructor
  case placed =>
    intro p hp
    exact h.found p (h.mem_nodes.mp hp)
  case numbered =>
    intro id p hp
    exact h.id_eq hp
  case roots =>
    intro realm e he
    obtain ⟨p, hp, rfl, _⟩ := h.root he
    exact ⟨p, h.mem_nodes.mpr hp, rfl⟩
  case shared =>
    intro e he
    rw [← hconstraints]
    apply hsound.shared e
    rwa [h.shared_eq] at he
  case children =>
    intro p hp e he
    rw [h.mem_nodes] at hp
    obtain ⟨q, hq, rfl, _⟩ := h.child hp he
    exact ⟨q, h.mem_nodes.mpr hq, rfl, h.numbered.child h.linked hp he⟩
  case parents =>
    intro p hp id hid
    rw [h.mem_nodes] at hp
    rcases h.lineage hp with ⟨_, seat⟩ | ⟨q, hq, seat, _⟩
    · cases seat.parent.symm.trans hid
    · cases seat.parent.symm.trans hid
      exact ⟨q, h.mem_nodes.mpr hq, rfl⟩
  case templates =>
    intro p hp id hid
    obtain ⟨template, rfl, pattern⟩ := h.patterned.made p (hknown hp) id hid
    exact ⟨template, Array.mem_of_getElem? pattern.found, rfl⟩
  case constraints =>
    intro p hp c hc
    rw [← hconstraints]
    exact hsound.constrained p (hknown hp) c hc
  case declares =>
    intro p hp t ht
    obtain ⟨_, decl, hdecl, _⟩ := (h.typed hp).declares t ht
    exact (Array.getElem?_eq_some_iff.mp hdecl).1
  case typed =>
    intro p hp
    rw [← htypes]
    exact hsound.typed p (hknown hp)
  case shapes =>
    rw [h.types, ← Forest.types_append]
    exact hsound.backward
  case typeOwners =>
    intro t ht
    rw [← Array.mem_toList_iff, h.types, ← Forest.types_append] at ht
    apply h.node_of_lt
    rw [← hcount]
    exact hsound.owners t (by simpa [start] using ht)
  case constraintOwners =>
    intro c hc id hid
    rw [← Array.mem_toList_iff, h.constraints, ← Forest.constraints_append] at hc
    apply h.node_of_lt
    rw [← hcount]
    exact hsound.owned c hc id hid

end Resolved

end Resolve

end DeviceModel
