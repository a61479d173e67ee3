import DeviceModel.Proofs.Growth
import DeviceModel.Proofs.Steps

namespace DeviceModel

/-- Under a key that is inserted there is what was inserted; under others there is what was
there. -/
theorem Registry.lookup_insert (r : Registry) (fqoid oid : String) (id : ParamId) :
    (r.insert fqoid id).entries.lookup oid = if oid ==
      fqoid then some id else r.entries.lookup oid := by
  simp only [Registry.insert]
  induction r.entries with
  | nil => by_cases h : oid = fqoid <;> simp [h]
  | cons e rest ih =>
    by_cases he : e.1 = fqoid
    · rw [List.filter_cons_of_neg (by simp [he]), ih, List.lookup_cons, he]
      cases oid == fqoid <;> rfl
    · rw [List.filter_cons_of_pos (by simp [he]), List.cons_append, List.lookup_cons, ih,
        List.lookup_cons]
      cases ho : oid == e.1 with
      | true =>
        have hf : (oid == fqoid) = false := by
          rw [eq_of_beq ho]
          exact beq_false_of_ne he
        simp [hf]
      | false => rfl

/-- What a device has whatever its parameters are. -/
def Device.head (d : Device) : String × Settings × List LanguagePack :=
  (d.ns, d.settings, d.languagePacks)

namespace Resolve

/-- All of a device but its arenas is the same. -/
def SameFrame (d d' : Device) : Prop :=
  d' = { d with nodes := d'.nodes, constraints := d'.constraints, types := d'.types }

theorem SameFrame.refl (d : Device) : SameFrame d d := rfl

theorem SameFrame.trans {d d' d'' : Device} (h : SameFrame d d') (h' : SameFrame d' d'') :
    SameFrame d d'' := by
  unfold SameFrame at *
  cases d; cases d'; cases d''
  simp_all

theorem SameFrame.head_eq {d d' : Device} (h : SameFrame d d') : d'.head = d.head := by
  rw [h]
  rfl

/-- A resolution under way stands on a ground: its arenas are those of the ground, and its registry
and names are those of the finished parameters. -/
structure Stands (s : Progress) (g : Ground) : Prop where
  shared : s.device.sharedConstraints = g.shared
  count : s.device.nodes.size = g.count
  known : ∀ p ∈ g.known, s.device.param? p.id = some p
  closed : ∀ p ∈ g.known, ∀ e ∈ p.children, ∃ q ∈ g.known, q.id = e.2
  types : s.device.types.toList = g.types
  constraints : s.device.constraints.toList = g.constraints
  constrained : ∀ e ∈ s.constrained, e.1.index < g.count
  idents : s.idents = g.idents
  registry : ∀ oid id, s.registry.entries.lookup oid = some id →
    ∃ p ∈ g.known, p.id = id ∧ p.fqoid = oid ∧ p.realm = .params

namespace Stands

variable {s : Progress} {g : Ground}

/-- What happened on the way does not matter. -/
theorem log (h : Stands s g) (log : Array Log.Record) : Stands { s with log } g :=
  ⟨h.shared, h.count, h.known, h.closed, h.types, h.constraints, h.constrained,
    h.idents, h.registry⟩

/-- The rest of the device does not matter either. -/
theorem frame (h : Stands s g) {d : Device}
    (shared : d.sharedConstraints = s.device.sharedConstraints) (nodes : d.nodes = s.device.nodes)
    (types : d.types = s.device.types) (constraints : d.constraints = s.device.constraints) :
    Stands { s with device := d } g where
  shared := shared.trans h.shared
  count := by rw [nodes, h.count]
  known := by
    intro p hp
    rw [Device.param?, nodes]
    exact h.known p hp
  closed := h.closed
  types := by rw [types, h.types]
  constraints := by rw [constraints, h.constraints]
  constrained := h.constrained
  idents := h.idents
  registry := h.registry

/-- Finished parameters are in the arena. -/
theorem index_lt (h : Stands s g) {p : Param} (hp : p ∈ g.known) : p.id.index < g.count := by
  have hf := h.known p hp
  rw [Device.param?] at hf
  rw [← h.count]
  exact (Array.getElem?_eq_some_iff.mp hf).1

/-- The constraint of the next parameter is not settled yet. -/
theorem unsettled (h : Stands s g) : s.constrained.lookup ⟨g.count⟩ = none := by
  rw [List.lookup_eq_none_iff]
  intro e he
  have hlt := h.constrained e he
  rw [bne_iff_ne]
  intro heq
  rw [← heq] at hlt
  exact Nat.lt_irrefl _ hlt

/-- Which constraints are settled does not matter, if they are of parameters that are there. -/
theorem settle (h : Stands s g) {id : ParamId} (hid : id.index < g.count) (k : ConstraintId) :
    Stands (withSettled s id k) g :=
  ⟨h.shared, h.count, h.known, h.closed, h.types, h.constraints, by
    intro e he
    rcases List.mem_cons.mp he with rfl | he
    · exact hid
    · exact h.constrained e he, h.idents, h.registry⟩

theorem enter (h : Stands s g) (p : Param) :
    Stands (withEntered s p) (g.enter p.realm p.fqoid none) where
  shared := h.shared
  count := by simp [withEntered, withIdent, withParam, h.count]
  known := by
    intro q hq
    have hf := h.known q hq
    have hlt := h.index_lt hq
    rw [← h.count] at hlt
    simp only [withEntered, withIdent, withParam, Device.param?] at hf ⊢
    rw [Array.getElem?_push_lt hlt]
    rwa [Array.getElem?_eq_getElem hlt] at hf
  closed := h.closed
  types := h.types
  constraints := by simp [withEntered, withIdent, withParam, h.constraints]
  constrained := fun e he => Nat.lt_succ_of_lt (h.constrained e he)
  idents := by simp [withEntered, withIdent, withParam, Ground.enter, h.idents]
  registry := h.registry

/-- A parameter that was just entered. -/
theorem param?_enter (h : Stands s g) (p : Param) :
    (withEntered s p).device.param? ⟨g.count⟩ = some { p with id := ⟨g.count⟩ } := by
  rw [← h.count]
  exact param?_withParam s p

theorem constrain (h : Stands s g) (c : Constraint) :
    Stands (withConstraint s c) { g with constraints := g.constraints ++ [c] } where
  shared := h.shared
  count := h.count
  known := h.known
  closed := h.closed
  types := h.types
  constraints := by simp [withConstraint, h.constraints]
  constrained := h.constrained
  idents := h.idents
  registry := h.registry

theorem addType (h : Stands s g) (t : TypeDecl) :
    Stands (withType s t) { g with types := g.types ++ [t] } where
  shared := h.shared
  count := h.count
  known := h.known
  closed := h.closed
  types := by simp [withType, h.types]
  constraints := h.constraints
  constrained := h.constrained
  idents := h.idents
  registry := h.registry

/-- A parameter that is not finished may change. -/
theorem change (h : Stands s g) (id : ParamId) (p : Param) (open' : ∀ q ∈ g.known, q.id ≠ id) :
    Stands (withChanged s id p) g where
  shared := h.shared
  count := by simp [withChanged, h.count]
  known := by
    intro q hq
    have hne : id.index ≠ q.id.index := by
      intro he
      apply open' q hq
      cases hi : q.id
      cases id
      simp_all
    have hf := h.known q hq
    simp only [withChanged, Device.param?] at hf ⊢
    rwa [Array.getElem?_setIfInBounds_ne hne]
  closed := h.closed
  types := h.types
  constraints := h.constraints
  constrained := h.constrained
  idents := h.idents
  registry := h.registry

/-- A parameter is finished after those below it. -/
theorem finish {p : Param} {own : Share} {below : Forest}
    (h : Stands s { (g.enter p.realm p.fqoid own.rule).after below with
      types := g.types ++ (below.types ++ own.types) })
    (found : s.device.param? p.id = some p) (children : p.children = below.entries) :
    Stands (withFinished s p.realm p.fqoid p.id) (g.after (.tree p own below)) where
  shared := by cases p.realm <;> exact h.shared
  count := by
    have hc : s.device.nodes.size = g.count + 1 + below.params.length := h.count
    rw [withFinished_device, hc, Ground.after_count, Forest.params_tree, List.length_cons]
    omega
  known := by
    intro q hq
    rw [withFinished_device]
    simp only [Ground.after_known, Forest.params_tree, List.mem_append, List.mem_cons] at hq
    rcases hq with hq | rfl | hq
    · exact h.known q (List.mem_append_left _ hq)
    · exact found
    · exact h.known q (List.mem_append_right _ hq)
  closed := by
    intro q hq e he
    simp only [Ground.after_known, Forest.params_tree, List.mem_append, List.mem_cons] at hq ⊢
    have step : ∀ r ∈ g.known ++ below.params, r ∈ g.known ∨ r = p ∨ r ∈ below.params := by
      intro r hr
      rcases List.mem_append.mp hr with hr | hr
      · exact .inl hr
      · exact .inr (.inr hr)
    rcases hq with hq | rfl | hq
    · obtain ⟨r, hr, hi⟩ := h.closed q (List.mem_append_left _ hq) e he
      exact ⟨r, step r hr, hi⟩
    · rw [children] at he
      obtain ⟨r, hr, rfl⟩ := List.mem_map.mp he
      exact ⟨r, .inr (.inr (Forest.mem_params_of_mem_roots hr)), rfl⟩
    · obtain ⟨r, hr, hi⟩ := h.closed q (List.mem_append_right _ hq) e he
      exact ⟨r, step r hr, hi⟩
  types := by
    rw [withFinished_device, h.types, Ground.after_types, Forest.types_tree]
  constraints := by
    rw [withFinished_device, h.constraints]
    simp
  constrained := by
    intro e he
    have hc : (withFinished s p.realm p.fqoid p.id).constrained = s.constrained := by
      cases p.realm <;> rfl
    rw [hc] at he
    have hlt : e.1.index < g.count + 1 + below.params.length := h.constrained e he
    rw [Ground.after_count, Forest.params_tree, List.length_cons]
    omega
  idents := by
    have hi : (withFinished s p.realm p.fqoid p.id).idents = s.idents := by cases p.realm <;> rfl
    rw [hi, h.idents]
    simp [Ground.after, Ground.enter, Param.ident]
  registry := by
    intro oid id hl
    have old : s.registry.entries.lookup oid = some id →
        ∃ q ∈ (g.after (.tree p own below)).known, q.id = id ∧ q.fqoid = oid ∧
            q.realm = .params := by
      intro hl
      obtain ⟨q, hq, hp⟩ := h.registry oid id hl
      refine ⟨q, ?_, hp⟩
      simp only [Ground.after_known, Forest.params_tree, List.mem_append, List.mem_cons]
      rcases List.mem_append.mp hq with hq | hq
      · exact .inl hq
      · exact .inr (.inr hq)
    cases hr : p.realm with
    | commands =>
      rw [hr] at hl
      exact old hl
    | params =>
      rw [hr] at hl
      change (s.registry.insert p.fqoid p.id).entries.lookup oid = some id at hl
      rw [Registry.lookup_insert] at hl
      split at hl
      · next he =>
        cases hl
        exact ⟨p, by simp, rfl, (eq_of_beq he).symm, hr⟩
      · exact old hl

end Stands

/-- A forest has grown: the parameters are at the end of the arena, and all is on the next
ground. -/
structure Grew (s s' : Progress) (g : Ground) (f : Forest) : Prop where
  stands : Stands s' (g.after f)
  nodes : s'.device.nodes.toList = s.device.nodes.toList ++ f.params
  frame : SameFrame s.device s'.device

theorem Grew.nil {s : Progress} {g : Ground} (h : Stands s g) : Grew s s g .nil :=
  ⟨by rwa [Ground.after_nil], by simp, .refl _⟩

theorem Grew.append {s t s' : Progress} {g : Ground} {f h : Forest} (hf : Grew s t g f)
    (hh : Grew t s' (g.after f) h) : Grew s s' g (f.append h) where
  stands := by
    rw [Ground.after_append]
    exact hh.stands
  nodes := by rw [hh.nodes, hf.nodes, Forest.params_append, List.append_assoc]
  frame := hf.frame.trans hh.frame

/-- A parameter has grown when it is finished and those below it are behind it. -/
theorem Grew.finish {s t : Progress} {g : Ground} {p : Param} {own : Share} {below : Forest}
    (stands : Stands t { (g.enter p.realm p.fqoid own.rule).after below with
      types := g.types ++ (below.types ++ own.types) })
    (nodes : t.device.nodes.toList = s.device.nodes.toList ++ p :: below.params)
    (last : s.device.nodes.size = p.id.index) (children : p.children = below.entries)
    (frame : SameFrame s.device t.device) :
    Grew s (withFinished t p.realm p.fqoid p.id) g (.tree p own below) := by
  have found : t.device.param? p.id = some p := by
    rw [Device.param?, ← Array.getElem?_toList, nodes, List.getElem?_append_right (by simp [last])]
    simp [last]
  refine ⟨stands.finish found children, ?_, ?_⟩
  · rw [withFinished_device, nodes, Forest.params_tree]
  · rw [withFinished_device]
    exact frame

/-- What was in the arena is still there. -/
theorem Grew.param? {s s' : Progress} {g : Ground} {f : Forest} (h : Grew s s' g f) {id : ParamId}
    {p : Param} (hp : s.device.param? id = some p) : s'.device.param? id = some p := by
  rw [Device.param?, ← Array.getElem?_toList] at hp ⊢
  rw [h.nodes, List.getElem?_append_left (List.getElem?_eq_some_iff.mp hp).1]
  exact hp

theorem Grew.located {s s' : Progress} {g : Ground} {f : Forest} (h : Grew s s' g f) {site : Site}
    (hsite : Located s site) : Located s' site :=
  hsite.mono fun _ p hp => ⟨p, h.param? hp, rfl⟩

end Resolve

end DeviceModel
