import DeviceModel.Proofs.Agreement
import DeviceModel.Proofs.Expansion
import Mathlib.Data.List.Forall2

namespace DeviceModel

/-- A constraint that is written out in the declaration of a parameter. -/
structure Inline where
  realm : Realm
  fqoid : String
  constraint : Description.Constraint

mutual

/-- The constraints that are written out in a description, in order. -/
def inlineWithin (realm : Realm) (path oid : String) : Description.Param → List Inline
  | ⟨d, params⟩ =>
    (d.constraint.toList.filter fun c => c.reference.isNone).map
      (fun c => ⟨realm, path ++ "/" ++ oid, c⟩) ++ inlineEach realm (path ++ "/" ++ oid) params

def inlineEach (realm : Realm) (path : String) : List (String × Description.Param) → List Inline
  | [] => []
  | (oid, q) :: rest => inlineWithin realm path oid q ++ inlineEach realm path rest

end

def Description.Device.inline (d : Description.Device) : List Inline :=
  inlineEach .params "" d.params ++ inlineEach .commands "" d.commands

/-- A constraint says what is written out, under the name of the parameter. -/
structure States (e : Inline) (k : Constraint) : Prop where
  oid : k.oid = e.fqoid
  ident : k.ident = Param.identOf e.realm e.fqoid
  rule : Rule.classify e.fqoid e.constraint = .ok k.rule

/-- A shared constraint says what is written out, and has no owner. -/
structure Shares (e : String × Description.Constraint) (k : Constraint) : Prop where
  oid : k.oid = e.1
  ident : k.ident = "_" ++ Text.flatten e.1
  owner : k.owner = none
  rule : Rule.classify e.1 e.2 = .ok k.rule

/-- The constraint is the parameter's own, and has its name. -/
structure OwnRule (p : Param) (id : ConstraintId) (k : Constraint) : Prop where
  owner : k.owner = some p.id
  constraint : p.constraint = some id
  oid : k.oid = p.fqoid
  ident : k.ident = p.ident

/-- The constraint of a parameter is one on its values, and the parameter's own or that of an
earlier one. -/
def Suited (d : Device) (p : Param) : Prop :=
  ∀ c, p.constraint = some c → ∃ k, d.constraint? c = some k ∧
    p.type.element.code = .single k.rule.kind ∧
    ∀ owner, k.owner = some owner → owner = p.id ∨ owner.index < p.id.index

/-- What is constrained has values that are no structs or variants. -/
theorem Suited.undeclared {d : Device} {p : Param} (h : Suited d p) {c : ConstraintId}
    (hc : p.constraint = some c) :
    p.type.code ≠ .empty ∧ p.type.element.declared? = none := by
  obtain ⟨k, _, hkind, _⟩ := h c hc
  constructor
  · intro hempty
    cases htype : p.type with
    | array element =>
      have helement : element.code = .single k.rule.kind := by rwa [htype] at hkind
      rw [htype, ValueType.code, helement] at hempty
      cases hempty
    | _ => simp_all [ValueType.element, ValueType.code]
  · cases helement : p.type.element with
    | struct | variant =>
      rw [helement] at hkind
      cases hrule : k.rule <;> simp [hrule, ValueType.code, Rule.kind] at hkind
    | _ => rfl

/-- Whatever is declared with a constraint has it. -/
def ConstraintsFollowed (source : Source) (d : Device) (folder : Path) (listed : Entries ParamId)
    (described : List (String × Description.Param)) : Prop :=
  ∀ oid q id declaration p c, (oid, q) ∈ described → (oid, id) ∈ listed →
    ComesTo source d folder id q declaration p → declaration.constraint = some c → Constrains d p c

namespace Resolve

open Description (Declaration)

section Inlines

variable {source : Source} {opened : List Path} {room : Nat} {g : Ground} {site : Site}
  {oid : String}

/-- A parameter adds the constraint that is written out in its declaration. -/
theorem Ruled.states {c : Option Description.Constraint} {rule : Option Constraint}
    {id : Option ConstraintId} (h : Ruled g site oid c rule id) :
    List.Forall₂ States
      ((c.toList.filter fun c => c.reference.isNone).map (fun c => ⟨site.realm, site.fqoid oid, c⟩))
        rule.toList := by
  cases h with
  | none => exact .nil
  | shared referred =>
    simp only [Option.toList_some, List.filter_cons, referred]
    exact .nil
  | inline unreferred classified =>
    simp only [Option.toList_some, List.filter_cons, unreferred]
    exact .cons ⟨rfl, rfl, classified⟩ .nil

theorem Settled.states {declaration : Declaration} {binding : Option Binding} {typing : Typing}
    {below : Forest} {own : Share} {p : Param} {params : List (String × Description.Param)}
    (settled : Settled g site oid declaration binding typing below own p)
    (hbelow : List.Forall₂ States (inlineEach site.realm (site.fqoid oid) params)
      below.constraints) :
    List.Forall₂ States (inlineEach site.realm site.path [(oid, ⟨declaration, params⟩)])
      (Forest.tree p own below).constraints := by
  obtain ⟨_, ruled, _⟩ := settled.ruled
  rw [Forest.constraints_tree]
  simp only [inlineEach, inlineWithin, List.append_nil]
  exact List.rel_append ruled.states hbelow

/-- A forest adds the constraints that are written out in what it grew from, and no others. -/
theorem Grown.states {entries entries' : List (String × Description.Param)} {f : Forest}
    (h : Grown source opened g site entries f)
    (he : expandEach (expander source room opened) site.folder site.path entries = .ok entries') :
    List.Forall₂ States (inlineEach site.realm site.path entries') f.constraints := by
  induction h generalizing room entries' with
  | nil =>
    rw [← except_pure_ok.mp he]
    exact .nil
  | cons _ _ first next =>
    simp only [expandEach, except_bind_ok, except_pure_ok] at he
    obtain ⟨q', hq, rest', hrest, rfl⟩ := he
    have hfirst := first (except_bind_ok.mpr ⟨q', hq, rfl⟩)
    rw [Forest.constraints_append]
    simp only [inlineEach, List.append_nil] at hfirst ⊢
    exact List.rel_append hfirst (next hrest)
  | @imported opened g site oid d params i identity q f elsewhere opens grown ih =>
    simp only [expandEach, expandParam, elsewhere, except_bind_ok, except_pure_ok] at he
    obtain ⟨q', hq, _, rfl, rfl⟩ := he
    cases room with
    | zero => cases hq
    | succ room =>
      obtain ⟨document, identity', described, hdocument, hidentity, hdescribed, hq⟩ :=
        expander_ok hq
      -- the import is opened in the same way by both
      obtain ⟨document', hdocument', hidentity', hdescribed'⟩ := opens
      cases hdocument.symm.trans hdocument'
      cases hidentity.symm.trans hidentity'
      cases hdescribed.symm.trans hdescribed'
      exact ih (except_bind_ok.mpr ⟨q', hq, rfl⟩)
  | @templated opened g site oid d templateOid template p type overElements below rule written _ _ _
      _ _ copied _ settled =>
    simp only [expandEach, expandParam, written, except_bind_ok, except_pure_ok] at he
    obtain ⟨_, ⟨_, rfl, rfl⟩, _, rfl, rfl⟩ := he
    refine settled.states ?_
    rw [copied.constraints]
    exact .nil
  | @composite opened g site oid d params p below rule written _ _ _ _ _ _ _ settled ih
  | @plain opened g site oid d params p below rule written _ _ _ _ _ settled ih =>
    simp only [expandEach, expandParam, written, except_bind_ok, except_pure_ok] at he
    obtain ⟨_, ⟨params', hparams, rfl⟩, _, rfl, rfl⟩ := he
    exact settled.states (ih hparams)

end Inlines

section Owners

variable {source : Source} {opened : List Path} {g : Ground} {site : Site} {f : Forest}

/-- All of the constraints, from the given one on, belong to some of the parameters. -/
def AllRuled (start : Nat) (params : List Param) (constraints : List Constraint) : Prop :=
  AllHeld (fun p i k => OwnRule p ⟨i⟩ k) start params constraints

theorem Settled.allRuled {oid : String} {declaration : Declaration} {binding : Option Binding}
    {typing : Typing} {below : Forest} {own : Share} {p : Param}
    (settled : Settled g site oid declaration binding typing below own p)
    (hbelow : AllRuled (g.constraints ++ own.rule.toList).length below.params below.constraints) :
    AllRuled g.constraints.length (Forest.tree p own below).params
      (Forest.tree p own below).constraints := by
  obtain ⟨id, ruled, hconstraint⟩ := settled.ruled
  rw [Forest.params_tree, Forest.constraints_tree]
  rw [List.length_append] at hbelow
  refine AllHeld.append ?_ (hbelow.mono (List.subset_cons_self ..))
  generalize own.rule = rule, declaration.constraint = c at ruled
  cases ruled with
  | none | shared => exact .nil
  | inline _ _ =>
    apply AllHeld.single (List.mem_cons_self ..)
    refine ⟨by rw [settled.id], hconstraint, settled.fqoid.symm, ?_⟩
    rw [Param.ident, settled.realm, settled.fqoid]

/-- Every constraint that is added belongs to one of the parameters that are added. -/
theorem Grown.allRuled {entries : List (String × Description.Param)}
    (h : Grown source opened g site entries f) :
    AllRuled g.constraints.length f.params f.constraints := by
  induction h with
  | nil => exact .nil
  | cons _ _ first next =>
    rw [Ground.after_constraints, List.length_append] at next
    rw [Forest.params_append, Forest.constraints_append]
    exact AllHeld.append (first.mono (List.subset_append_left ..))
      (next.mono (List.subset_append_right ..))
  | imported _ _ _ ih => exact ih
  | templated _ _ _ _ _ _ copied _ settled =>
    refine settled.allRuled ?_
    rw [copied.constraints]
    exact .nil
  | composite _ _ _ _ _ _ _ _ settled ih => exact settled.allRuled ih
  | plain _ _ _ _ _ _ settled ih => exact settled.allRuled ih

end Owners

section Kinds

variable {d : Device} {g : Ground} {f : Forest}

/-- A constraint of the ground belongs to an earlier parameter, or to nobody. -/
theorem Sound.earlier_owner (hg : Sound g) (hd : Holds d g f) {c : ConstraintId}
    (hc : c.index < g.constraints.length) {k : Constraint} (hk : d.constraint? c = some k)
    {owner : ParamId} (ho : k.owner = some owner) :
    owner.index < g.count := by
  obtain ⟨k', hmem, hk'⟩ := hd.constraint?_old hc
  rw [← Option.some.inj (hk.symm.trans hk')] at hmem
  exact hg.owned k hmem owner ho

/-- A settled parameter has a constraint of its own, or one of the ground. -/
theorem Settled.suited {site : Site} {oid : String} {declaration : Declaration}
    {binding : Option Binding} {typing : Typing} {below : Forest} {own : Share} {p : Param}
    (settled : Settled g site oid declaration binding typing below own p)
    (hd : Holds d g (.tree p own below)) (hg : Sound g)
    (hbinding : ∀ c, binding.bind Binding.constraint = some c → c.index < g.constraints.length) :
    Suited d p := by
  intro c hc
  obtain ⟨k, hk, hkind⟩ := settled.constraint? hd hc
  refine ⟨k, hk, hkind, ?_⟩
  intro owner ho
  rw [settled.id]
  have hold : c.index < g.constraints.length → owner = ⟨g.count⟩ ∨ owner.index < g.count := by
    intro hlt
    exact .inr (hg.earlier_owner hd hlt hk ho)
  obtain ⟨id, ruled, hconstraint⟩ := settled.ruled
  rw [hc] at hconstraint
  generalize hrule : own.rule = rule, declaration.constraint = written at ruled
  cases ruled with
  | none => exact hold (hbinding c hconstraint.symm)
  | shared _ _ found =>
    cases hconstraint
    exact hold (hg.shared_lt found)
  | inline _ _ =>
    cases hconstraint
    rw [Option.some.inj (hk.symm.trans (hd.constraint? hrule))] at ho
    exact .inl (Option.some.inj ho).symm

/-- A copy is constrained like its original, which came earlier. -/
theorem Copied.suited {realm : Realm} {parent : ParamId} {path : String} {entries : Entries ParamId}
    (h : Copied realm g parent path entries f) (hd : Holds d g f) (hg : Sound g)
    (hknown : ∀ p ∈ g.known, Suited d p) : ∀ p ∈ f.params, Suited d p := by
  induction h with
  | nil => simp
  | @cons g parent path key entries source p below rest known node fresh inner next ihInner
      ihNext =>
    change Holds d g ((Forest.tree p {} below).append rest) at hd
    have henter : Sound (g.enter realm p.fqoid none) := hg.enter (by simp)
    have hbelow := ihInner (hd.left.inner realm p.fqoid) henter hknown
    have hp : Suited d p := by
      intro c hc
      have hsource : source.constraint = some c := by
        rw [node] at hc
        exact hc
      obtain ⟨k, hk, hkind, _⟩ := hknown source known c hsource
      refine ⟨k, hk, by rw [node]; exact hkind, ?_⟩
      intro owner ho
      have hlt := hg.earlier_owner hd (hg.constrained source known c hsource) hk ho
      rw [node]
      exact .inr hlt
    have hafter : Sound (g.after (.tree p {} below)) :=
      hg.graft known node inner.types (inner.sound henter)
    have htree := Forest.forall_tree {} below hp hbelow
    exact Forest.forall_append _ htree (ihNext hd.right hafter (Ground.forall_after hknown htree))

theorem Grown.suited {source : Source} {opened : List Path} {site : Site}
    {entries : List (String × Description.Param)} (h : Grown source opened g site entries f)
    (hd : Holds d g f) (hg : Sound g) (hknown : ∀ p ∈ g.known, Suited d p) :
    ∀ p ∈ f.params, Suited d p := by
  induction h with
  | nil => simp
  | cons grown _ ihFirst ihNext =>
    have hfirst := ihFirst hd.left hg hknown
    exact Forest.forall_append _ hfirst
      (ihNext hd.right (grown.sound hg) (Ground.forall_after hknown hfirst))
  | imported _ _ _ ih => exact ih hd hg hknown
  | templated _ _ known _ _ _ copied _ settled =>
    obtain ⟨_, ruled, _⟩ := settled.ruled
    refine Forest.forall_tree _ _ (settled.suited hd hg ?_)
      (copied.suited (hd.inner _ _) (hg.enter ruled.owned) hknown)
    intro c hc
    exact hg.constrained _ known c hc
  | composite _ _ _ _ _ _ _ _ settled ih | plain _ _ _ _ _ _ settled ih =>
    obtain ⟨_, ruled, _⟩ := settled.ruled
    refine Forest.forall_tree _ _ (settled.suited hd hg ?_)
      (ih (hd.inner _ _) (hg.enter ruled.owned) hknown)
    intro c hc
    cases hc

theorem Copied.not_command {realm : Realm} {parent : ParamId} {path : String}
    {entries : Entries ParamId} (h : Copied realm g parent path entries f) :
    ∀ p ∈ f.params, p.isCommand = false := by
  induction h with
  | nil => simp
  | @cons g parent path key entries source p below rest _ node _ _ _ ihInner ihNext =>
    have hp : p.isCommand = false := by
      rw [node]
      rfl
    exact Forest.forall_append _ (Forest.forall_tree {} below hp ihInner) ihNext

/-- Commands are declared with no type. -/
theorem Settled.command_declared {site : Site} {oid : String} {declaration : Declaration}
    {binding : Option Binding} {typing : Typing} {below : Forest} {own : Share} {p : Param}
    (settled : Settled g site oid declaration binding typing below own p)
    (hp : p.isCommand = true) :
    p.declared = .empty := by
  have hdeclared := settled.declared
  rw [settled.isCommand] at hp
  simp only [declaredType, hp, if_true] at hdeclared
  split at hdeclared
  · cases hdeclared
  · split at hdeclared
    · cases hdeclared
    · exact (Except.ok.inj hdeclared).symm

theorem Grown.command_declared {source : Source} {opened : List Path} {site : Site}
    {entries : List (String × Description.Param)} (h : Grown source opened g site entries f) :
    ∀ p ∈ f.params, p.isCommand = true → p.declared = .empty := by
  induction h with
  | nil => simp
  | cons _ _ first next => exact Forest.forall_append _ first next
  | imported _ _ _ ih => exact ih
  | templated _ _ _ _ _ _ copied _ settled =>
    refine Forest.forall_tree _ _ settled.command_declared ?_
    intro q hq hcommand
    cases (copied.not_command q hq).symm.trans hcommand
  | composite _ _ _ _ _ _ _ _ settled ih => exact Forest.forall_tree _ _ settled.command_declared ih
  | plain _ _ _ _ _ _ settled ih => exact Forest.forall_tree _ _ settled.command_declared ih

end Kinds

/-- What is declared with a constraint has it, as deep as it is declared. -/
theorem Grown.constrained {source : Source} {opened : List Path} {d : Device} {g : Ground}
    {site : Site} {entries : List (String × Description.Param)} {f : Forest}
    (h : Grown source opened g site entries f) (hd : Holds d g f)
    (hshared : d.sharedConstraints = g.shared) (hg : Patterned d g)
    (distinct : (entries.map Prod.fst).Nodup) :
    ConstraintsFollowed source d site.folder f.entries entries := by
  intro oid q id declaration p c hq hid comes hc
  obtain ⟨_, _, _, _, _, _, _, settled, _, hd', hshared', _⟩ :=
    h.came hd hshared hg distinct hq hid comes
  exact settled.constrains hd' hshared' hc

theorem shareable_shares {oid : String} {c : Description.Constraint} {k : Constraint}
    (h : shareable oid c = .ok k) :
    Shares (oid, c) k := by
  obtain ⟨hident, howner⟩ := shareable_ok h
  unfold shareable at h
  cases hrule : Rule.classify oid c with
  | error e =>
    rw [hrule] at h
    cases h
  | ok rule =>
    rw [hrule] at h
    cases h
    exact ⟨rfl, hident, howner, hrule⟩

namespace Resolved

variable {source : Source} {importRoot : Path} {description : Description.Device} {d : Device}
  {shared : List Constraint} {params commands : Forest}
  (h : Resolved source importRoot description d shared params commands)

include h

theorem shares : List.Forall₂ Shares description.constraints shared := by
  have heq := List.forall₂_eq_eq_eq ▸ h.shareable
  rw [List.forall₂_map_left_iff, List.forall₂_map_right_iff] at heq
  exact heq.imp fun e k hk => shareable_shares hk

theorem shared_length : shared.length = description.constraints.length := h.shares.length_eq.symm

theorem suited {p : Param} (hp : p ∈ d.nodes) : Suited d p := by
  have hparams := h.params_grown.suited h.holds.left (.start h.unowned) (by simp [start])
  have hcommands :=
    h.commands_grown.suited h.holds.right h.sound (Ground.forall_after (by simp [start]) hparams)
  rw [h.mem_nodes] at hp
  exact Forest.forall_append _ hparams hcommands p hp

/-- Every constraint behind the shared ones belongs to a parameter. -/
theorem ruled {c : ConstraintId} {k : Constraint} (hc : shared.length ≤ c.index)
    (hk : d.constraint? c = some k) :
    ∃ p ∈ d.nodes, OwnRule p c k := by
  have hcommands := h.commands_grown.allRuled
  rw [Ground.after_constraints, List.length_append] at hcommands
  have hall : AllRuled shared.length (params.append commands).params
      (params.append commands).constraints := by
    rw [Forest.params_append, Forest.constraints_append]
    exact AllHeld.append (h.params_grown.allRuled.mono (List.subset_append_left ..))
      (hcommands.mono (List.subset_append_right ..))
  rw [Device.constraint?, ← Array.getElem?_toList, h.constraints, ← Forest.constraints_append,
    List.getElem?_append_right hc] at hk
  obtain ⟨p, hp, hown⟩ := hall (c.index - shared.length) k hk
  rw [Nat.add_sub_cancel' hc] at hown
  exact ⟨p, h.mem_nodes.mpr hp, hown⟩

end Resolved

end Resolve

open Resolve
open Description (Declaration)

/-- Whose the constraints of a device are, and whom they are on. -/
structure ConstraintsSound (source : Source) (importRoot : Path) (description : Description.Device)
    (d : Device) :
    Prop where
  /-- The shared ones come first, as they are described. -/
  shared : List.Forall₂ Shares description.constraints
    (d.constraints.toList.take description.constraints.length)
  names : d.sharedConstraints = description.constraints.zipIdx.map fun e => (e.1.1, ⟨e.2⟩)
  /-- After them comes one for each that is written out, whether another says the same or not. -/
  inline : ∃ expanded, expand source importRoot description = .ok expanded ∧
    List.Forall₂ States expanded.inline (d.constraints.toList.drop description.constraints.length)
  owned : ∀ c k, description.constraints.length ≤ c.index → d.constraint? c = some k →
    ∃ p ∈ d.nodes, OwnRule p c k ∧ ∀ q ∈ d.nodes, k.owner = some q.id → q = p
  params : ConstraintsFollowed source d importRoot d.params description.params
  commands : ConstraintsFollowed source d importRoot d.commands description.commands
  suited : ∀ p ∈ d.nodes, Suited d p
  unconstrained : ∀ p ∈ d.nodes, p.isCommand = true ∨ p.type.element.declared?.isSome = true →
    p.constraint = none

theorem resolved_constraintsSound {ns : String} {description : Description.Device}
    {importRoot : Path} {source : Source} {d : Device}
    (h : (resolveDevice ns description importRoot source).result = .ok d) :
    ConstraintsSound source importRoot description d := by
  obtain ⟨shared, params, commands, hr⟩ := resolveDevice_resolved h
  have hlength := hr.shared_length
  constructor
  case shared =>
    rw [hr.constraints, ← hlength, List.take_left]
    exact hr.shares
  case names =>
    have hoids : shared.map Constraint.oid = description.constraints.map Prod.fst := by
      rw [← List.forall₂_eq_eq_eq, List.forall₂_map_left_iff, List.forall₂_map_right_iff]
      exact hr.shares.flip.imp fun k e hk => hk.oid
    have hplaces :=
      congrArg (fun oids => oids.zipIdx.map fun e => (e.1, (⟨e.2⟩ : ConstraintId))) hoids
    simp only [List.zipIdx_map, List.map_map] at hplaces
    rw [hr.shared_eq]
    exact hplaces
  case inline =>
    obtain ⟨params', hparams⟩ := hr.params_grown.expands (Roomy.start source)
    obtain ⟨commands', hcommands⟩ := hr.commands_grown.expands (Roomy.start source)
    refine ⟨_,
      except_bind_ok.mpr ⟨params', hparams, except_bind_ok.mpr ⟨commands', hcommands, rfl⟩⟩, ?_⟩
    rw [hr.constraints, ← hlength, List.drop_left]
    exact List.rel_append (hr.params_grown.states hparams) (hr.commands_grown.states hcommands)
  case owned =>
    intro c k hc hk
    obtain ⟨p, hp, hown⟩ := hr.ruled (by rwa [hlength]) hk
    refine ⟨p, hp, hown, ?_⟩
    intro q hq howner
    have hid : q.id = p.id := Option.some.inj (howner.symm.trans hown.owner)
    have hfound := hr.found q (hr.mem_nodes.mp hq)
    rw [hid, hr.found p (hr.mem_nodes.mp hp)] at hfound
    exact (Option.some.inj hfound).symm
  case params =>
    rw [hr.params_eq]
    exact hr.params_grown.constrained hr.holds.left hr.shared_eq (.start d shared)
      (Entries.keys_nodup hr.distinctParams)
  case commands =>
    rw [hr.commands_eq]
    exact hr.commands_grown.constrained hr.holds.right hr.shared_eq hr.params_patterned
      (Entries.keys_nodup hr.distinctCommands)
  case suited =>
    intro p hp
    exact hr.suited hp
  case unconstrained =>
    intro p hp hbare
    cases hc : p.constraint with
    | none => rfl
    | some c =>
      obtain ⟨hcode, helement⟩ := (hr.suited hp).undeclared hc
      rcases hbare with hcommand | hdeclared
      · have hdeclared := Forest.forall_append _ hr.params_grown.command_declared
          hr.commands_grown.command_declared p (hr.mem_nodes.mp hp) hcommand
        exact absurd ((hr.typed hp).code.trans hdeclared) hcode
      · rw [helement] at hdeclared
        cases hdeclared

/-- From 0 to 100. -/
def percent : Description.Constraint where
  type := some "INT_RANGE"
  reference := none
  intRange := some ⟨0, 100, none, none, none⟩
  floatRange := none
  intChoice := none
  namedChoice := none
  picklist := none

/-- The same constraint three times: shared, and written out for a parameter and for what a command
is given. An array has it from its template. -/
def faders : Description.Device :=
  { Description.Device.small
      [("left", ⟨{ Declaration.ofType "INT32" with constraint := some percent }, []⟩),
        ("right", ⟨{ Declaration.ofType "INT32" with
          constraint := some { percent with type := none, reference := some "level" } }, []⟩),
        ("all", ⟨{ Declaration.ofType "INT32_ARRAY" with template := some "left" }, []⟩)]
      [("fade",
        ⟨.ofType "EMPTY",
        [("to", ⟨{ Declaration.ofType "INT32" with constraint := some percent }, []⟩)]⟩)] with
    constraints := [("level", percent)] }

theorem faders_constraintsSound :
    ∃ d, (resolveDevice "m" faders ⟨"params"⟩ (Documents.source {})).result = .ok d ∧
      d.nodes.toList.map (fun p => (p.fqoid, p.constraint)) =
        [("/left", some ⟨1⟩), ("/right", some ⟨0⟩), ("/all", some ⟨1⟩), ("/fade", none),
          ("/fade/to", some ⟨2⟩)] ∧
      d.constraints.toList.map (fun k => (k.oid, k.owner)) =
        [("level", none), ("/left", some ⟨0⟩), ("/fade/to", some ⟨4⟩)] ∧
      ConstraintsSound (Documents.source {}) ⟨"params"⟩ faders d := by
  have hok :
      ((resolveDevice "m" faders ⟨"params"⟩ (Documents.source {})).result.toOption.map fun d =>
      (d.nodes.toList.map (fun p => (p.fqoid, p.constraint)), d.constraints.toList.map fun k =>
        (k.oid, k.owner))) = some
        ([("/left", some ⟨1⟩), ("/right", some ⟨0⟩), ("/all", some ⟨1⟩), ("/fade", none),
          ("/fade/to", some ⟨2⟩)],
          [("level", none), ("/left", some ⟨0⟩), ("/fade/to", some ⟨4⟩)]) := by
    decide +kernel
  obtain ⟨d, hd, heq⟩ := ok_of_toOption hok
  obtain ⟨hnodes, hconstraints⟩ := Prod.mk.inj heq
  exact ⟨d, hd, hnodes, hconstraints, resolved_constraintsSound hd⟩

end DeviceModel
