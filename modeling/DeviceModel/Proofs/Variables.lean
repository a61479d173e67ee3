import DeviceModel.Proofs.BodyOrder
import DeviceModel.Proofs.Lineage
import DeviceModel.Proofs.Oids
import Mathlib.Data.List.Nodup

namespace DeviceModel

namespace Resolve

/-- A constraint that belongs to a parameter has the stem of the parameter. -/
theorem Settled.rule_stem {g : Ground} {site : Site} {oid : String}
    {declaration : Description.Declaration} {binding : Option Binding} {typing : Typing}
    {below : Forest} {own : Share} {p : Param}
    (h : Settled g site oid declaration binding typing below own p) :
    (own.rule.toList.map Constraint.ident).Sublist [p.ident] := by
  obtain ⟨id, ruled, _⟩ := h.ruled
  generalize own.rule = rule, declaration.constraint = declared at ruled
  cases ruled with
  | none | shared => exact List.nil_sublist _
  | inline =>
    rw [Param.ident, h.realm, h.fqoid]
    exact List.Sublist.refl _

theorem Grown.rule_stems {source : Source} {opened : List Path} {g : Ground} {site : Site}
    {entries : List (String × Description.Param)} {f : Forest}
    (h : Grown source opened g site entries f) :
    (f.constraints.map Constraint.ident).Sublist (f.params.map Param.ident) := by
  induction h with
  | nil => exact List.Sublist.refl _
  | cons _ _ first next =>
    rw [Forest.constraints_append, Forest.params_append, List.map_append, List.map_append]
    exact first.append next
  | imported _ _ _ ih => exact ih
  | templated _ _ _ _ _ _ copied _ settled =>
    rw [Forest.constraints_tree, copied.constraints, List.append_nil, Forest.params_tree,
      List.map_cons]
    exact settled.rule_stem.trans ((List.nil_sublist _).cons_cons _)
  | composite _ _ _ _ _ _ _ _ settled ih | plain _ _ _ _ _ _ settled ih =>
    rw [Forest.constraints_tree, Forest.params_tree, List.map_append, List.map_cons]
    exact settled.rule_stem.append ih

end Resolve

end DeviceModel

namespace DeviceModel.Cpp

open Resolve

/-- All variables of the body, in order. -/
def globals (d : Device) : List Variable := (items d).filterMap (Item.global? d)

/-- Two variables that have one name, though they are not the same. -/
inductive Collides : Variable → Variable → Prop where
  /-- The value of a parameter has the name of something that is not a value. -/
  | value {v : Variable} (other : v.ending ≠ "") : Collides (.value v.name) v
  /-- A shared constraint looks like one that belongs to a parameter. -/
  | constraints {stem : String} : Collides (.sharedConstraint (stem ++ "Param"))
      (.ownConstraint stem)
  /-- The oids of menus in different groups run together the same way. -/
  | menus {group oid group' oid' : String} (apart : group ≠ group')
      (same : group ++ "_" ++ oid = group' ++ "_" ++ oid') :
      Collides (.menu group oid) (.menu group' oid')

namespace Variable

variable {v w : Variable}

/-- The end of a text, last character first. -/
def lastTwo (s : String) : List Char := s.toList.reverse.take 2

theorem lastTwo_append {s t : String} (h : 2 ≤ t.toList.length) : lastTwo (s ++ t) = lastTwo t := by
  rw [lastTwo, lastTwo, String.toList_append, List.reverse_append, List.take_append_of_le_length]
  simpa using h

/-- All endings that there are. -/
def endings : List String :=
  ["dm", "LanguagePack", "Constraint", "ParamConstraint", "Descriptor", "Param",
    "MenuGroup", "Menu"]

theorem ending_mem (h : v.ending ≠ "") : v.ending ∈ endings := by
  cases v with
  | value => exact absurd rfl h
  | _ => simp [ending, endings]

/-- The last two characters tell endings apart, but for those of constraints. -/
theorem endings_apart :
    ∀ e ∈ endings, 2 ≤ e.toList.length ∧ ∀ e' ∈ endings, lastTwo e = lastTwo e' →
    e = e' ∨ (e = "Constraint" ∧ e' = "ParamConstraint") ∨
      (e = "ParamConstraint" ∧ e' = "Constraint") := by
  decide

theorem stem_menu (group oid : String) : (menu group oid).stem = "_" ++ (group ++ "_" ++ oid) := by
  simp only [stem, String.append_assoc]

/-- Stems of one ending say which variable it is. Only those of menus can be read in two ways. -/
theorem eq_of_stem_eq (hending : v.ending = w.ending) (hstem : v.stem = w.stem) :
    v = w ∨ Collides v w := by
  have hunderscore : ∀ {s t : String}, "_" ++ s = "_" ++ t →
      s = t := fun h => (String.append_right_inj _).mp h
  cases v <;> cases w <;> simp [ending] at hending
  case device => exact .inl rfl
  case languagePack => exact .inl (congrArg languagePack (hunderscore hstem))
  case sharedConstraint => exact .inl (congrArg sharedConstraint hstem)
  case ownConstraint => exact .inl (congrArg ownConstraint hstem)
  case value => exact .inl (congrArg value hstem)
  case descriptor => exact .inl (congrArg descriptor hstem)
  case param => exact .inl (congrArg param hstem)
  case menuGroup => exact .inl (congrArg menuGroup (hunderscore hstem))
  case menu group oid group' oid' =>
    rw [stem_menu, stem_menu] at hstem
    have hsame := hunderscore hstem
    by_cases hgroup : group = group'
    · subst hgroup
      left
      rw [(String.append_right_inj _).mp hsame]
    · right
      exact .menus hgroup hsame

/-- A shared constraint has the name of another constraint where its stem ends like that one's. -/
theorem collides_of_constraints (hv : v.ending = "Constraint") (hw : w.ending = "ParamConstraint")
    (h : v.name = w.name) : Collides v w := by
  cases v <;> simp [ending] at hv
  cases w <;> simp [ending] at hw
  case sharedConstraint.ownConstraint stem stem' =>
    have hsplit : "ParamConstraint" = "Param" ++ "Constraint" := by decide
    simp only [name, Variable.stem, ending] at h
    rw [hsplit, ← String.append_assoc] at h
    rw [(String.append_left_inj _).mp h]
    exact .constraints

theorem eq_value (h : v.ending = "") : v = value v.name := by
  cases v <;> simp [ending] at h
  case value oid => rw [name_value]

/-- Names are equal only where variables are, or where they collide. -/
theorem eq_of_name_eq (h : v.name = w.name) : v = w ∨ Collides v w ∨ Collides w v := by
  by_cases hv : v.ending = ""
  · by_cases hw : w.ending = ""
    · left
      rw [eq_value hv, eq_value hw, h]
    · right; left
      rw [eq_value hv, h]
      exact .value hw
  · by_cases hw : w.ending = ""
    · right; right
      rw [eq_value hw, ← h]
      exact .value hv
    · obtain ⟨hlong, hapart⟩ := endings_apart v.ending (ending_mem hv)
      have hlong' := (endings_apart w.ending (ending_mem hw)).1
      have hend : lastTwo v.ending = lastTwo w.ending := by
        rw [← lastTwo_append (s := v.stem) hlong, ← lastTwo_append (s := w.stem) hlong']
        exact congrArg lastTwo h
      rcases hapart w.ending (ending_mem hw) hend with hending | ⟨hv, hw⟩ | ⟨hv, hw⟩
      · have hstem : v.stem = w.stem := by
          rw [name, name, hending] at h
          exact (String.append_left_inj _).mp h
        rcases eq_of_stem_eq hending hstem with heq | hcollides
        · exact .inl heq
        · exact .inr (.inl hcollides)
      · exact .inr (.inl (collides_of_constraints hv hw h))
      · exact .inr (.inr (collides_of_constraints hw hv h.symm))

end Variable

namespace Collides

variable {v w : Variable}

theorem name_eq (h : Collides v w) : v.name = w.name := by
  cases h with
  | value => exact Variable.name_value _
  | @constraints stem =>
    have hsplit : "ParamConstraint" = "Param" ++ "Constraint" := by decide
    simp only [Variable.name, Variable.stem, Variable.ending]
    rw [hsplit, String.append_assoc]
  | menus _ same =>
    rw [Variable.name, Variable.name, Variable.stem_menu, Variable.stem_menu, same]
    rfl

theorem ne (h : Collides v w) : v ≠ w := by
  intro heq
  cases h with
  | value other =>
    apply other
    rw [← heq]
    rfl
  | constraints => cases heq
  | menus apart =>
    cases heq
    exact apart rfl

end Collides

/-- Variables have names of their own exactly where none collide. -/
theorem names_nodup_iff {l : List Variable} (h : l.Nodup) :
    (l.map Variable.name).Nodup ↔ ∀ v ∈ l, ∀ w ∈ l, ¬ Collides v w := by
  rw [List.nodup_map_iff_inj_on h]
  constructor
  · intro hinj v hv w hw hcollides
    exact hcollides.ne (hinj v hv w hw hcollides.name_eq)
  · intro hfree v hv w hw hname
    rcases Variable.eq_of_name_eq hname with heq | hcollides | hcollides
    · exact heq
    · exact absurd hcollides (hfree v hv w hw)
    · exact absurd hcollides (hfree w hw v hv)

/-- Where those of one key are without repeats, all are. -/
theorem nodup_of_parts {α β : Type} [DecidableEq β] (key : α → β) {l : List α}
    (h : ∀ a ∈ l, (l.filter fun b => key b = key a).Nodup) : l.Nodup := by
  induction l with
  | nil => exact List.nodup_nil
  | cons a rest ih =>
    have ha := h a (by simp)
    rw [List.filter_cons_of_pos (by simp), List.nodup_cons] at ha
    refine List.nodup_cons.mpr
      ⟨fun hm => ha.1 (List.mem_filter.mpr ⟨hm, by simp⟩), ih fun b hb => ?_⟩
    exact (h b (by simp [hb])).sublist ((List.sublist_cons_self a rest).filter _)

section Parts

variable (d : Device)

/-- The variable of an item, if it has the ending. -/
def ofEnding (ending : String) (i : Item) : Option Variable :=
  (i.global? d).filter (·.ending = ending)

theorem globals_filter (ending : String) :
    (globals d).filter (·.ending = ending) = (items d).filterMap (ofEnding d ending) :=
  List.filter_filterMap

end Parts

section Endings

variable {d : Device} {wanted : String}

/-- What ending the variable of an item has, if it is no constraint. -/
def Item.ending : Item → String
  | .blank => ""
  | .device => "dm"
  | .languagePack _ => "LanguagePack"
  | .constraint _ => "Constraint"
  | .value _ => ""
  | .descriptor _ => "Descriptor"
  | .param _ => "Param"
  | .command _ => "Param"
  | .menuGroup _ => "MenuGroup"
  | .menu _ _ => "Menu"

theorem ending_of_global? {i : Item} {v : Variable} (hi : ∀ id, i ≠ .constraint id)
    (hv : i.global? d = some v) :
    v.ending = i.ending := by
  cases i with
  | blank => cases hv
  | constraint id => exact absurd rfl (hi id)
  | device | languagePack | menuGroup | menu =>
    cases hv
    rfl
  | value | descriptor | param | command =>
    obtain ⟨p, _, rfl⟩ := Option.map_eq_some_iff.mp hv
    rfl

theorem ofEnding_eq {i : Item} (hi : ∀ id, i ≠ .constraint id) :
    ofEnding d wanted i = if i.ending = wanted then i.global? d else none := by
  unfold ofEnding
  cases hv : i.global? d with
  | none => simp
  | some v => simp [Option.filter, ending_of_global? hi hv]

theorem ofEnding_constraint (id : ConstraintId) : ofEnding d wanted (.constraint id) =
    (d.constraint? id).bind fun c =>
      if c.isShared then if "Constraint" = wanted then some (.sharedConstraint c.ident) else none
      else if "ParamConstraint" = wanted then some (.ownConstraint c.ident) else none := by
  simp only [ofEnding, Item.global?]
  cases d.constraint? id with
  | none => rfl
  | some c =>
    cases hc : c.isShared with
    | true =>
      by_cases he : "Constraint" = wanted <;> simp [hc, he, Variable.ending, Option.filter_some]
    | false =>
      by_cases he : "ParamConstraint" =
        wanted <;> simp [hc, he, Variable.ending, Option.filter_some]

/-- The variables with an ending that is not for constraints or descriptors. -/
theorem ofEnding_items (hshared : "Constraint" ≠ wanted) (hown : "ParamConstraint" ≠ wanted)
    (hdescriptor : "Descriptor" ≠ wanted) : (items d).filterMap (ofEnding d wanted) =
      (ofEnding d wanted .device).toList ++
        d.languagePacks.filterMap (fun p => ofEnding d wanted (.languagePack p))
      ++ d.params.flatMap (fun e => (ofEnding d wanted (.value e.2)).toList ++
        (ofEnding d wanted (.param e.2)).toList)
      ++ d.commands.flatMap (fun e => (ofEnding d wanted (.command e.2)).toList)
      ++ d.menuGroups.flatMap (fun g => (ofEnding d wanted (.menuGroup g)).toList
        ++ g.menus.filterMap fun m => ofEnding d wanted (.menu g.oid m)) := by
  apply filterMap_items rfl
  · intro id
    rw [ofEnding_constraint]
    cases d.constraint? id <;> simp [hshared, hown]
  · intro id
    rw [ofEnding_eq (by simp)]
    exact if_neg hdescriptor

theorem flatMap_nothing {α β : Type} (as : List α) : as.flatMap (fun _ => ([] : List β)) = [] := by
  simp

theorem devices_eq : (items d).filterMap (ofEnding d "dm") = [.device] := by
  rw [ofEnding_items (by decide) (by decide) (by decide)]
  simp [ofEnding_eq, Item.ending, Item.global?, flatMap_nothing]

theorem packs_eq : (items d).filterMap (ofEnding d "LanguagePack") =
    (d.languagePacks.map LanguagePack.id).map .languagePack := by
  rw [ofEnding_items (by decide) (by decide) (by decide)]
  simp [ofEnding_eq, Item.ending, Item.global?, flatMap_nothing, Function.comp_def]

theorem menuGroups_eq : (items d).filterMap (ofEnding d "MenuGroup") =
    (d.menuGroups.map MenuGroup.oid).map .menuGroup := by
  rw [ofEnding_items (by decide) (by decide) (by decide)]
  simp [ofEnding_eq, Item.ending, Item.global?, flatMap_nothing, List.map_eq_flatMap,
    List.flatMap_assoc]

theorem menus_eq : (items d).filterMap (ofEnding d "Menu") =
    d.menuGroups.flatMap fun g => (g.menus.map Menu.oid).map (.menu g.oid) := by
  rw [ofEnding_items (by decide) (by decide) (by decide)]
  simp [ofEnding_eq, Item.ending, Item.global?, flatMap_nothing, Function.comp_def]

theorem values_eq : (items d).filterMap (ofEnding d "") =
    d.params.flatMap fun e => ((d.param? e.2).map fun p => Variable.value p.oid).toList := by
  rw [ofEnding_items (by decide) (by decide) (by decide)]
  simp [ofEnding_eq, Item.ending, Item.global?, flatMap_nothing]

theorem params_eq : (items d).filterMap (ofEnding d "Param") =
    (d.params ++ d.commands).flatMap fun e =>
      ((d.param? e.2).map fun p => Variable.param p.ident).toList := by
  rw [ofEnding_items (by decide) (by decide) (by decide)]
  simp [ofEnding_eq, Item.ending, Item.global?, flatMap_nothing]

theorem ofEnding_descriptor (i : Item) : ofEnding d "Descriptor" i =
    i.descriptor?.bind fun id => (d.param? id).bind fun p => some (.descriptor p.ident) := by
  cases i with
  | constraint id =>
    rw [ofEnding_constraint]
    cases d.constraint? id <;> simp [Item.descriptor?]
  | descriptor id =>
    rw [ofEnding_eq (by simp)]
    cases hp : d.param? id <;> simp [Item.ending, Item.descriptor?, Item.global?, hp]
  | _ => simp [ofEnding_eq, Item.ending, Item.descriptor?]

/-- The variable of a shared constraint. -/
def sharedVariable (c : Constraint) : Option Variable :=
  if c.isShared then some (.sharedConstraint c.ident) else none

/-- The variable of a constraint that belongs to a parameter. -/
def ownVariable (c : Constraint) : Option Variable :=
  if c.isShared then none else some (.ownConstraint c.ident)

theorem ofEnding_shared (i : Item) : ofEnding d "Constraint" i =
    i.constraint?.bind fun id => (d.constraint? id).bind sharedVariable := by
  cases i with
  | constraint id =>
    rw [ofEnding_constraint]
    simp only [Item.constraint?, Option.bind_some]
    cases d.constraint? id <;> simp [sharedVariable]
  | _ => simp [ofEnding_eq, Item.ending, Item.constraint?]

theorem ofEnding_own (i : Item) : ofEnding d "ParamConstraint" i =
    i.constraint?.bind fun id => (d.constraint? id).bind ownVariable := by
  cases i with
  | constraint id =>
    rw [ofEnding_constraint]
    simp only [Item.constraint?, Option.bind_some]
    cases d.constraint? id <;> simp [ownVariable]
  | _ => simp [ofEnding_eq, Item.ending, Item.constraint?]

end Endings

/-- What is taken from all of an arena, id by id. -/
theorem filterMap_arena {α β : Type} (arena : Array α) (f : α → Option β) :
    (List.range arena.size).filterMap (fun i => arena[i]?.bind f) = arena.toList.filterMap f := by
  have hsome : (List.range arena.size).map (fun i => arena[i]?) = arena.toList.map some := by
    apply List.ext_getElem <;> simp
  calc (List.range arena.size).filterMap (fun i => arena[i]?.bind f)
      = ((List.range arena.size).map (fun i => arena[i]?)).filterMap (fun a? => a?.bind f) := by
        rw [List.filterMap_map]
        rfl
    _ = arena.toList.filterMap f := by
        rw [hsome, List.filterMap_map]
        rfl

section Whole

variable {source : Source} {importRoot : Path} {description : Description.Device} {d : Device}
  {shared : List Constraint} {params commands : Forest}
  (h : Resolved source importRoot description d shared params commands)

include h

theorem descriptors_eq : (items d).filterMap (ofEnding d "Descriptor") =
    ((params.append commands).params.map Param.ident).map .descriptor := by
  obtain ⟨values, hordered⟩ := items_ordered h
  obtain ⟨n, hn, hids⟩ := hordered.descriptors
  have hsize : d.nodes.size = n := by simpa using hn
  subst hsize
  simp only [ofEnding_descriptor]
  rw [← List.filterMap_filterMap, hids, ← List.range_eq_range', List.filterMap_map]
  refine (filterMap_arena d.nodes fun p => some (Variable.descriptor p.ident)).trans ?_
  rw [h.nodes, Forest.params_append, List.map_map, List.filterMap_eq_map']
  rfl

theorem constraints_eq (f : Constraint → Option Variable) :
    (items d).filterMap (fun i => i.constraint?.bind fun id => (d.constraint? id).bind f) =
      shared.filterMap f ++ (params.constraints ++ commands.constraints).filterMap f := by
  obtain ⟨values, hordered⟩ := items_ordered h
  obtain ⟨n, hn, hids⟩ := hordered.constraints
  have hsize : d.constraints.size = n := by simpa using hn
  subst hsize
  rw [← List.filterMap_filterMap, hids, ← List.range_eq_range', List.filterMap_map]
  refine (filterMap_arena d.constraints f).trans ?_
  rw [h.constraints, List.filterMap_append]

theorem isShared_own {c : Constraint} (hc : c ∈ params.constraints ++ commands.constraints) :
    c.isShared = false := by
  rw [Constraint.isShared, Option.isNone_eq_false_iff, Option.isSome_iff_ne_none]
  rcases List.mem_append.mp hc with hc | hc
  · exact h.params_grown.constraints_owned c hc
  · exact h.commands_grown.constraints_owned c hc

theorem isShared_shared {c : Constraint} (hc : c ∈ shared) : c.isShared = true := by
  rw [Constraint.isShared, h.unowned c hc]
  rfl

theorem shared_eq : (items d).filterMap (ofEnding d "Constraint") =
    (shared.map Constraint.ident).map .sharedConstraint := by
  have hnone : (params.constraints ++ commands.constraints).filterMap sharedVariable = [] := by
    rw [List.filterMap_eq_nil_iff]
    intro c hc
    simp [sharedVariable, isShared_own h hc]
  have hsome : shared.filterMap sharedVariable = shared.map fun c => .sharedConstraint c.ident := by
    rw [← List.filterMap_eq_map']
    apply List.filterMap_congr
    intro c hc
    simp [sharedVariable, isShared_shared h hc]
  simp only [ofEnding_shared]
  rw [constraints_eq h, hnone, hsome, List.append_nil, List.map_map]
  rfl

theorem own_eq : (items d).filterMap (ofEnding d "ParamConstraint") =
    ((params.constraints ++ commands.constraints).map Constraint.ident).map .ownConstraint := by
  have hnone : shared.filterMap ownVariable = [] := by
    rw [List.filterMap_eq_nil_iff]
    intro c hc
    simp [ownVariable, isShared_shared h hc]
  have hsome : (params.constraints ++ commands.constraints).filterMap ownVariable =
      (params.constraints ++ commands.constraints).map fun c => .ownConstraint c.ident := by
    rw [← List.filterMap_eq_map']
    apply List.filterMap_congr
    intro c hc
    simp [ownVariable, isShared_own h hc]
  simp only [ofEnding_own]
  rw [constraints_eq h, hnone, hsome, List.nil_append, List.map_map]
  rfl

theorem shared_nodup (hnamed : ∀ e ∈ description.constraints, Text.isIdentifier e.1 = true) :
    (shared.map Constraint.ident).Nodup := by
  have hstems : shared.map Constraint.ident =
      (description.constraints.map Prod.fst).map ("_" ++ ·) := by
    rw [(shareable_all h.shareable).2, List.map_map]
    apply List.map_congr_left
    intro e he
    rw [Text.flatten_eq (hnamed e he)]
    rfl
  rw [hstems]
  exact (Entries.keys_nodup h.distinctShared).map fun _ _ heq => (String.append_right_inj _).mp heq

theorem own_nodup : ((params.constraints ++ commands.constraints).map Constraint.ident).Nodup := by
  have hstems := h.params_grown.rule_stems.append h.commands_grown.rule_stems
  rw [← List.map_append, ← List.map_append, ← Forest.params_append] at hstems
  exact hstems.nodup h.stems_nodup

theorem groups_nodup : (d.menuGroups.map MenuGroup.oid).Nodup := by
  have hoids : d.menuGroups.map MenuGroup.oid = description.menuGroups.map MenuGroup.oid := by
    have hfst := congrArg (List.map Prod.fst) h.menuGroups
    rw [List.map_map, List.map_map] at hfst
    exact hfst
  rw [hoids]
  exact h.distinctGroups

theorem menus_nodup :
    (d.menuGroups.flatMap fun g => (g.menus.map Menu.oid).map (Variable.menu g.oid)).Nodup := by
  rw [List.nodup_flatMap]
  constructor
  · intro g hg
    have hm : g.oids ∈ description.menuGroups.map MenuGroup.oids := by
      rw [← h.menuGroups]
      exact List.mem_map.mpr ⟨g, hg, rfl⟩
    obtain ⟨g', hg', heq⟩ := List.mem_map.mp hm
    have hmenus := h.distinctMenus g' hg'
    rw [show g'.menus.map Menu.oid = g.menus.map Menu.oid from congrArg Prod.snd heq] at hmenus
    exact hmenus.map fun _ _ hmenu => (Variable.menu.inj hmenu).2
  · have hgroups := groups_nodup h
    rw [List.Nodup, List.pairwise_map] at hgroups
    apply hgroups.imp
    intro g g' hne v hv hv'
    obtain ⟨oid, _, rfl⟩ := List.mem_map.mp hv
    obtain ⟨oid', _, heq⟩ := List.mem_map.mp hv'
    exact hne (Variable.menu.inj heq).1.symm

theorem values_nodup : (params.roots.map Param.oid).Nodup := by
  rw [h.params_grown.keys]
  exact Entries.keys_nodup h.distinctParams

/-- What is made of the outermost parameters. -/
theorem roots_made {f : Forest} (hf : f.roots ⊆ (params.append commands).params)
    (make : Param → Variable) :
    f.entries.flatMap (fun e => ((d.param? e.2).map make).toList) = f.roots.map make := by
  have hmade : ∀ p ∈ f.roots, ((d.param? (p.oid, p.id).2).map make).toList = [make p] := by
    intro p hp
    simp [h.found p (hf hp)]
  rw [Forest.flatMap_entries hmade, List.map_eq_flatMap]

/-- The body defines no variable twice. -/
theorem globals_nodup (hnamed : ∀ e ∈ description.constraints, Text.isIdentifier e.1 = true) :
    (globals d).Nodup := by
  apply nodup_of_parts Variable.ending
  intro v _
  rw [globals_filter]
  cases v with
  | device =>
    rw [Variable.ending, devices_eq]
    exact List.nodup_singleton _
  | languagePack id =>
    rw [Variable.ending, packs_eq, h.languagePacks]
    exact h.distinctPacks.map fun _ _ => Variable.languagePack.inj
  | sharedConstraint stem =>
    rw [Variable.ending, shared_eq h]
    exact (shared_nodup h hnamed).map fun _ _ => Variable.sharedConstraint.inj
  | ownConstraint stem =>
    rw [Variable.ending, own_eq h]
    exact (own_nodup h).map fun _ _ => Variable.ownConstraint.inj
  | value oid =>
    have hroots : params.roots ⊆ (params.append commands).params := by
      intro p hp
      simp [Forest.mem_params_of_mem_roots hp]
    rw [Variable.ending, values_eq, h.params_eq, roots_made h hroots, ← Function.comp_def,
      ← List.map_map]
    exact (values_nodup h).map fun _ _ => Variable.value.inj
  | descriptor stem =>
    rw [Variable.ending, descriptors_eq h]
    exact h.stems_nodup.map fun _ _ => Variable.descriptor.inj
  | param stem =>
    have hstems := ((params.append commands).roots_sublist.map Param.ident).nodup h.stems_nodup
    rw [Variable.ending, params_eq, h.params_eq, h.commands_eq, ← Forest.entries_append,
      roots_made h (Forest.roots_sublist _).subset, ← Function.comp_def, ← List.map_map]
    exact hstems.map fun _ _ => Variable.param.inj
  | menuGroup oid =>
    rw [Variable.ending, menuGroups_eq]
    exact (groups_nodup h).map fun _ _ => Variable.menuGroup.inj
  | menu group oid =>
    rw [Variable.ending, menus_eq]
    exact menus_nodup h

end Whole

/-- Every item defines the variable that is said, and the names of all are different exactly where
no two variables collide. -/
theorem resolved_namesDistinct_iff {ns : String} {description : Description.Device}
    {importRoot : Path} {source : Source} {d : Device}
    (h : (resolveDevice ns description importRoot source).result = .ok d)
    (hnamed : ∀ e ∈ description.constraints, Text.isIdentifier e.1 = true) :
    (∀ i ∈ items d, (i.global? d = none ∧ i.text d = "") ∨
      ∃ v, i.global? d = some v ∧ Defines (i.text d) v.name) ∧
    (((globals d).map Variable.name).Nodup ↔ ∀ v ∈ globals d, ∀ w ∈ globals d, ¬ Collides v w) := by
  obtain ⟨shared, params, commands, hr⟩ := resolveDevice_resolved h
  exact ⟨fun i _ => text_defines d i, names_nodup_iff (globals_nodup hr hnamed)⟩

/-- Variables of every kind. -/
def furnished : Description.Device :=
  { constrainedFields with
    languagePacks := [⟨"en", "English", []⟩]
    menuGroups := [⟨"main", [], [⟨"status", [], false, false, ["gain"], ["reset"], []⟩]⟩] }

theorem furnished_namesDistinct :
    (∀ e ∈ furnished.constraints, Text.isIdentifier e.1 = true) ∧
      ∃ d, (resolveDevice "m" furnished ⟨"params"⟩ (Documents.source {})).result = .ok d ∧
        (globals d).map Variable.name =
          ["dm", "_enLanguagePack", "_levelConstraint",
            "gain", "_gainDescriptor", "_gainParam",
            "point", "_pointDescriptor", "_point_xParamConstraint", "_point_xDescriptor",
            "_pointParam",
            "other", "_otherDescriptor", "_other_xDescriptor", "_otherParam",
            "_cmd_resetDescriptor", "_cmd_reset_toDescriptor", "_cmd_reset_to_xDescriptor",
            "_cmd_resetParam",
            "_mainMenuGroup", "_main_statusMenu"] ∧
        ∀ v ∈ globals d, ∀ w ∈ globals d, ¬ Collides v w := by
  have hnamed : ∀ e ∈ furnished.constraints, Text.isIdentifier e.1 = true := by decide +kernel
  have hok : ((resolveDevice "m" furnished ⟨"params"⟩ (Documents.source {})).result.toOption.map
      fun d => (globals d).map Variable.name) = some
        ["dm", "_enLanguagePack", "_levelConstraint",
          "gain", "_gainDescriptor", "_gainParam",
          "point", "_pointDescriptor", "_point_xParamConstraint", "_point_xDescriptor",
          "_pointParam",
          "other", "_otherDescriptor", "_other_xDescriptor", "_otherParam",
          "_cmd_resetDescriptor", "_cmd_reset_toDescriptor", "_cmd_reset_to_xDescriptor",
          "_cmd_resetParam",
          "_mainMenuGroup", "_main_statusMenu"] := by decide +kernel
  obtain ⟨d, hd, hnames⟩ := ok_of_toOption hok
  refine ⟨hnamed, d, hd, hnames, (resolved_namesDistinct_iff hd hnamed).2.mp ?_⟩
  rw [hnames]
  decide

/-- A parameter whose value has the name of the descriptor of another. -/
def namedLikeDescriptor : Description.Device :=
  .small [("a", ⟨.ofType "INT32", []⟩), ("_aDescriptor", ⟨.ofType "INT32", []⟩)] []

/-- Two variables are named `_aDescriptor`. -/
theorem namedLikeDescriptor_not_namesDistinct :
    (∀ oid, OidOf (Documents.source {}) ⟨"params"⟩ namedLikeDescriptor oid →
      Text.isIdentifier oid = true) ∧
      namedLikeDescriptor.constraints = [] ∧ namedLikeDescriptor.menuGroups = [] ∧
      namedLikeDescriptor.languagePacks = [] ∧
      ∃ d, (resolveDevice "m" namedLikeDescriptor ⟨"params"⟩ (Documents.source {})).result = .ok d ∧
        ¬ ((globals d).map Variable.name).Nodup := by
  refine ⟨fun _ => oidOf_isIdentifier (by decide +kernel), rfl, rfl, rfl, ?_⟩
  have hok :
      ((resolveDevice "m" namedLikeDescriptor ⟨"params"⟩ (Documents.source {})).result.toOption.map
        fun d => (globals d).map Variable.name) = some
          ["dm", "a", "_aDescriptor", "_aParam",
            "_aDescriptor", "__aDescriptorDescriptor", "__aDescriptorParam"] := by decide +kernel
  obtain ⟨d, hd, hnames⟩ := ok_of_toOption hok
  refine ⟨d, hd, ?_⟩
  rw [hnames]
  decide

end DeviceModel.Cpp
