import DeviceModel.Proofs.Growing
import DeviceModel.Source.Documents

namespace DeviceModel

namespace Description

/-- A declaration of a type and nothing else. -/
def Declaration.ofType (code : String) : Declaration where
  type := some code
  name := []
  oidAliases := []
  widget := none
  accessScope := none
  readOnly := false
  template := none
  constraint := none
  value := none
  source := none

/-- A device with only parameters and commands. -/
def Device.small (params commands : Entries Param) : Device where
  settings := ⟨0, .full, [], none, false, false⟩
  constraints := []
  params
  commands
  menuGroups := []
  languagePacks := []

end Description

/-- A menu with the full oids of what it leads to. -/
def Menu.complete (m : Menu) : Menu :=
  { m with params := m.params.map completeOid, commands := m.commands.map completeOid }

namespace MenuGroup

/-- A group with the full oids of what its menus lead to. -/
def complete (g : MenuGroup) : MenuGroup := { g with menus := g.menus.map Menu.complete }

/-- The oids of a group and its menus. -/
def oids (g : MenuGroup) : String × List String := (g.oid, g.menus.map Menu.oid)

theorem complete_oids (g : MenuGroup) : g.complete.oids = g.oids := by
  simp [oids, complete, Menu.complete]

end MenuGroup

namespace Resolve

open Description (Declaration Import)

variable {s s' : Progress} {g : Ground} {source : Source} {opened : List Path}

/-- What resolving imports does, wherever they stand. -/
def ImportsGrow (source : Source) (opened : List Path) (importer : Importer) : Prop :=
  ∀ {s s' : Progress} {g : Ground} {site : Site} {oid : String} {d : Declaration} {i : Import}
    {id : ParamId}
    (params : List (String × Description.Param)), Stands s g → Located s site → d.source = some i →
    (importer site oid i).run s = .ok id s' →
    ∃ f, Grown source opened g site [(oid, ⟨d, params⟩)] f ∧ f.entries = [(oid, id)] ∧ Grew s s' g f

mutual

/-- A parameter grows into a tree, from its own description or from that of its import. -/
theorem resolveParam_grew {importer : Importer} (hi : ImportsGrow source opened importer)
    {s s' : Progress} {g : Ground} {site : Site} {oid : String} {id : ParamId} (hs : Stands s g)
    (hsite : Located s site) :
    ∀ (q : Description.Param), (resolveParam importer site oid q).run s = .ok id s' →
      ∃ f, Grown source opened g site [(oid, q)] f ∧ f.entries = [(oid, id)] ∧ Grew s s' g f
  | ⟨d, params⟩, h => by
    cases hsource : d.source with
    | some i =>
      simp only [resolveParam, hsource] at h
      exact hi params hs hsite hsource h
    | none =>
      simp only [resolveParam, hsource] at h
      refine resolveDeclared_grew ?_ hsource hs h
      intro t t' g' inner ids ht hinner hblock
      simp only [bind_ok, checkDistinct_ok] at hblock
      obtain ⟨_, _, ⟨hd, rfl⟩, hblock⟩ := hblock
      exact ⟨hd, resolveEach_grew hi ht hinner params hblock⟩

/-- Parameters grow into a forest, one after the other. -/
theorem resolveEach_grew {importer : Importer} (hi : ImportsGrow source opened importer)
    {s s' : Progress} {g : Ground} {site : Site} {ids : Entries ParamId} (hs : Stands s g)
    (hsite : Located s site) :
    ∀ (params : List (String × Description.Param)),
      (resolveEach importer site.toSlot params).run s = .ok ids s' →
      ∃ f, Grown source opened g site params f ∧ ids = f.entries ∧ Grew s s' g f
  | [], h => by
    obtain ⟨rfl, rfl⟩ := pure_ok.mp h
    exact ⟨.nil, .nil, rfl, .nil hs⟩
  | (oid, q) :: rest, h => by
    simp only [resolveEach, bind_ok, locate_ok, pure_ok] at h
    obtain ⟨found, _, ⟨hslot, hfound, rfl⟩, id, t, hq, ids, t', hrest, rfl, rfl⟩ := h
    obtain rfl := hsite.unique hfound hslot
    obtain ⟨f, first, hf, grew⟩ := resolveParam_grew hi hs hsite q hq
    obtain ⟨f', next, rfl, grew'⟩ := resolveEach_grew hi grew.stands (grew.located hsite) rest hrest
    exact ⟨f.append f', .cons first next, by rw [Forest.entries_append, hf]; rfl, grew.append grew'⟩

end

/-- Imports grow however many more may be opened: each opens one document and has room for one
less. -/
theorem importer_grows (room : Nat) (opened : List Path) :
    ImportsGrow source opened (importer source room opened) := by
  induction room generalizing opened with
  | zero =>
    intro s s' g site oid d i id params _ _ _ h
    exact (throw_ok.mp h).elim
  | succ room ih =>
    intro s s' g site oid d i id params hs hsite hsource h
    simp only [importer, bind_ok, locate_ok] at h
    obtain ⟨⟨identity, q⟩, t, hopen, found, _, ⟨hslot, hfound, rfl⟩, h⟩ := h
    obtain ⟨path, log, hpath, hidentity, hparam, rfl⟩ := openImport_ok hopen
    obtain rfl := hsite.unique hfound hslot
    obtain ⟨f, grown, hf, grew⟩ :=
      resolveParam_grew (ih (identity :: opened)) (hs.log log) hsite q h
    exact ⟨f, .imported hsource ⟨path, hpath, hidentity, hparam⟩ grown, hf, grew.stands,
      grew.nodes, grew.frame⟩

/-- One realm of a device grows into a forest. -/
theorem forest_grew {root : Path} {realm : Realm} {params : Entries Description.Param}
    {ids : Entries ParamId} (hs : Stands s g)
    (h : (forest source root realm params).run s = .ok ids s') :
    params.duplicate? = none ∧
      ∃ f, Grown source [] g (.root realm root) params f ∧ ids = f.entries ∧ Grew s s' g f := by
  simp only [forest, bind_ok, checkDistinct_ok] at h
  obtain ⟨_, _, ⟨hd, rfl⟩, h⟩ := h
  have hroot : Located s (.root realm root) := rfl
  exact ⟨hd, resolveEach_grew (importer_grows _ []) hs hroot params h⟩

/-- The ground of the shared constraints, before any parameter. -/
def start (shared : List Constraint) : Ground :=
  { shared := shared.zipIdx.map fun (c, i) => (c.oid, ⟨i⟩)
    count := 0
    known := []
    types := []
    constraints := shared
    idents := [] }

/-- What a shared constraint comes to. -/
def shareable (oid : String) (c : Description.Constraint) : Except ResolveError Constraint :=
  (Rule.classify oid c).map fun rule => ⟨oid, "_" ++ Text.flatten oid, none, rule⟩

/-- All of a device but its constraints is the same. -/
def OnlyShares (d d' : Device) : Prop :=
  d' = { d with sharedConstraints := d'.sharedConstraints, constraints := d'.constraints }

theorem OnlyShares.trans {d d' d'' : Device} (h : OnlyShares d d') (h' : OnlyShares d' d'') :
    OnlyShares d d'' := by
  unfold OnlyShares at *
  rw [h', h]

theorem OnlyShares.head_eq {d d' : Device} (h : OnlyShares d d') : d'.head = d.head := by
  rw [h]
  rfl

/-- A shared constraint has no owner and takes the next place. -/
theorem sharedConstraint_stands {oid : String} {c : Description.Constraint}
    {shared : List Constraint} {u : Unit} (hs : Stands s (start shared))
    (h : (sharedConstraint oid c).run s = .ok u s') :
    ∃ k, shareable oid c = .ok k ∧ Stands s' (start (shared ++ [k])) ∧
      OnlyShares s.device s'.device := by
  unfold sharedConstraint at h
  cases hr : c.reference.isSome with
  | true =>
    simp only [hr, if_true, bind_ok] at h
    obtain ⟨_, _, h, _⟩ := h
    exact (throw_ok.mp h).elim
  | false =>
    simp only [hr, Bool.false_eq_true, if_false, bind_ok, lift_ok, note_ok, addConstraint_ok,
      updateDevice_ok] at h
    obtain ⟨rule, _, ⟨hrule, rfl⟩, _, _, rfl, _, _, ⟨rfl, rfl⟩, rfl⟩ := h
    have hsize : s.device.constraints.size = shared.length := by
      rw [← Array.length_toList, hs.constraints]
      rfl
    refine ⟨⟨oid, "_" ++ Text.flatten oid, none, rule⟩, by rw [shareable, hrule]; rfl, ?_, rfl⟩
    have added := (hs.log (s.log.push ⟨.debug, "catena_core::constraint",
      "shared constraint '" ++ oid ++ "' (" ++ rule.code ++ ")"⟩)).constrain
        ⟨oid, "_" ++ Text.flatten oid, none, rule⟩
    refine ⟨?_, added.count, added.known, added.closed, added.types, added.constraints,
      added.constrained, added.idents, added.registry⟩
    simp [withConstraint, start, hs.shared, hsize, List.zipIdx_append]

/-- Shared constraints are the first of the arena, in order. -/
theorem sharedConstraints_stands {u : Unit} :
    ∀ (constraints : Entries Description.Constraint) {s : Progress} (shared : List Constraint),
      Stands s (start shared) →
        (constraints.forM fun (oid, c) => sharedConstraint oid c).run s = .ok u s' →
      ∃ added, constraints.map (fun (oid, c) => shareable oid c) = added.map Except.ok ∧
        Stands s' (start (shared ++ added)) ∧ OnlyShares s.device s'.device
  | [], s, shared, hs, h => by
    obtain ⟨_, rfl⟩ := pure_ok.mp h
    exact ⟨[], rfl, by rwa [List.append_nil], rfl⟩
  | (oid, c) :: rest, s, shared, hs, h => by
    obtain ⟨_, t, hc, h⟩ := bind_ok.mp h
    obtain ⟨k, hk, ht, hd⟩ := sharedConstraint_stands hs hc
    obtain ⟨added, ha, hs', hd'⟩ := sharedConstraints_stands rest (shared ++ [k]) ht h
    rw [List.append_assoc] at hs'
    exact ⟨k :: added, by simp only [List.map_cons, hk, ha], hs', hd.trans hd'⟩

theorem shareable_ok {oid : String} {c : Description.Constraint} {k : Constraint}
    (h : shareable oid c = .ok k) :
    k.ident = "_" ++ Text.flatten oid ∧ k.owner = none := by
  unfold shareable at h
  cases hrule : Rule.classify oid c with
  | error e =>
    rw [hrule] at h
    cases h
  | ok rule =>
    rw [hrule] at h
    cases h
    exact ⟨rfl, rfl⟩

/-- Shared constraints have no owner, and stems of their own. -/
theorem shareable_all {constraints : Entries Description.Constraint} {shared : List Constraint}
    (h : constraints.map (fun (oid, c) => shareable oid c) = shared.map Except.ok) :
    (∀ k ∈ shared, k.owner = none) ∧
      shared.map Constraint.ident = constraints.map fun e => "_" ++ Text.flatten e.1 := by
  induction constraints generalizing shared with
  | nil =>
    rw [List.map_nil, eq_comm, List.map_eq_nil_iff] at h
    subst h
    exact ⟨by simp, rfl⟩
  | cons e rest ih =>
    cases shared with
    | nil => cases h
    | cons k shared =>
      obtain ⟨hk, hrest⟩ := List.cons.inj h
      obtain ⟨hident, howner⟩ := shareable_ok hk
      obtain ⟨howners, hidents⟩ := ih hrest
      refine ⟨?_, by rw [List.map_cons, List.map_cons, hident, hidents]⟩
      intro k' hk'
      rcases List.mem_cons.mp hk' with rfl | hk'
      · exact howner
      · exact howners k' hk'

/-- What a resolved device is made of. -/
structure Resolved (source : Source) (importRoot : Path) (description : Description.Device)
    (d : Device) (shared : List Constraint) (params commands : Forest) : Prop where
  unowned : ∀ c ∈ shared, c.owner = none
  distinctParams : description.params.duplicate? = none
  distinctCommands : description.commands.duplicate? = none
  params_grown : Grown source [] (start shared) (.root .params importRoot) description.params params
  commands_grown :
    Grown source [] ((start shared).after params)
      (.root .commands importRoot) description.commands commands
  shared_eq : d.sharedConstraints = shared.zipIdx.map fun (c, i) => (c.oid, ⟨i⟩)
  params_eq : d.params = params.entries
  commands_eq : d.commands = commands.entries
  nodes : d.nodes.toList = params.params ++ commands.params
  types : d.types.toList = params.types ++ commands.types
  constraints : d.constraints.toList = shared ++ (params.constraints ++ commands.constraints)
  distinctShared : description.constraints.duplicate? = none
  shareable : description.constraints.map (fun (oid, c) => shareable oid c) = shared.map Except.ok
  distinctPacks : (description.languagePacks.map LanguagePack.id).Nodup
  languagePacks : d.languagePacks = description.languagePacks
  distinctGroups : (description.menuGroups.map MenuGroup.oid).Nodup
  distinctMenus : ∀ g ∈ description.menuGroups, (g.menus.map Menu.oid).Nodup
  menuGroups : d.menuGroups.map MenuGroup.oids = description.menuGroups.map MenuGroup.oids

theorem menuTargets_ok {d : Device} {label : String} {realm : Realm} {oids oids' : List String}
    (h : menuTargets d label realm oids = .ok oids') : oids' = oids.map completeOid := by
  unfold menuTargets at h
  induction oids generalizing oids' with
  | nil =>
    rw [List.mapM_nil] at h
    exact (except_pure_ok.mp h).symm
  | cons oid rest ih =>
    simp only [List.mapM_cons, except_bind_ok, except_pure_ok] at h
    obtain ⟨oid', hoid, rest', hrest, rfl⟩ := h
    split at hoid
    · cases hoid
      rw [ih hrest, List.map_cons]
    · cases hoid
    · cases hoid

/-- Only what a menu leads to is changed. -/
theorem menu_ok {d : Device} {group : String} {m m' : Menu} (h : menu d group m = .ok m') :
    m' = m.complete := by
  simp only [menu, except_bind_ok, except_pure_ok] at h
  obtain ⟨params, hparams, commands, hcommands, rfl⟩ := h
  rw [menuTargets_ok hparams, menuTargets_ok hcommands, Menu.complete]

theorem menus_ok {d : Device} {group : String} {menus menus' : List Menu}
    (h : menus.mapM (menu d group) = .ok menus') : menus' = menus.map Menu.complete := by
  induction menus generalizing menus' with
  | nil =>
    rw [List.mapM_nil] at h
    exact (except_pure_ok.mp h).symm
  | cons m rest ih =>
    simp only [List.mapM_cons, except_bind_ok, except_pure_ok] at h
    obtain ⟨m', hm, rest', hrest, rfl⟩ := h
    rw [List.map_cons, menu_ok hm, ih hrest]

/-- Menus are only checked. -/
theorem menuGroups_ok {groups groups' : List MenuGroup}
    (h : (menuGroups groups).run s = .ok groups' s') :
    s = s' ∧ (groups.map MenuGroup.oid).Nodup ∧ (∀ g ∈ groups, (g.menus.map Menu.oid).Nodup) ∧
      groups' = groups.map MenuGroup.complete := by
  simp only [menuGroups, bind_ok, checkDistinct_ok] at h
  obtain ⟨_, _, ⟨hdistinct, rfl⟩, h⟩ := h
  have hgroups := Entries.keys_nodup hdistinct
  rw [List.map_map] at hgroups
  clear hdistinct
  suffices hmenus : s = s' ∧ (∀ g ∈ groups, (g.menus.map Menu.oid).Nodup) ∧
      groups' = groups.map MenuGroup.complete from
    ⟨hmenus.1, hgroups, hmenus.2⟩
  clear hgroups
  induction groups generalizing s groups' with
  | nil =>
    obtain ⟨rfl, rfl⟩ := pure_ok.mp h
    exact ⟨rfl, by simp, rfl⟩
  | cons g rest ih =>
    simp only [List.mapM_cons, menuGroup, bind_ok, checkDistinct_ok, device_ok, lift_ok,
      pure_ok] at h
    obtain ⟨_, _, hgroup, _, _, hrest, rfl, rfl⟩ := h
    obtain ⟨_, _, ⟨hdistinct, rfl⟩, _, _, ⟨rfl, rfl⟩, menus, _, ⟨hmenus, rfl⟩, rfl, rfl⟩ := hgroup
    obtain ⟨rfl, hnodup, rfl⟩ := ih hrest
    refine ⟨rfl, ?_, ?_⟩
    · intro g' hg'
      rcases List.mem_cons.mp hg' with rfl | hg'
      · have hmenus := Entries.keys_nodup hdistinct
        rwa [List.map_map] at hmenus
      · exact hnodup g' hg'
    · rw [List.map_cons, menus_ok hmenus]
      rfl

/-- Nothing stands on the empty ground. -/
theorem stands_start {d : Device} (shared : d.sharedConstraints = []) (nodes : d.nodes = #[])
    (types : d.types = #[]) (constraints : d.constraints = #[]) :
    Stands { device := d } (start []) where
  shared := shared
  count := by rw [nodes]; rfl
  known := by simp [start]
  closed := by simp [start]
  types := by rw [types]; rfl
  constraints := by rw [constraints]; rfl
  constrained := by simp
  idents := rfl
  registry := by simp

/-- Before its parameters, a device has its language packs and shared constraints. -/
theorem opening_stands {ns : String} {description : Description.Device} {u : Unit}
    (h : (opening description).run
      { device := { ns, settings := description.settings } } = .ok u s) :
    (description.languagePacks.map LanguagePack.id).Nodup ∧
      description.constraints.duplicate? = none ∧
      ∃ shared, description.constraints.map (fun (oid, c) => shareable oid c) =
        shared.map Except.ok ∧
        Stands s (start shared) ∧
        OnlyShares
          { ns, settings := description.settings, languagePacks := description.languagePacks }
          s.device := by
  simp only [opening, languagePacks, sharedConstraints, bind_ok, lift_ok, checkDistinct_ok,
    updateDevice_ok] at h
  obtain ⟨_, _, ⟨-, rfl⟩, _, _, ⟨_, _, ⟨hdistinctPacks, rfl⟩, rfl⟩, _, _, ⟨hdistinctShared, rfl⟩,
    hshared⟩ := h
  obtain ⟨shared, hshareable, hs, hd⟩ :=
    sharedConstraints_stands _ [] (stands_start rfl rfl rfl rfl) hshared
  have hdistinct := Entries.keys_nodup hdistinctPacks
  rw [List.map_map] at hdistinct
  exact ⟨hdistinct, hdistinctShared, shared, hshareable, hs, hd⟩

/-- What a resolved device has from its description as it is written. -/
structure Framed (ns : String) (description : Description.Device) (d : Device) : Prop where
  head : d.head = (ns, description.settings, description.languagePacks)
  menuGroups : d.menuGroups = description.menuGroups.map MenuGroup.complete

/-- A resolved device is the forests that its description grows into, in their frame. -/
theorem resolveDevice_framed {ns : String} {description : Description.Device} {importRoot : Path}
    {source : Source} {d : Device}
    (h : (resolveDevice ns description importRoot source).result = .ok d) :
    Framed ns description d ∧
      ∃ shared params commands,
        Resolved source importRoot description d shared params commands := by
  obtain ⟨s, hrun, rfl⟩ := resolveDevice_ok.mp h
  obtain ⟨t, ids, v, ids', w, groups, x, hopening, hparams, hcommands, hmenus, rfl⟩ :=
    parts_ok.mp hrun
  obtain ⟨rfl, hdistinctGroups, hdistinctMenus, rfl⟩ := menuGroups_ok hmenus
  obtain ⟨hdistinctPacks, hdistinctShared, shared, hshareable, ht, hframe⟩ :=
    opening_stands hopening
  obtain ⟨hd, params, grown, rfl, grew⟩ := forest_grew ht hparams
  have hv := grew.stands.frame (d := { v.device with params := params.entries }) rfl rfl rfl rfl
  obtain ⟨hd', commands, grown', rfl, grew'⟩ := forest_grew hv hcommands
  have hhead : w.device.head = (ns, description.settings, description.languagePacks) :=
    grew'.frame.head_eq.trans (grew.frame.head_eq.trans hframe.head_eq)
  have hpacks : w.device.languagePacks = description.languagePacks :=
    congrArg (fun head => head.2.2) hhead
  refine ⟨⟨hhead, rfl⟩, shared, params, commands, (shareable_all hshareable).1, hd, hd',
    grown, grown',
    grew'.stands.shared, ?_, rfl, ?_, grew'.stands.types, ?_, hdistinctShared, hshareable,
      hdistinctPacks, hpacks,
    hdistinctGroups, hdistinctMenus, ?_⟩
  · exact congrArg Device.params grew'.frame
  · have hnodes : w.device.nodes.toList = v.device.nodes.toList ++ commands.params := grew'.nodes
    have hempty : t.device.nodes = #[] := congrArg Device.nodes hframe
    simp [withMenus, hnodes, grew.nodes, hempty]
  · have hconstraints := grew'.stands.constraints
    simp only [Ground.after_constraints, List.append_assoc] at hconstraints
    exact hconstraints
  · simp [withMenus, Function.comp_def, MenuGroup.complete_oids]

/-- A resolved device is made of the forests that its description grows into. -/
theorem resolveDevice_resolved {ns : String} {description : Description.Device} {importRoot : Path}
    {source : Source} {d : Device}
    (h : (resolveDevice ns description importRoot source).result = .ok d) :
    ∃ shared params commands, Resolved source importRoot description d shared params commands :=
  (resolveDevice_framed h).2

theorem ok_of_toOption {ε α β : Type} {x : Except ε α} {f : α → β} {b : β}
    (h : x.toOption.map f = some b) :
    ∃ a, x = .ok a ∧ f a = b := by
  cases x with
  | error e => cases h
  | ok a => exact ⟨a, rfl, Option.some.inj h⟩

end Resolve

end DeviceModel
