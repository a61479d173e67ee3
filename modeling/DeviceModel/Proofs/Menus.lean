import DeviceModel.Proofs.BodyOrder
import DeviceModel.Proofs.Closure
import DeviceModel.Proofs.Faults
import DeviceModel.Proofs.Finding

namespace DeviceModel

open Resolve

/-- The oids that a menu leads to, in a realm. -/
def Menu.targets (m : Menu) : Realm → List String
  | .params => m.params
  | .commands => m.commands

theorem Menu.complete_targets (m : Menu) (realm : Realm) :
    m.complete.targets realm = (m.targets realm).map completeOid := by
  cases realm <;> rfl

/-- The same device, with other menus. -/
def Device.withMenus (d : Device) (menuGroups : List MenuGroup) : Device := { d with menuGroups }

namespace Device

variable (d : Device) (groups : List MenuGroup)

theorem withMenus_descend (start : ParamId) (names : List String) :
    (d.withMenus groups).descend start names = d.descend start names := by
  induction names generalizing start with
  | nil => rfl
  | cons name rest ih =>
    simp only [descend, ih]
    rfl

theorem withMenus_descend? (start : ParamId) (names : List String) :
    (d.withMenus groups).descend? start names = d.descend? start names := by
  induction names generalizing start with
  | nil => rfl
  | cons name rest ih =>
    simp only [descend?, ih]
    rfl

/-- Nothing is found through the menus. -/
theorem withMenus_find? (realm : Realm) (oid : String) :
    (d.withMenus groups).find? realm oid = d.find? realm oid := by
  have hroots : (d.withMenus groups).roots realm = d.roots realm := by cases realm <;> rfl
  simp only [find?, hroots, withMenus_descend]

theorem withMenus_locate? (realm : Realm) (oid : String) :
    (d.withMenus groups).locate? realm oid = d.locate? realm oid := by
  have hroots : (d.withMenus groups).roots realm = d.roots realm := by cases realm <;> rfl
  simp only [locate?, hroots, withMenus_descend?]

end Device

/-- Something that a menu leads to, by its full oid. -/
structure MenuEntry where
  menu : String
  realm : Realm
  oid : String
  deriving DecidableEq

namespace MenuEntry

/-- There is something in the device for the entry. -/
def Leads (d : Device) (e : MenuEntry) : Prop := ∃ id, d.find? e.realm e.oid = some id

/-- How a resolution fails for the entry. -/
def missing (e : MenuEntry) : ResolveError := .missingMenuTarget e.menu e.realm e.oid

end MenuEntry

/-- Entries for the oids that a menu has in a realm. -/
def targetEntries (label : String) (realm : Realm) (oids : List String) : List MenuEntry :=
  oids.map fun oid => ⟨label, realm, completeOid oid⟩

/-- The entries of a menu, parameters first. -/
def Menu.entries (group : String) (m : Menu) : List MenuEntry :=
  targetEntries (group ++ "/" ++ m.oid) .params m.params ++
    targetEntries (group ++ "/" ++ m.oid) .commands m.commands

/-- What is checked of the menus. -/
inductive MenuCheck where
  | distinct (scope : String) (oids : List String)
  | leads (e : MenuEntry)

/-- How a check fails, if it does. -/
def MenuCheck.fault? (d : Device) : MenuCheck → Option ResolveError
  | .distinct scope oids => (firstRepeat? [] oids).map (.duplicateOid scope)
  | .leads e => if (d.find? e.realm e.oid).isSome then none else some e.missing

theorem MenuCheck.fault?_withMenus (d : Device) (groups : List MenuGroup) :
    MenuCheck.fault? (d.withMenus groups) = MenuCheck.fault? d := by
  funext check
  cases check with
  | distinct scope oids => rfl
  | leads e => simp only [fault?, Device.withMenus_find?]

namespace MenuGroup

def entries (g : MenuGroup) : List MenuEntry := g.menus.flatMap (Menu.entries g.oid)

def checks (g : MenuGroup) : List MenuCheck :=
  .distinct ("menu group '" ++ g.oid ++ "'") (g.menus.map Menu.oid) :: g.entries.map .leads

end MenuGroup

/-- All entries of the menus, in order. -/
def menuEntries (groups : List MenuGroup) : List MenuEntry := groups.flatMap MenuGroup.entries

theorem mem_menuEntries {groups : List MenuGroup} {g : MenuGroup} {m : Menu} {realm : Realm}
    {oid : String} (hg : g ∈ groups) (hm : m ∈ g.menus) (hoid : oid ∈ m.targets realm) :
    ⟨g.oid ++ "/" ++ m.oid, realm, completeOid oid⟩ ∈ menuEntries groups := by
  rw [menuEntries, List.mem_flatMap]
  refine ⟨g, hg, ?_⟩
  rw [MenuGroup.entries, List.mem_flatMap]
  refine ⟨m, hm, ?_⟩
  cases realm with
  | params => exact List.mem_append_left _ (List.mem_map.mpr ⟨oid, hoid, rfl⟩)
  | commands => exact List.mem_append_right _ (List.mem_map.mpr ⟨oid, hoid, rfl⟩)

/-- All checks of the menus, in order. -/
def menuChecks (groups : List MenuGroup) : List MenuCheck :=
  .distinct "menu_groups" (groups.map MenuGroup.oid) :: groups.flatMap MenuGroup.checks

/-- What comes of checks: the first fault, or what was wanted. -/
def verdict {α : Type} (d : Device) (checks : List MenuCheck) (a : α) : Except ResolveError α :=
  match checks.findSome? (MenuCheck.fault? d) with
  | some e => .error e
  | none => .ok a

section Verdicts

variable {α β : Type} {d : Device}

/-- One verdict after another is that on both lists. -/
theorem verdict_bind (checks checks' : List MenuCheck) (a : α) (f : α → β) :
    (verdict d checks a >>= fun x => verdict d checks' (f x)) =
      verdict d (checks ++ checks') (f a) := by
  unfold verdict
  rw [List.findSome?_append]
  cases checks.findSome? (MenuCheck.fault? d) <;> rfl

theorem verdict_pure (checks : List MenuCheck) (a : α) (f : α → β) :
    (verdict d checks a >>= fun x => pure (f x)) = verdict d checks (f a) := by
  unfold verdict
  cases checks.findSome? (MenuCheck.fault? d) <;> rfl

/-- A walk whose steps are verdicts is a verdict. -/
theorem mapM_verdict {f : α → Except ResolveError β} {checks : α → List MenuCheck} {g : α → β}
    {xs : List α} (h : ∀ x ∈ xs, f x = verdict d (checks x) (g x)) :
    xs.mapM f = verdict d (xs.flatMap checks) (xs.map g) := by
  induction xs with
  | nil => rfl
  | cons x rest ih =>
    rw [List.mapM_cons, h x List.mem_cons_self, ih fun y hy => h y (List.mem_cons_of_mem x hy)]
    simp only [verdict_pure]
    exact verdict_bind _ _ (g x) (· :: rest.map g)

end Verdicts

namespace Resolve

section Checks

variable {d : Device} (located : ∀ realm oid, d.locate? realm oid = some (d.find? realm oid))

include located

/-- Something has to be found for each oid. -/
theorem menuTargets_verdict (label : String) (realm : Realm) (oids : List String) :
    menuTargets d label realm oids =
      verdict d ((targetEntries label realm oids).map .leads) (oids.map completeOid) := by
  have hchecks : (targetEntries label realm oids).map MenuCheck.leads =
      oids.flatMap fun oid => [.leads ⟨label, realm, completeOid oid⟩] := by
    rw [targetEntries, List.map_map, ← List.map_eq_flatMap]
    rfl
  rw [hchecks]
  apply mapM_verdict
  intro oid _
  dsimp only
  rw [located]
  cases hfind : d.find? realm (completeOid oid) <;>
    simp [verdict, MenuCheck.fault?, MenuEntry.missing, hfind]

theorem menu_verdict (group : String) (m : Menu) :
    menu d group m = verdict d ((m.entries group).map .leads) m.complete := by
  rw [Menu.entries, List.map_append]
  simp only [menu, menuTargets_verdict located, verdict_pure]
  exact verdict_bind _ _ (m.params.map completeOid)
    fun params => { m with params, commands := m.commands.map completeOid }

theorem menus_verdict (g : MenuGroup) :
    g.menus.mapM (menu d g.oid) = verdict d (g.entries.map .leads) (g.menus.map Menu.complete) := by
  rw [MenuGroup.entries, List.map_flatMap]
  apply mapM_verdict
  intro m _
  exact menu_verdict located g.oid m

end Checks

section Runs

variable {s : Progress}

/-- Oids are compared without a look at the device. -/
theorem checkDistinct_verdict {α : Type} (d : Device) (scope : String) (key : α → String)
    (xs : List α) :
    checkDistinct scope (xs.map fun x => (key x, x)) =
      lift (verdict d [.distinct scope (xs.map key)] ()) := by
  have hkeys : (xs.map fun x => (key x, x)).map Prod.fst = xs.map key := by
    rw [List.map_map]
    rfl
  unfold checkDistinct verdict
  simp only [Entries.duplicate?, Entries.keys, hkeys, List.findSome?_cons, MenuCheck.fault?]
  cases firstRepeat? [] (xs.map key) <;> rfl

theorem run_lift_bind {α β : Type} (x : Except ResolveError α) {f : α → Resolve β}
    {f' : α → Except ResolveError β} (h : ∀ a, (f a).run s = (lift (f' a)).run s) :
    (lift x >>= f).run s = (lift (x >>= f')).run s := by
  cases x with
  | error e => rfl
  | ok a => exact h a

/-- A walk whose steps change nothing changes nothing. -/
theorem run_mapM_lift {α β : Type} {f : α → Resolve β} {f' : α → Except ResolveError β}
    (xs : List α) (h : ∀ x, (f x).run s = (lift (f' x)).run s) :
    (xs.mapM f).run s = (lift (xs.mapM f')).run s := by
  induction xs with
  | nil => rfl
  | cons x rest ih =>
    rw [List.mapM_cons, List.mapM_cons, run_bind, h x]
    cases f' x with
    | error e => rfl
    | ok y =>
      change (rest.mapM f >>= fun ys => pure (y :: ys)).run s =
        (lift (rest.mapM f' >>= fun ys => pure (y :: ys))).run s
      rw [run_bind, ih]
      cases rest.mapM f' <;> rfl

variable (located : ∀ realm oid, s.device.locate? realm oid = some (s.device.find? realm oid))

include located

theorem menuGroup_verdict (g : MenuGroup) :
    (menuGroup g).run s = (lift (verdict s.device g.checks g.complete)).run s := by
  rw [menuGroup, checkDistinct_verdict s.device]
  have hmenus := verdict_pure (d := s.device) (g.entries.map .leads) (g.menus.map Menu.complete)
    fun menus => { g with menus }
  rw [← menus_verdict located] at hmenus
  have hchecks : verdict s.device g.checks g.complete = _ :=
    (verdict_bind [.distinct ("menu group '" ++ g.oid ++ "'") (g.menus.map Menu.oid)]
      (g.entries.map .leads) () fun _ => g.complete).symm
  rw [hchecks]
  apply run_lift_bind
  intro _
  change (lift (g.menus.mapM (menu s.device g.oid)) >>= fun menus => pure { g with menus }).run s =
    (lift
      (verdict s.device (g.entries.map .leads) { g with menus := g.menus.map Menu.complete })).run s
  rw [← hmenus]
  exact run_lift_bind _ fun _ => rfl

/-- Menus are checked, and their entries completed. -/
theorem menuGroups_verdict (groups : List MenuGroup) :
    (menuGroups groups).run s =
      (lift (verdict s.device (menuChecks groups) (groups.map MenuGroup.complete))).run s := by
  have hchecks : verdict s.device (menuChecks groups) (groups.map MenuGroup.complete) = _ :=
    (verdict_bind [.distinct "menu_groups" (groups.map MenuGroup.oid)]
      (groups.flatMap MenuGroup.checks) () fun _ => groups.map MenuGroup.complete).symm
  rw [menuGroups, checkDistinct_verdict s.device, hchecks]
  apply run_lift_bind
  intro _
  rw [run_mapM_lift groups (menuGroup_verdict located)]
  rw [mapM_verdict fun _ _ => rfl]

end Runs

section Device

variable {source : Source} {importRoot : Path} {ns : String} {description : Description.Device}

/-- All parts of a device but its menus. -/
def groundwork (source : Source) (importRoot : Path) (d : Description.Device) : Resolve Unit := do
  opening d
  let params ← forest source importRoot .params d.params
  updateDevice fun device => { device with params }
  let commands ← forest source importRoot .commands d.commands
  updateDevice fun device => { device with commands }

/-- The menus, and what is said of the device when they are there. -/
def completion (groups : List MenuGroup) : Resolve Unit := do
  let menuGroups ← menuGroups groups
  updateDevice fun device => { device with menuGroups }
  note .info "catena_core::device" (resolved (← device))

/-- The device that a run leaves. -/
def deviceOf (r : Result Unit) : Except ResolveError Device :=
  match r with
  | .ok _ s => .ok s.device
  | .error e _ => .error e

/-- The menus come last. -/
theorem resolveDevice_result (d : Description.Device) :
    (resolveDevice ns d importRoot source).result =
      deviceOf
        (follow
        ((groundwork source importRoot d).run { device := { ns, settings := d.settings } }) fun _ =>
        completion d.menuGroups) := by
  have hparts : parts source importRoot d = groundwork source importRoot d >>=
      fun _ => completion d.menuGroups := by
    simp only [parts, groundwork, completion, opening, bind_assoc]
  rw [← run_bind, ← hparts]
  unfold resolveDevice deviceOf
  cases (parts source importRoot d).run { device := { ns, settings := d.settings } } <;> rfl

theorem deviceOf_completion {s : Progress}
    (located : ∀ realm oid, s.device.locate? realm oid = some (s.device.find? realm oid))
    (groups : List MenuGroup) :
    deviceOf ((completion groups).run s) =
      verdict s.device (menuChecks groups)
        (s.device.withMenus (groups.map MenuGroup.complete)) := by
  rw [completion, run_bind, menuGroups_verdict located]
  unfold verdict
  cases (menuChecks groups).findSome? (MenuCheck.fault? s.device) <;> rfl

/-- A description without its menus. -/
def withoutMenus (d : Description.Device) : Description.Device := { d with menuGroups := [] }

theorem withoutMenus_result (d : Description.Device) :
    (resolveDevice ns (withoutMenus d) importRoot source).result =
      deviceOf
        (follow
        ((groundwork source importRoot d).run { device := { ns, settings := d.settings } }) fun _ =>
        completion []) :=
  resolveDevice_result (withoutMenus d)

/-- Where there is no device without the menus, there is none with them. -/
theorem resolveDevice_error_of_withoutMenus {e : ResolveError}
    (h : (resolveDevice ns (withoutMenus description) importRoot source).result = .error e) :
    (resolveDevice ns description importRoot source).result = .error e := by
  rw [withoutMenus_result] at h
  rw [resolveDevice_result]
  cases hground : (groundwork source importRoot description).run
      { device := { ns, settings := description.settings } } with
  | error e' s =>
    rw [hground] at h
    exact h
  | ok u s =>
    rw [hground] at h
    cases h

/-- Where there is one, what comes of the menus is what comes of their checks in it. -/
theorem resolveDevice_of_withoutMenus {bare : Device}
    (h : (resolveDevice ns (withoutMenus description) importRoot source).result = .ok bare) :
    (resolveDevice ns description importRoot source).result =
      verdict bare (menuChecks description.menuGroups)
        (bare.withMenus (description.menuGroups.map MenuGroup.complete)) := by
  -- No look-up dangles in the device that the checks are made in: it is resolved already.
  obtain ⟨shared, params, commands, hr⟩ := resolveDevice_resolved h
  have located := hr.closed.locate?
  rw [withoutMenus_result] at h
  rw [resolveDevice_result]
  cases hground : (groundwork source importRoot description).run
      { device := { ns, settings := description.settings } } with
  | error e s =>
    rw [hground] at h
    cases h
  | ok u s =>
    rw [hground] at h
    obtain rfl : s.device.withMenus [] = bare := Except.ok.inj h
    simp only [Device.withMenus_locate?, Device.withMenus_find?] at located
    rw [verdict, MenuCheck.fault?_withMenus]
    exact deviceOf_completion located description.menuGroups

end Device

end Resolve

/-- No two groups, and no two menus of a group, have one oid. -/
def DistinctMenus (groups : List MenuGroup) : Prop :=
  (groups.map MenuGroup.oid).Nodup ∧ ∀ g ∈ groups, (g.menus.map Menu.oid).Nodup

section Faults

variable {d : Device} {groups : List MenuGroup}

namespace MenuCheck

theorem fault?_distinct (scope : String) {oids : List String} :
    fault? d (.distinct scope oids) = none ↔ oids.Nodup := by
  rw [fault?, Option.map_eq_none_iff]
  constructor
  · intro h
    exact (nodup_of_firstRepeat? h).1
  · intro h
    exact firstRepeat?_eq_none h (by simp)

theorem fault?_leads_none {e : MenuEntry} : fault? d (.leads e) = none ↔ e.Leads d := by
  cases hfind : d.find? e.realm e.oid <;> simp [fault?, MenuEntry.Leads, hfind]

theorem fault?_leads_some {e : MenuEntry} {err : ResolveError} :
    fault? d (.leads e) = some err ↔ ¬ e.Leads d ∧ e.missing = err := by
  cases hfind : d.find? e.realm e.oid <;> simp [fault?, MenuEntry.Leads, hfind]

end MenuCheck

/-- Where the oids are distinct, only entries are at fault. -/
theorem findSome?_menuChecks (distinct : DistinctMenus groups) :
    (menuChecks groups).findSome? (MenuCheck.fault? d) =
      (menuEntries groups).findSome? fun e => MenuCheck.fault? d (.leads e) := by
  obtain ⟨hgroups, hmenus⟩ := distinct
  rw [menuChecks, List.findSome?_cons, (MenuCheck.fault?_distinct _).mpr hgroups, menuEntries]
  clear hgroups
  induction groups with
  | nil => rfl
  | cons g rest ih =>
    have hrest := ih fun g' hg' => hmenus g' (List.mem_cons_of_mem g hg')
    dsimp only at hrest ⊢
    rw [List.flatMap_cons, List.flatMap_cons, List.findSome?_append, List.findSome?_append, hrest,
      MenuGroup.checks, List.findSome?_cons,
      (MenuCheck.fault?_distinct _).mpr (hmenus g List.mem_cons_self), List.findSome?_map]
    rfl

theorem mem_menuChecks {check : MenuCheck} (h : check ∈ menuChecks groups) :
    (∃ scope oids, check = .distinct scope oids) ∨ ∃ e ∈ menuEntries groups, check = .leads e := by
  rcases List.mem_cons.mp h with rfl | h
  · exact .inl ⟨_, _, rfl⟩
  · obtain ⟨g, hg, h⟩ := List.mem_flatMap.mp h
    rcases List.mem_cons.mp h with rfl | h
    · exact .inl ⟨_, _, rfl⟩
    · obtain ⟨e, he, rfl⟩ := List.mem_map.mp h
      exact .inr ⟨e, List.mem_flatMap.mpr ⟨g, hg, he⟩, rfl⟩

/-- Checks without a fault are those of distinct oids and of entries that lead somewhere. -/
theorem findSome?_menuChecks_none :
    (menuChecks groups).findSome? (MenuCheck.fault? d) = none ↔
      DistinctMenus groups ∧ ∀ e ∈ menuEntries groups, e.Leads d := by
  constructor
  · intro h
    have hall := List.findSome?_eq_none_iff.mp h
    have hgroup : ∀ g ∈ groups, ∀ check ∈ g.checks, check.fault? d =
        none := fun g hg check hcheck =>
      hall check (List.mem_cons_of_mem _ (List.mem_flatMap.mpr ⟨g, hg, hcheck⟩))
    refine ⟨⟨(MenuCheck.fault?_distinct _).mp (hall _ List.mem_cons_self), ?_⟩, ?_⟩
    · intro g hg
      exact (MenuCheck.fault?_distinct _).mp (hgroup g hg _ List.mem_cons_self)
    · intro e he
      obtain ⟨g, hg, he⟩ := List.mem_flatMap.mp he
      exact MenuCheck.fault?_leads_none.mp
        (hgroup g hg _ (List.mem_cons_of_mem _ (List.mem_map.mpr ⟨e, he, rfl⟩)))
  · rintro ⟨distinct, hleads⟩
    rw [findSome?_menuChecks distinct, List.findSome?_eq_none_iff]
    intro e he
    exact MenuCheck.fault?_leads_none.mpr (hleads e he)

end Faults

/-- What comes of the menus of a description, in the device that it describes without them. -/
structure MenusChecked (groups : List MenuGroup) (bare : Device)
    (result : Except ResolveError Device) : Prop where
  accepted : DistinctMenus groups → (∀ e ∈ menuEntries groups, e.Leads bare) →
    result = .ok (bare.withMenus (groups.map MenuGroup.complete))
  /-- The first entry that leads nowhere is reported. -/
  refused : DistinctMenus groups → (∃ e ∈ menuEntries groups, ¬ e.Leads bare) →
    ∃ before e after, menuEntries groups = before ++ e :: after ∧ (∀ e' ∈ before, e'.Leads bare) ∧
      ¬ e.Leads bare ∧ result = .error e.missing
  /-- An oid that is there twice can be reported before it. -/
  repeated : ¬ DistinctMenus groups → (∃ scope oid, result = .error (.duplicateOid scope oid)) ∨
    ∃ e ∈ menuEntries groups, ¬ e.Leads bare ∧ result = .error e.missing

theorem verdict_menusChecked (groups : List MenuGroup) (bare : Device) :
    MenusChecked groups bare
      (verdict bare (menuChecks groups) (bare.withMenus (groups.map MenuGroup.complete))) := by
  unfold verdict
  constructor
  case accepted =>
    intro distinct hleads
    rw [findSome?_menuChecks_none.mpr ⟨distinct, hleads⟩]
  case refused =>
    rintro distinct ⟨lost, hlost, hnot⟩
    rw [findSome?_menuChecks distinct]
    cases hfault : (menuEntries groups).findSome? fun e => MenuCheck.fault? bare (.leads e) with
    | none =>
      have hleads := List.findSome?_eq_none_iff.mp hfault lost hlost
      exact absurd (MenuCheck.fault?_leads_none.mp hleads) hnot
    | some err =>
      obtain ⟨before, e, after, hentries, he, hbefore⟩ := List.findSome?_eq_some_iff.mp hfault
      obtain ⟨hnot, rfl⟩ := MenuCheck.fault?_leads_some.mp he
      exact ⟨before, e, after, hentries,
        fun e' he' => MenuCheck.fault?_leads_none.mp (hbefore e' he'), hnot, rfl⟩
  case repeated =>
    intro hrepeat
    cases hfault : (menuChecks groups).findSome? (MenuCheck.fault? bare) with
    | none => exact absurd (findSome?_menuChecks_none.mp hfault).1 hrepeat
    | some err =>
      obtain ⟨check, hcheck, hfault⟩ := List.exists_of_findSome?_eq_some hfault
      rcases mem_menuChecks hcheck with ⟨scope, oids, rfl⟩ | ⟨e, he, rfl⟩
      · obtain ⟨oid, _, rfl⟩ := Option.map_eq_some_iff.mp hfault
        exact .inl ⟨scope, oid, rfl⟩
      · obtain ⟨hnot, rfl⟩ := MenuCheck.fault?_leads_some.mp hfault
        exact .inr ⟨e, he, hnot, rfl⟩

/-- The text starts with two slashes. -/
def doubled (s : String) : Bool := ['/', '/'].isPrefixOf s.toList

/-- A full oid starts with a slash. -/
theorem completeOid_rooted (oid : String) : ∃ cs, (completeOid oid).toList = '/' :: cs := by
  unfold completeOid
  split
  · next hroot =>
    rw [Path.startsAtRoot, beq_iff_eq, List.head?_eq_some_iff] at hroot
    exact hroot
  · exact ⟨oid.toList, by simp [String.toList_append]⟩

/-- A text that starts with a slash is kept by taking all of them away and putting one there, if it
was one. -/
theorem root_unrooted {s : String} {cs : List Char} (h : s.toList = '/' :: cs) :
    "/" ++ unrooted s = s ↔ doubled s = false := by
  have hlists : "/" ++ unrooted s = s ↔ cs.dropWhile (· = '/') = cs := by
    rw [← String.toList_inj, String.toList_append, unrooted, String.toList_ofList, h]
    simp
  rw [hlists, doubled, h]
  cases cs with
  | nil => simp [List.isPrefixOf]
  | cons c rest =>
    by_cases hc : c = '/'
    · have hshorter := (List.dropWhile_suffix (l := rest) (· = '/')).length_le
      have hne : rest.dropWhile (· = '/') ≠ '/' :: rest := by
        intro he
        rw [he, List.length_cons] at hshorter
        omega
      simp [hc, hne, List.isPrefixOf]
    · simp [hc, Ne.symm hc, List.isPrefixOf]

/-- What an entry of a menu leads to. -/
structure MenuTarget (d : Device) (realm : Realm) (oid : String) (p : Param) : Prop where
  found : d.find? realm oid = some p.id
  there : d.param? p.id = some p
  realm : p.realm = realm
  fqoid : p.fqoid = "/" ++ unrooted oid
  /-- The entry is the oid of what it leads to just if it starts with one slash. -/
  canonical : p.fqoid = oid ↔ doubled oid = false
  defined : ∀ headerName sourceName, ⟨0, Cpp.descriptorText d p⟩ ∈ Cpp.body d headerName sourceName

/-- The menus of a resolved device. -/
structure MenusLead (groups : List MenuGroup) (d : Device) : Prop where
  kept : d.menuGroups = groups.map MenuGroup.complete
  targets : ∀ g ∈ d.menuGroups, ∀ m ∈ g.menus, ∀ realm, ∀ oid ∈ m.targets realm, ∃ p,
    MenuTarget d realm oid p
  written : ∀ g ∈ d.menuGroups, ∀ m ∈ g.menus, ∀ headerName sourceName,
    ⟨0, Cpp.menuText g.oid m⟩ ∈ Cpp.body d headerName sourceName

section Targets

variable {source : Source} {importRoot : Path} {description : Description.Device} {d : Device}
  {shared : List Constraint} {params commands : Forest}

/-- What is found for a full oid is a target for it. -/
theorem Resolve.Resolved.menuTarget
    (h : Resolved source importRoot description d shared params commands) {realm : Realm}
    {oid : String} {id : ParamId} (hfind : d.find? realm (completeOid oid) = some id) :
    ∃ p, MenuTarget d realm (completeOid oid) p := by
  obtain ⟨p, hp, hrealm, hfqoid⟩ := h.fqoid_of_find? hfind
  obtain rfl := h.id_eq hp
  refine ⟨p, hfind, hp, hrealm, hfqoid, ?_, ?_⟩
  · obtain ⟨cs, hcs⟩ := completeOid_rooted oid
    rw [hfqoid, root_unrooted hcs]
  · intro headerName sourceName
    obtain ⟨values, hordered⟩ := Cpp.items_ordered h
    have hmem := hordered.descriptor_mem (Array.getElem?_eq_some_iff.mp hp).1
    refine List.mem_append_right _ (List.mem_map.mpr ⟨_, hmem, ?_⟩)
    simp only [Cpp.Item.text, hp, Option.map_some, Option.getD_some]

end Targets

theorem menu_mem_body {d : Device} {g : MenuGroup} {m : Menu} (hg : g ∈ d.menuGroups)
    (hm : m ∈ g.menus) (headerName sourceName : String) :
    ⟨0, Cpp.menuText g.oid m⟩ ∈ Cpp.body d headerName sourceName := by
  have hitem : .menu g.oid m ∈ Cpp.items d := by
    refine List.mem_append_right _ (List.mem_flatMap.mpr ⟨g, hg, ?_⟩)
    exact List.mem_append_right _ (List.mem_map.mpr ⟨m, hm, rfl⟩)
  exact List.mem_append_right _ (List.mem_map.mpr ⟨_, hitem, rfl⟩)

/-- The entries of a resolved device lead somewhere. -/
theorem menuEntries_lead {ns : String} {description : Description.Device} {importRoot : Path}
    {source : Source} {d : Device}
    (h : (resolveDevice ns description importRoot source).result = .ok d) :
    ∀ e ∈ menuEntries description.menuGroups, e.Leads d := by
  cases hbare : (resolveDevice ns (withoutMenus description) importRoot source).result with
  | error e => cases (resolveDevice_error_of_withoutMenus hbare).symm.trans h
  | ok bare =>
    rw [resolveDevice_of_withoutMenus hbare, verdict] at h
    cases hfault : (menuChecks description.menuGroups).findSome? (MenuCheck.fault? bare) with
    | some err =>
      rw [hfault] at h
      cases h
    | none =>
      rw [hfault] at h
      obtain rfl := Except.ok.inj h
      intro e he
      rw [MenuEntry.Leads, Device.withMenus_find?]
      exact (findSome?_menuChecks_none.mp hfault).2 e he

/-- Menus are resolved after all else. Those of a resolved device are as they are written but for a
slash, and lead to what is there; where one leads nowhere there is no device. -/
theorem resolved_menusLead (ns : String) (description : Description.Device) (importRoot : Path)
    (source : Source) :
    (∀ d, (resolveDevice ns description importRoot source).result = .ok d →
      MenusLead description.menuGroups d) ∧
      (∀ e, (resolveDevice ns (withoutMenus description) importRoot source).result = .error e →
        (resolveDevice ns description importRoot source).result = .error e) ∧
      ∀ bare, (resolveDevice ns (withoutMenus description) importRoot source).result = .ok bare →
        MenusChecked description.menuGroups bare
          (resolveDevice ns description importRoot source).result := by
  refine ⟨?_, fun e => resolveDevice_error_of_withoutMenus, ?_⟩
  · intro d h
    obtain ⟨framed, shared, params, commands, hr⟩ := resolveDevice_framed h
    refine ⟨framed.menuGroups, ?_, fun g hg m hm => menu_mem_body hg hm⟩
    intro g' hg' m' hm' realm oid' hoid'
    rw [framed.menuGroups] at hg'
    obtain ⟨g, hg, rfl⟩ := List.mem_map.mp hg'
    obtain ⟨m, hm, rfl⟩ := List.mem_map.mp hm'
    rw [Menu.complete_targets] at hoid'
    obtain ⟨oid, hoid, rfl⟩ := List.mem_map.mp hoid'
    obtain ⟨id, hfind⟩ := menuEntries_lead h _ (mem_menuEntries hg hm hoid)
    exact hr.menuTarget hfind
  · intro bare h
    rw [resolveDevice_of_withoutMenus h]
    exact verdict_menusChecked description.menuGroups bare

/-- A menu that leads to the given parameters, and to a command. -/
def leadingMenu (params : List String) : Menu := ⟨"main", [], false, false, params, ["reset"], []⟩

/-- A parameter, one with another in it, a command, and one menu. -/
def leadingDevice (params : List String) : Description.Device :=
  { Description.Device.small
      [("gain", ⟨.ofType "INT32", []⟩),
        ("point", ⟨.ofType "STRUCT", [("x", ⟨.ofType "INT32", []⟩)]⟩)]
      [("reset", ⟨.ofType "EMPTY", []⟩)] with
    menuGroups := [⟨"status", [], [leadingMenu params]⟩] }

/-- One menu leads to what is there, once past a second slash; another leads to nothing, in the
second place. -/
theorem leadingDevice_menusLead :
    (∃ d,
      (resolveDevice "m" (leadingDevice ["point/x", "//gain"]) ⟨"params"⟩
      (Documents.source {})).result = .ok d ∧
      d.menuGroups.flatMap (fun g => g.menus.flatMap Menu.params) = ["/point/x", "//gain"] ∧
      MenusLead (leadingDevice ["point/x", "//gain"]).menuGroups d) ∧
    (resolveDevice "m" (leadingDevice ["gain", "point/y"]) ⟨"params"⟩
      (Documents.source {})).result =
      .error (.missingMenuTarget "status/main" .params "/point/y") := by
  constructor
  · have hok : ((resolveDevice "m" (leadingDevice ["point/x", "//gain"]) ⟨"params"⟩
        (Documents.source {})).result.toOption.map fun d =>
          d.menuGroups.flatMap fun g => g.menus.flatMap Menu.params) =
              some ["/point/x", "//gain"] := by
      decide +kernel
    obtain ⟨d, hd, hparams⟩ := ok_of_toOption hok
    exact ⟨d, hd, hparams, (resolved_menusLead _ _ _ _).1 d hd⟩
  · have hok : ((resolveDevice "m" (withoutMenus (leadingDevice ["gain", "point/y"])) ⟨"params"⟩
        (Documents.source {})).result.toOption.map fun d =>
          (d.find? .params "/gain", d.find? .params "/point/y", d.find? .commands "/reset")) =
            some (some ⟨0⟩, none, some ⟨3⟩) := by
      decide +kernel
    obtain ⟨bare, hbare, hfound⟩ := ok_of_toOption hok
    simp only [Prod.mk.injEq] at hfound
    obtain ⟨hgain, hlost, hreset⟩ := hfound
    have hentries : menuEntries (leadingDevice ["gain", "point/y"]).menuGroups =
        [⟨"status/main", .params, "/gain"⟩, ⟨"status/main", .params, "/point/y"⟩,
          ⟨"status/main", .commands, "/reset"⟩] := by
      decide +kernel
    have distinct : DistinctMenus (leadingDevice ["gain", "point/y"]).menuGroups := by
      unfold DistinctMenus
      decide
    have hchecked := (resolved_menusLead _ _ _ _).2.2 bare hbare
    have hnot : ∃ e ∈ menuEntries (leadingDevice ["gain", "point/y"]).menuGroups,
        ¬ e.Leads bare := by
      rw [hentries]
      exact ⟨_, List.mem_cons_of_mem _ List.mem_cons_self, by simp [MenuEntry.Leads, hlost]⟩
    obtain ⟨before, e, after, he, _, hnot, hresult⟩ := hchecked.refused distinct hnot
    have hmem : e ∈ before ++ e :: after := by simp
    rw [← he, hentries, List.mem_cons, List.mem_cons, List.mem_singleton] at hmem
    rcases hmem with rfl | rfl | rfl
    · exact absurd ⟨_, hgain⟩ hnot
    · exact hresult
    · exact absurd ⟨_, hreset⟩ hnot

/-- The entry with two slashes is kept and written, and it is the oid of nothing. -/
theorem leadingDevice_not_canonical :
    ∃ d, (resolveDevice "m" (leadingDevice ["//gain"]) ⟨"params"⟩ (Documents.source {})).result =
      .ok d ∧
      (∀ p ∈ d.nodes, Plain p.oid) ∧
      (d.menuGroups.flatMap fun g => g.menus.flatMap Menu.params) = ["//gain"] ∧ ∀ p ∈ d.nodes,
      p.fqoid ≠ "//gain" := by
  have hok :
      ((resolveDevice "m" (leadingDevice ["//gain"]) ⟨"params"⟩
      (Documents.source {})).result.toOption.map
        fun d => (d.menuGroups.flatMap (fun g => g.menus.flatMap Menu.params),
          d.nodes.toList.map fun p => (p.oid, p.fqoid))) =
        some (["//gain"],
            [("gain", "/gain"), ("point", "/point"), ("x", "/point/x"), ("reset", "/reset")]) := by
    decide +kernel
  obtain ⟨d, hd, hnodes⟩ := ok_of_toOption hok
  obtain ⟨hmenus, hnodes⟩ := Prod.mk.inj hnodes
  have hall :
      ∀ e ∈ [("gain", "/gain"), ("point", "/point"), ("x", "/point/x"), ("reset", "/reset")],
        Plain e.1 ∧ e.2 ≠ "//gain" := by
    unfold Plain
    decide
  have hplain : ∀ p ∈ d.nodes, Plain p.oid ∧ p.fqoid ≠ "//gain" := by
    intro p hp
    apply hall (p.oid, p.fqoid)
    rw [← hnodes]
    exact List.mem_map.mpr ⟨p, Array.mem_toList_iff.mpr hp, rfl⟩
  exact ⟨d, hd, fun p hp => (hplain p hp).1, hmenus, fun p hp => (hplain p hp).2⟩

end DeviceModel
