import DeviceModel.Proofs.Oids
import DeviceModel.Proofs.Reading
import DeviceModel.Schema.Device

namespace DeviceModel

namespace Schema

/-- The value meets the named schema of device documents, all the way down. -/
def Conforms (name : String) (v : Json) : Prop :=
  ∃ depth, v.depth < depth ∧ violationsOfNamed deviceDefinitions depth name v = []

section Demands

variable {named : String → Json → List Violation} {v : Json}

theorem depth_lt_of_lookup {members : List (String × Json)} {key : String} {v : Json}
    (h : members.lookup key = some v) : v.depth < (Json.object members).depth := by
  have hmember : v.depth ≤ Json.depthMembers members := by
    induction members with
    | nil => cases h
    | cons m rest ih =>
      obtain ⟨k, w⟩ := m
      rw [Document.lookup_cons_eq] at h
      rw [Json.depthMembers]
      split at h
      · cases h
        exact Nat.le_max_left ..
      · exact Nat.le_trans (ih h) (Nat.le_max_right ..)
  rw [Json.depth]
  omega

theorem object_of_type (h : violationsWith named (type .object) v = []) :
    ∃ members, v = .object members := by
  cases v with
  | object members => exact ⟨members, rfl⟩
  | _ => simp [type, violationsWith, JsonType.admits] at h

theorem violationsOfMember_eq (known : List (String × Schema)) (key : String) (v : Json) :
    violationsOfMember named known key v = (known.lookup key).map fun s =>
      violationsWith named s v := by
  induction known with
  | nil => simp [violationsOfMember]
  | cons entry rest ih =>
    obtain ⟨name, s⟩ := entry
    rw [violationsOfMember, Document.lookup_cons_eq, ih]
    by_cases hname : name = key
    · simp [hname]
    · simp [hname, Ne.symm hname]

/-- A known member of a record meets the schema that is known for it. -/
theorem record_member {known : List (String × Schema)}
    (h : violationsWith named (record known) v = []) :
    ∃ members, v = .object members ∧ ∀ key w s, members.lookup key = some w →
      known.lookup key = some s →
      violationsWith named s w = [] := by
  simp only [record, violationsWith, violationsOfAll, List.append_eq_nil_iff] at h
  obtain ⟨hobject, ⟨hclosed, _⟩, _⟩ := h
  obtain ⟨members, rfl⟩ := object_of_type hobject
  refine ⟨members, rfl, ?_⟩
  intro key w s hw hs
  obtain ⟨before, after, hsplit, _⟩ := List.lookup_eq_some_iff.mp hw
  have hmember := List.flatMap_eq_nil_iff.mp hclosed (key, w) (by simp [membersOf, hsplit])
  simpa only [violationsOfMember_eq, hs, Option.map_some, Option.getD_some] using hmember

/-- Where parameters are listed, keys are identifiers and values are parameters. -/
theorem conforms_params (h : Conforms "params" v) :
    ∃ members, v = .object members ∧ ∀ key w, members.lookup key = some w →
      Text.isIdentifier key = true ∧ Conforms "param" w := by
  obtain ⟨depth, hdepth, h⟩ := h
  cases depth with
  | zero => omega
  | succ depth =>
    have hfound : deviceDefinitions.lookup "params" =
        some (.all [type .object, .propertyNames .identifier, .members [] (.reference "param")]) :=
          rfl
    simp only [violationsOfNamed, hfound, violationsWith, violationsOfAll,
      List.append_eq_nil_iff] at h
    obtain ⟨hobject, hnames, hmembers, _⟩ := h
    obtain ⟨members, rfl⟩ := object_of_type hobject
    refine ⟨members, rfl, ?_⟩
    intro key w hw
    obtain ⟨before, after, hsplit, _⟩ := List.lookup_eq_some_iff.mp hw
    have hmem : (key, w) ∈ membersOf (.object members) := by simp [membersOf, hsplit]
    have hname := List.flatMap_eq_nil_iff.mp hnames (key, w) hmem
    have hmember := List.flatMap_eq_nil_iff.mp hmembers (key, w) hmem
    refine ⟨?_, depth, ?_, ?_⟩
    · simpa [violationsWith] using hname
    · have hlt := depth_lt_of_lookup hw
      omega
    · simpa [violationsOfMember] using hmember

theorem conforms_param (h : Conforms "param" v) :
    ∃ members, v = .object members ∧ ∀ w, members.lookup "params" = some w →
      Conforms "params" w := by
  obtain ⟨depth, hdepth, h⟩ := h
  cases depth with
  | zero => omega
  | succ depth =>
    have hfound : deviceDefinitions.lookup "param" = some param := rfl
    simp only [violationsOfNamed, hfound, param] at h
    obtain ⟨members, rfl, hmember⟩ := record_member h
    refine ⟨members, rfl, ?_⟩
    intro w hw
    have hlt := depth_lt_of_lookup hw
    exact ⟨depth, by omega, hmember "params" w _ hw rfl⟩

/-- What a device lists as parameters and as commands are parameters. -/
theorem device_lists (h : violations deviceDefinitions device v = []) :
    ∃ members, v = .object members ∧ ∀ key ∈ ["params", "commands"], ∀ w,
      members.lookup key = some w →
      Conforms "params" w := by
  obtain ⟨members, rfl, hmember⟩ := record_member h
  refine ⟨members, rfl, ?_⟩
  intro key hkey w hw
  have hlt := depth_lt_of_lookup hw
  refine ⟨(Json.object members).depth + 2, by omega, ?_⟩
  simp only [List.mem_cons, List.not_mem_nil, or_false] at hkey
  rcases hkey with rfl | rfl
  · exact hmember "params" w _ hw rfl
  · exact hmember "commands" w _ hw rfl

end Demands

end Schema

namespace Description

/-- The keys below a parameter are identifiers, and so on within, as long as none is repeated. -/
inductive WellNamed : Param → Prop where
  | intro {q : Param} (keys : ∀ e ∈ q.params, Text.isIdentifier e.1 = true)
      (below : (q.params.map Prod.fst).Nodup → ∀ e ∈ q.params, WellNamed e.2) : WellNamed q

open Document Document.Decode

/-- What is read here meets a schema for device documents. -/
def Checked (name : String) (p : Spot) : Prop := ∃ v, Reads p.tree p.node v ∧ Schema.Conforms name v

/-- Parameters that are read from a list that was checked have identifiers for oids. -/
theorem entries_wellNamed {value : Decoder Param}
    (hvalue : ∀ p q, Checked "param" p → Gives (value p) q → WellNamed q) {slot : Option Spot}
    {es : Entries Param} (hslot : ∀ p, slot = some p → Checked "params" p)
    (h : Gives (withDefault [] (entries value) slot) es) :
    (∀ e ∈ es, Text.isIdentifier e.1 = true) ∧
      ((es.map Prod.fst).Nodup → ∀ e ∈ es, WellNamed e.2) := by
  cases slot with
  | none =>
    rw [gives_pure h]
    simp
  | some p =>
    obtain ⟨v, hreads, hconforms⟩ := hslot p rfl
    obtain ⟨members, rfl, hmembers⟩ := Schema.conforms_params hconforms
    constructor
    · intro e he
      obtain ⟨w, hw⟩ := Option.isSome_iff_exists.mp (entries_reads h hreads he).1
      exact (hmembers e.1 w hw).1
    · intro hdistinct e he
      obtain ⟨q, w, hq, hw, hreads'⟩ := (entries_reads h hreads he).2 hdistinct
      exact hvalue q e.2 ⟨w, hreads', (hmembers e.1 w hw).2⟩ hq

theorem paramWithin_wellNamed (depth : Nat) :
    ∀ p q, Checked "param" p → Gives (Decode.paramWithin depth p) q → WellNamed q := by
  induction depth with
  | zero =>
    intro p q _ h
    exact absurd h not_gives_failure
  | succ depth ih =>
    intro p q hchecked h
    obtain ⟨v, hreads, hconforms⟩ := hchecked
    obtain ⟨members, rfl, hmembers⟩ := Schema.conforms_param hconforms
    obtain ⟨slots, hslots, h⟩ := gives_bind h
    split at h
    · next type name oidAliases widget accessScope readOnly template constraint given
          params source =>
      -- Only what is read under `params` matters here; it is read last.
      iterate 10 obtain ⟨_, _, h⟩ := gives_bind h
      obtain ⟨listed, hlisted, h⟩ := gives_bind h
      have hslot : ∀ q, params = some q → Checked "params" q := by
        rintro q rfl
        obtain ⟨_, w, hw, hreads'⟩ := fields_reads (by decide) hslots hreads (i := 9) rfl rfl
        exact ⟨w, hreads', hmembers w hw⟩
      obtain ⟨hkeys, hbelow⟩ := entries_wellNamed ih hslot hlisted
      rw [gives_pure h]
      exact .intro hkeys hbelow
    · exact absurd h not_gives_failure

/-- The parameters and commands of a device that the schema accepts have identifiers for oids. -/
theorem device_wellNamed {p : Spot} {v : Json} {d : Device} (hreads : Reads p.tree p.node v)
    (haccepted : Schema.violations Schema.deviceDefinitions Schema.device v = [])
    (h : Gives (Decode.device p) d) :
    ∀ es ∈ [d.params, d.commands],
      (∀ e ∈ es, Text.isIdentifier e.1 = true) ∧
        ((es.map Prod.fst).Nodup → ∀ e ∈ es, WellNamed e.2) := by
  have hparam : ∀ p q, Checked "param" p → Gives (Decode.param p) q → WellNamed q :=
    fun p => paramWithin_wellNamed (p.levels + 1) p
  obtain ⟨members, rfl, hmembers⟩ := Schema.device_lists haccepted
  obtain ⟨slots, hslots, h⟩ := gives_bind h
  split at h
  · next slot detail accessScopes defaultScope multiSet subscriptions constraints params commands
        menuGroups packs =>
    -- Six settings and the constraints are read before the parameters, and menus and packs after
    -- the commands.
    iterate 7 obtain ⟨_, _, h⟩ := gives_bind h
    obtain ⟨listed, hlisted, h⟩ := gives_bind h
    obtain ⟨ordered, hordered, h⟩ := gives_bind h
    iterate 2 obtain ⟨_, _, h⟩ := gives_bind h
    have hparams : ∀ q, params = some q → Checked "params" q := by
      rintro q rfl
      obtain ⟨_, w, hw, hreads'⟩ := fields_reads (by decide) hslots hreads (i := 7) rfl rfl
      exact ⟨w, hreads', hmembers "params" (by simp) w hw⟩
    have hcommands : ∀ q, commands = some q → Checked "params" q := by
      rintro q rfl
      obtain ⟨_, w, hw, hreads'⟩ := fields_reads (by decide) hslots hreads (i := 8) rfl rfl
      exact ⟨w, hreads', hmembers "commands" (by simp) w hw⟩
    rw [gives_pure h]
    intro es hes
    simp only [List.mem_cons, List.not_mem_nil, or_false] at hes
    rcases hes with rfl | rfl
    · exact entries_wellNamed hparam hparams hlisted
    · exact entries_wellNamed hparam hcommands hordered
  · exact absurd h not_gives_failure

end Description

namespace Resolve

open Description (WellNamed)

/-- The oid is one that an imported document gives, seen from a folder. What an import itself is
called is not. -/
inductive Foreign (source : Source) : Path → List (String × Description.Param) → String → Prop where
  | inside {folder : Path} {entries : List (String × Description.Param)} {key oid : String}
      {q : Description.Param}
      (listed : (key, q) ∈ entries) (own : q.source = none)
      (inner : Foreign source (folder.join key) q.params oid) :
      Foreign source folder entries oid
  | imported {folder path : Path} {entries : List (String × Description.Param)}
      {key fqoid oid : String}
      {q q' : Description.Param} {i : Description.Import}
      (listed : (key, q) ∈ entries) (elsewhere : q.source = some i)
      (named : importPath source folder fqoid key i = .ok path)
      (read : importedParam source fqoid path = .ok q')
      (inner : Occurs source folder [(key, q')] oid) (other : oid ≠ key) :
      Foreign source folder entries oid

/-- The oid comes from a document that a device imports. -/
def ForeignTo (source : Source) (importRoot : Path) (description : Description.Device)
    (oid : String) : Prop :=
  Foreign source importRoot description.params oid ∨
    Foreign source importRoot description.commands oid

section Foreign

variable {source : Source} {folder : Path} {entries others : List (String × Description.Param)}

theorem Foreign.mono {oid : String} (h : Foreign source folder entries oid)
    (hsub : entries ⊆ others) :
    Foreign source folder others oid := by
  cases h with
  | inside listed own inner => exact .inside (hsub listed) own inner
  | imported listed elsewhere named read inner other =>
    exact .imported (hsub listed) elsewhere named read inner other

/-- What grows from well-named parameters has identifiers for oids, but for what is imported. -/
theorem Grown.native {opened : List Path} {g : Ground} {site : Site} {f : Forest}
    (h : Grown source opened g site entries f) (keys : ∀ e ∈ entries, Text.isIdentifier e.1 = true)
    (below : ∀ e ∈ entries, WellNamed e.2) :
    ∀ p ∈ f.params, Text.isIdentifier p.oid = true ∨ Foreign source site.folder entries p.oid ∨
      ∃ q ∈ g.known, q.oid = p.oid := by
  induction h with
  | nil => simp
  | @cons opened g site oid q others f rest first next ihFirst ihNext =>
    have hfirst := ihFirst (fun e he => keys e (by simp_all)) (fun e he => below e (by simp_all))
    have hnext := ihNext (fun e he => keys e (by simp_all)) (fun e he => below e (by simp_all))
    have hwiden : ∀ {p : Param}, p ∈ f.params → Text.isIdentifier p.oid = true ∨
        Foreign source site.folder ((oid, q) :: others) p.oid ∨ ∃ q ∈ g.known, q.oid = p.oid := by
      intro p hp
      exact (hfirst p hp).imp_right (Or.imp_left fun hforeign => hforeign.mono (by simp))
    intro p hp
    rw [Forest.params_append, List.mem_append] at hp
    rcases hp with hp | hp
    · exact hwiden hp
    · rcases hnext p hp with hoid | hforeign | ⟨q, hq, he⟩
      · exact .inl hoid
      · exact .inr (.inl (hforeign.mono (by simp)))
      · rw [Ground.after_known, List.mem_append] at hq
        rcases hq with hq | hq
        · exact .inr (.inr ⟨q, hq, he⟩)
        · rw [← he]
          exact hwiden hq
  | @imported opened g site oid d params i identity q f elsewhere opens grown _ =>
    obtain ⟨path, named, _, read⟩ := opens
    intro p hp
    rcases grown.occurs p hp with hoccurs | hknown
    · by_cases hself : p.oid = oid
      · rw [hself]
        exact .inl (keys _ (List.mem_singleton.mpr rfl))
      · exact .inr
          (.inl (.imported (List.mem_singleton.mpr rfl) elsewhere named read hoccurs hself))
    · exact .inr (.inr hknown)
  | templated here _ _ _ _ _ copied _ settled =>
    intro p hp
    rw [Forest.params_tree, List.mem_cons] at hp
    rcases hp with rfl | hp
    · rw [settled.oid]
      exact .inl (keys _ (List.mem_singleton.mpr rfl))
    · exact .inr (.inr (copied.oid p hp))
  | composite here _ _ distinct _ _ _ _ settled ih | plain here _ _ distinct _ _ settled ih =>
    obtain ⟨hkeys, hbelow⟩ := below _ (List.mem_singleton.mpr rfl)
    intro p hp
    rw [Forest.params_tree, List.mem_cons] at hp
    rcases hp with rfl | hp
    · rw [settled.oid]
      exact .inl (keys _ (List.mem_singleton.mpr rfl))
    · exact (ih hkeys (hbelow (Entries.keys_nodup distinct)) p hp).imp_right
        (Or.imp_left fun hforeign => .inside (List.mem_singleton.mpr rfl) here hforeign)

end Foreign

/-- The oids of a device whose description is well named are identifiers, but for those that are
imported. -/
theorem Resolved.native {source : Source} {importRoot : Path} {description : Description.Device}
    {d : Device} {shared : List Constraint} {params commands : Forest}
    (h : Resolved source importRoot description d shared params commands)
    (hnamed : ∀ es ∈ [description.params, description.commands],
      (∀ e ∈ es, Text.isIdentifier e.1 = true) ∧
      ((es.map Prod.fst).Nodup → ∀ e ∈ es, WellNamed e.2)) :
    ∀ p ∈ d.nodes, Text.isIdentifier p.oid = true ∨
      ForeignTo source importRoot description p.oid := by
  obtain ⟨hkeys, hbelow⟩ := hnamed description.params (by simp)
  obtain ⟨hkeys', hbelow'⟩ := hnamed description.commands (by simp)
  have hparams : ∀ p ∈ params.params, Text.isIdentifier p.oid = true ∨
      ForeignTo source importRoot description p.oid := by
    intro p hp
    rcases h.params_grown.native hkeys (hbelow (Entries.keys_nodup h.distinctParams)) p
      hp with hoid | hforeign | ⟨q, hq, _⟩
    · exact .inl hoid
    · exact .inr (.inl hforeign)
    · simp [start] at hq
  intro p hp
  rw [← Array.mem_toList_iff, h.nodes, List.mem_append] at hp
  rcases hp with hp | hp
  · exact hparams p hp
  · rcases h.commands_grown.native hkeys'
      (hbelow' (Entries.keys_nodup h.distinctCommands)) p hp with
      hoid | hforeign | ⟨q, hq, he⟩
    · exact .inl hoid
    · exact .inr (.inr hforeign)
    · rw [← he]
      exact hparams q (by simpa [start] using hq)

end Resolve

end DeviceModel
