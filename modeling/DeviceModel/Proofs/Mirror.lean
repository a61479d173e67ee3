import DeviceModel.Proofs.Lineage
import DeviceModel.Proofs.Twins
import Mathlib.Data.List.Nodup

namespace DeviceModel

/-- No two parameters have the same address. -/
def Device.Unambiguous (d : Device) : Prop :=
  ∀ p q : Param, d.param? p.id = some p → d.param? q.id = some q → p.address = q.address → p = q

namespace Resolve

open Cpp (Twin ForestTwin declName spelled ownedConstraint ownedConstraint_old)
open Description (Declaration Import)

section Inversion

variable {source : Source} {opened : List Path} {g : Ground} {site : Site}

/-- A list of descriptions grows one after the other. -/
theorem Grown.uncons {entry : String × Description.Param}
    {others : List (String × Description.Param)} {f : Forest}
    (h : Grown source opened g site (entry :: others) f) :
    ∃ first rest, Grown source opened g site [entry] first ∧
      Grown source opened (g.after first) site others rest ∧ f = first.append rest := by
  have single : others = [] → ∃ first rest, Grown source opened g site [entry] first ∧
      Grown source opened (g.after first) site others rest ∧ f = first.append rest := by
    intro he
    subst he
    exact ⟨f, .nil, h, .nil, (Forest.append_nil f).symm⟩
  cases h with
  | cons first next => exact ⟨_, _, first, next, rfl⟩
  | imported | templated | composite | plain => exact single rfl

variable {oid : String} {d : Declaration} {params : List (String × Description.Param)} {f : Forest}

/-- An import grows into what its document describes. -/
theorem Grown.of_imported (h : Grown source opened g site [(oid, ⟨d, params⟩)] f) {i : Import}
    (elsewhere : d.source = some i) :
    ∃ identity q, Opens source opened site oid i identity q ∧
      Grown source (identity :: opened) g site [(oid, q)] f := by
  generalize he : [(oid, (⟨d, params⟩ : Description.Param))] = entries at h
  induction h with
  | nil => cases he
  | cons _ next ih _ =>
    -- a list of one description has nothing after it
    cases he
    rw [next.eq_nil, Forest.append_nil]
    exact ih rfl
  | imported elsewhere' opens grown =>
    cases he
    cases elsewhere.symm.trans elsewhere'
    exact ⟨_, _, opens, grown⟩
  | templated here | composite here | plain here =>
    cases he
    cases elsewhere.symm.trans here

/-- A description with a template grows into a copy. -/
theorem Grown.of_templated (h : Grown source opened g site [(oid, ⟨d, params⟩)] f)
    (here : d.source = none) {templateOid : String} (referred : d.template = some templateOid) :
    ∃ (template p : Param) (type : ValueType) (overElements : Bool) (below : Forest)
      (rule : Option Constraint),
      template ∈ g.known ∧ template.address = (.params, completeOid templateOid) ∧
      ValueType.ofTemplate? p.declared template.type = some (type, overElements) ∧
      Copied site.realm (g.enter site.realm (site.fqoid oid) rule) ⟨g.count⟩
        (site.fqoid oid) template.children below ∧
      Settled g site oid d (some (bindingOf template type overElements))
        (templatedTyping g template type overElements) below
        { rule, container := templatedContainer g site oid type overElements } p ∧
      f = .tree p { rule, container := templatedContainer g site oid type overElements } below := by
  generalize he : [(oid, (⟨d, params⟩ : Description.Param))] = entries at h
  induction h with
  | nil => cases he
  | cons _ next ih _ =>
    cases he
    rw [next.eq_nil, Forest.append_nil]
    exact ih rfl
  | imported elsewhere =>
    cases he
    cases here.symm.trans elsewhere
  | templated _ referred' known found inParams fits copied _ settled =>
    cases he
    cases referred.symm.trans referred'
    exact ⟨_, _, _, _, _, _, known, by rw [Param.address, found, inParams], fits, copied,
      settled, rfl⟩
  | composite _ untemplated | plain _ untemplated =>
    cases he
    cases referred.symm.trans untemplated

/-- A description on its own grows into a parameter over its children, which declares a type or does
not. -/
theorem Grown.of_untemplated (h : Grown source opened g site [(oid, ⟨d, params⟩)] f)
    (here : d.source = none) (untemplated : d.template = none) :
    ∃ (p : Param) (below : Forest) (rule : Option Constraint),
      (p.declared.declaresType = true ∧
        Grown source opened (g.enter site.realm (site.fqoid oid) rule)
          (site.below oid ⟨g.count⟩ (innerName oid p.declared)) params below ∧
        Settled g site oid d none (compositeTyping g p.declared below) below
          (compositeShare g site oid p.declared rule below) p ∧
        f = .tree p (compositeShare g site oid p.declared rule below) below) ∨
      (p.declared.declaresType = false ∧
        Grown source opened (g.enter site.realm (site.fqoid oid) rule)
          (site.below oid ⟨g.count⟩ (holderName oid)) params below ∧
        Settled g site oid d none (plainTyping p.declared) below { rule } p ∧
          f = .tree p { rule } below) := by
  generalize he : [(oid, (⟨d, params⟩ : Description.Param))] = entries at h
  induction h with
  | nil => cases he
  | cons _ next ih _ =>
    cases he
    rw [next.eq_nil, Forest.append_nil]
    exact ih rfl
  | imported elsewhere =>
    cases he
    cases here.symm.trans elsewhere
  | templated _ referred =>
    cases he
    cases untemplated.symm.trans referred
  | composite _ _ declares _ _ _ _ grown settled =>
    cases he
    exact ⟨_, _, _, .inl ⟨declares, grown, settled, rfl⟩⟩
  | plain _ _ undeclared _ _ grown settled =>
    cases he
    exact ⟨_, _, _, .inr ⟨undeclared, grown, settled, rfl⟩⟩

end Inversion

/-- Sites with the same oids around them, in two devices. -/
structure SiteTwin (d d' : Device) (site site' : Site) : Prop where
  path : site'.path = site.path
  realm : site'.realm = site.realm
  scope : site'.scope = site.scope
  folder : site'.folder = site.folder
  isNone : site'.parent.isNone = site.parent.isNone
  parent : (site'.parent.bind d'.param?).map Param.ident =
    (site.parent.bind d.param?).map Param.ident

namespace SiteTwin

variable {d d' : Device} {site site' : Site}

theorem root (realm : Realm) (folder : Path) :
    SiteTwin d d' (.root realm folder) (.root realm folder) :=
  ⟨rfl, rfl, rfl, rfl, rfl, rfl⟩

variable (h : SiteTwin d d' site site')

include h

theorem fqoid (oid : String) : site'.fqoid oid = site.fqoid oid := by
  rw [Site.fqoid, Site.fqoid, h.path]

theorem isCommand : site'.isCommand = site.isCommand := by
  rw [Slot.isCommand, Slot.isCommand, h.realm, h.isNone]

theorem below {id id' : ParamId}
    (hself : (d'.param? id').map Param.ident = (d.param? id).map Param.ident) (oid scope : String) :
    SiteTwin d d' (site.below oid id scope) (site'.below oid id' scope) where
  path := h.fqoid oid
  realm := h.realm
  scope := congrArg (· ++ [scope]) h.scope
  folder := congrArg (·.join oid) h.folder
  isNone := rfl
  parent := hself

theorem declaredType (oid : String) (declaration : Declaration) :
    declaredType site' oid declaration = declaredType site oid declaration := by
  unfold Resolve.declaredType
  simp only [h.isCommand, h.fqoid]

/-- An import opens the same document. -/
theorem opens {source : Source} {opened : List Path} {oid : String} {i : Import}
    {identity identity' : Path} {q q' : Description.Param}
    (ho : Opens source opened site oid i identity q)
    (ho' : Opens source opened site' oid i identity' q') : identity' = identity ∧ q' = q := by
  obtain ⟨path, hpath, hidentity, hparam⟩ := ho
  obtain ⟨path', hpath', hidentity', hparam'⟩ := ho'
  rw [h.folder, h.fqoid] at hpath'
  rw [h.fqoid] at hidentity' hparam'
  cases hpath.symm.trans hpath'
  cases hidentity.symm.trans hidentity'
  cases hparam.symm.trans hparam'
  exact ⟨rfl, rfl⟩

end SiteTwin

/-- Two grounds in two devices: shared constraints are the same on both, and whatever is finished on
the first has a twin wherever its address is found in the second device. -/
structure Abreast (d d' : Device) (g g' : Ground) : Prop where
  sound : Sound g
  sound' : Sound g'
  found : ∀ p ∈ g.known, d.param? p.id = some p
  found' : ∀ p ∈ g'.known, d'.param? p.id = some p
  shared : g'.shared = g.shared
  same : ∀ e ∈ g.shared, d'.constraint? e.2 = d.constraint? e.2
  mirrored : ∀ p ∈ g.known, ∀ p', d'.param? p'.id = some p' → p'.address = p.address →
    Twin d d' p p'

namespace Abreast

variable {d d' : Device} {g g' : Ground}

theorem enter (h : Abreast d d' g g') {realm realm' : Realm} {fqoid fqoid' : String}
    {rule rule' : Option Constraint} (hr : ∀ c ∈ rule, c.owner = some ⟨g.count⟩)
    (hr' : ∀ c ∈ rule', c.owner = some ⟨g'.count⟩) :
    Abreast d d' (g.enter realm fqoid rule) (g'.enter realm' fqoid' rule') where
  sound := h.sound.enter hr
  sound' := h.sound'.enter hr'
  found := h.found
  found' := h.found'
  shared := h.shared
  same := h.same
  mirrored := h.mirrored

/-- Devices with the same shared constraints start abreast. -/
theorem start {shared : List Constraint} (unowned : ∀ c ∈ shared, c.owner = none)
    (hd : shared <+: d.constraints.toList) (hd' : shared <+: d'.constraints.toList) :
    Abreast d d' (start shared) (start shared) where
  sound := .start unowned
  sound' := .start unowned
  found := by simp [Resolve.start]
  found' := by simp [Resolve.start]
  shared := rfl
  same := by
    intro e he
    obtain ⟨⟨c, i⟩, hc, rfl⟩ := List.mem_map.mp he
    have hi : i < shared.length := (List.mem_zipIdx' hc).1
    obtain ⟨rest, hr⟩ := hd
    obtain ⟨rest', hr'⟩ := hd'
    simp only [Device.constraint?, ← Array.getElem?_toList, ← hr, ← hr',
      List.getElem?_append_left hi]
  mirrored := by simp [Resolve.start]

/-- Grounds are abreast after twins. -/
theorem after (h : Abreast d d' g g') (unique : d'.Unambiguous) {f f' : Forest}
    (twins : ForestTwin d d' f f') (sound : Sound (g.after f)) (sound' : Sound (g'.after f'))
    (hd : Holds d g f) (hd' : Holds d' g' f') :
    Abreast d d' (g.after f) (g'.after f') where
  sound := sound
  sound' := sound'
  found := hd.known_after h.found
  found' := hd'.known_after h.found'
  shared := h.shared
  same := h.same
  mirrored := by
    intro p hp p' hp' haddress
    rcases List.mem_append.mp hp with hp | hp
    · exact h.mirrored p hp p' hp' haddress
    · obtain ⟨q', hq', htwin⟩ := twins.mem hp
      have heq : p' = q' :=
        unique p' q' hp' (hd'.found q' hq') (haddress.trans htwin.address_eq.symm)
      rwa [heq]

end Abreast

section Copies

variable {d d' : Device} {g g' : Ground} {realm : Realm} {path : String} {parent parent' : ParamId}

/-- No constraint is defined with parameters whose constraints were there before them. -/
theorem Abreast.unowned (level : Abreast d d' g g') {p p' : Param} {own own' : Share}
    {below below' : Forest} (hd : Holds d g (.tree p own below))
    (hd' : Holds d' g' (.tree p' own' below')) (hid : p.id = ⟨g.count⟩) (hid' : p'.id = ⟨g'.count⟩)
    (old : ∀ c, p.constraint = some c → c.index < g.constraints.length)
    (old' : ∀ c, p'.constraint = some c → c.index < g'.constraints.length) :
    (ownedConstraint d' p').map (Cpp.Item.text d') =
      (ownedConstraint d p).map (Cpp.Item.text d) := by
  rw [ownedConstraint_old hd level.sound hid old, ownedConstraint_old hd' level.sound' hid' old',
    List.map_nil, List.map_nil]

/-- Copies of twins are twins. -/
theorem Abreast.graft (level : Abreast d d' g g') {source source' p p' : Param}
    {below below' : Forest} (twins : Twin d d' source source') (known : source ∈ g.known)
    (known' : source' ∈ g'.known)
    (node : p = graft source parent path realm ⟨g.count⟩ below.entries)
    (node' : p' = graft source' parent' path realm ⟨g'.count⟩ below'.entries)
    (hparent : (d'.param? parent').map Param.ident = (d.param? parent).map Param.ident)
    (hd : Holds d g (.tree p {} below)) (hd' : Holds d' g' (.tree p' {} below'))
    (inner : ForestTwin d d' below below') : Twin d d' p p' := by
  have hplain : ∀ (s : Param) (q id : ParamId) (children : Entries ParamId),
      (Resolve.graft s q path realm id children).plain =
        { s.plain with fqoid := path ++ "/" ++ s.plain.oid, realm, isCommand := false } :=
    fun _ _ _ _ => rfl
  have howned : (ownedConstraint d' p').map (Cpp.Item.text d') =
      (ownedConstraint d p).map (Cpp.Item.text d) := by
    refine level.unowned hd hd' (by rw [node]; rfl) (by rw [node']; rfl) ?_ ?_
    · rw [node]
      exact level.sound.constrained source known
    · rw [node']
      exact level.sound'.constrained source' known'
  have hplaces :=
    inner.places (fun q hq => hd.found q (by simp [hq])) (fun q hq => hd'.found q (by simp [hq]))
  refine ⟨?_, ?_, ?_, ?_, ?_, ?_, ?_, ?_, ?_⟩
  · rw [node, node', hplain, hplain, twins.plain]
  · rw [node, node']
    exact twins.type
  · rw [node, node']
    exact twins.container
  · rw [node, node']
    exact twins.template
  · rw [node, node']
    exact twins.constraint
  · rw [node, node']
    exact twins.value
  · rw [node, node']
    exact hparent
  · exact howned
  · rw [node, node']
    exact hplaces

/-- What is below twins is copied into twins. -/
theorem Copied.mirror (unique : d'.Unambiguous) {entries : Entries ParamId} {f : Forest}
    (h : Copied realm g parent path entries f) {entries' : Entries ParamId} {f' : Forest}
    (h' : Copied realm g' parent' path entries' f')
    (places : entries'.map (placeIn d') = entries.map (placeIn d)) (level : Abreast d d' g g')
    (hparent : (d'.param? parent').map Param.ident = (d.param? parent).map Param.ident)
    (hd : Holds d g f) (hd' : Holds d' g' f') : ForestTwin d d' f f' := by
  induction h generalizing g' parent' entries' f' with
  | nil =>
    cases h' with
    | nil => exact .nil
    | cons => cases places
  | @cons g parent path key entries source p below rest known node fresh inner next ihInner
      ihNext =>
    cases h' with
    | nil => cases places
    | @cons _ _ _ key' entries' source' p' below' rest' known' node' fresh' inner' next' =>
      obtain ⟨hfirst, hrest⟩ := List.cons.inj places
      have haddress : source'.address = source.address := by
        have hsecond := congrArg Prod.snd hfirst
        simpa only [placeIn, Device.spot, level.found source known, level.found' source' known',
          Option.map_some, Option.some.injEq] using hsecond
      have twins := level.mirrored source known source' (level.found' source' known') haddress
      have hfqoid : p'.fqoid = p.fqoid := by
        rw [node, node']
        exact congrArg (path ++ "/" ++ ·) twins.oid_eq
      have hrealm : p'.realm = p.realm := by
        rw [node, node']
        rfl
      have hident : p'.ident = p.ident := by rw [Param.ident, Param.ident, hfqoid, hrealm]
      change Holds d g ((Forest.tree p {} below).append rest) at hd
      change Holds d' g' ((Forest.tree p' {} below').append rest') at hd'
      have hself : (d'.param? ⟨g'.count⟩).map Param.ident =
          (d.param? ⟨g.count⟩).map Param.ident := by
        have hp := hd.found p (by simp)
        have hp' := hd'.found p' (by simp)
        rw [show p.id = ⟨g.count⟩ by rw [node]; rfl] at hp
        rw [show p'.id = ⟨g'.count⟩ by rw [node']; rfl] at hp'
        rw [hp, hp', Option.map_some, Option.map_some, hident]
      have hsound :=
        level.sound.graft known node inner.types (inner.sound (level.sound.enter (by simp)))
      have hsound' :=
        level.sound'.graft known' node' inner'.types (inner'.sound (level.sound'.enter (by simp)))
      rw [hfqoid] at inner'
      have hbelow := ihInner inner' twins.children (level.enter (by simp) (by simp)) hself
        (hd.left.inner _ _) (hd'.left.inner _ _)
      have hnode : Twin d d' p p' :=
        level.graft twins known known' node node' hparent hd.left hd'.left hbelow
      have htree : ForestTwin d d' (.tree p {} below) (.tree p' {} below') := .tree hnode hbelow
      exact htree.append (ihNext next' hrest
        (level.after unique htree hsound hsound' hd.left hd'.left) hparent hd.right hd'.right)

end Copies

section Settling

variable {d d' : Device} {g g' : Ground} {site site' : Site} {oid : String}
  {declaration : Declaration} {binding binding' : Option Binding} {typing typing' : Typing}
  {below below' : Forest} {own own' : Share} {p p' : Param}

theorem Settled.template (h : Settled g site oid declaration binding typing below own p) :
    p.template = binding.map Binding.template := by
  rw [h.node]

theorem Settled.plain_eq (h : Settled g site oid declaration binding typing below own p) :
    p.plain = (blank site oid p.declared declaration).plain :=
  (congrArg Param.plain h.node).trans rfl

/-- The same code is declared at twin sites. -/
theorem Settled.declared_twin (sites : SiteTwin d d' site site')
    (h : Settled g site oid declaration binding typing below own p)
    (h' : Settled g' site' oid declaration binding' typing' below' own' p') :
    p'.declared = p.declared := by
  have hsame := h'.declared
  rw [sites.declaredType, h.declared] at hsame
  exact (Except.ok.inj hsame).symm

/-- What is entered first on the two grounds has the same stem. -/
theorem Settled.self_twin (sites : SiteTwin d d' site site')
    (h : Settled g site oid declaration binding typing below own p)
    (h' : Settled g' site' oid declaration binding' typing' below' own' p')
    (hd : Holds d g (.tree p own below)) (hd' : Holds d' g' (.tree p' own' below')) :
    (d'.param? ⟨g'.count⟩).map Param.ident = (d.param? ⟨g.count⟩).map Param.ident := by
  rw [← h.id, ← h'.id, hd.found p (by simp), hd'.found p' (by simp), Option.map_some,
    Option.map_some, Param.ident, Param.ident, h.realm, h'.realm, h.fqoid, h'.fqoid, sites.realm,
    sites.fqoid]

/-- What comes from twin templates: names that lead to the same, and a value that is written
alike. -/
structure BindingTwin (d d' : Device) (g g' : Ground) (b b' : Option Binding) : Prop where
  template : ((b'.map Binding.template).bind d'.param?).map Param.fqoid =
    ((b.map Binding.template).bind d.param?).map Param.fqoid
  constraint : ((b'.bind Binding.constraint).bind d'.constraint?).map Constraint.face =
    ((b.bind Binding.constraint).bind d.constraint?).map Constraint.face
  value : (b'.bind Binding.value).map (spelled d') = (b.bind Binding.value).map (spelled d)
  old : ∀ c, b.bind Binding.constraint = some c → c.index < g.constraints.length
  old' : ∀ c, b'.bind Binding.constraint = some c → c.index < g'.constraints.length

theorem BindingTwin.none : BindingTwin d d' g g' none none :=
  ⟨rfl, rfl, by simp only [Option.bind_none, Option.map_none], by simp, by simp⟩

theorem BindingTwin.some (level : Abreast d d' g g') {template template' : Param}
    (twins : Twin d d' template template') (known : template ∈ g.known)
    (known' : template' ∈ g'.known) (type type' : ValueType) (overElements : Bool) :
    BindingTwin d d' g g' (some (bindingOf template type overElements))
      (some (bindingOf template' type' overElements)) where
  template := by
    simp only [Option.map_some, Option.bind_some, bindingOf, level.found template known,
      level.found' template' known', twins.fqoid_eq]
  constraint := twins.constraint
  value := by
    cases overElements with
    | true => simp only [Option.bind_some, bindingOf, if_true, Option.map_none]
    | false => exact twins.value
  old := fun c hc => level.sound.constrained template known c hc
  old' := fun c hc => level.sound'.constrained template' known' c hc

/-- Constraints that differ only in the ids of their owners are written alike, each with its
owner. -/
theorem inline_twin {k k' : Constraint} (hd : Holds d g (.tree p own below))
    (hd' : Holds d' g' (.tree p' own' below')) (hid : p.id = ⟨g.count⟩) (hid' : p'.id = ⟨g'.count⟩)
    (hrule : own.rule = some k) (hrule' : own'.rule = some k')
    (hc : p.constraint = some ⟨g.constraints.length⟩)
    (hc' : p'.constraint = some ⟨g'.constraints.length⟩) (owner : k.owner = some ⟨g.count⟩)
    (owner' : k'.owner = some ⟨g'.count⟩) (hface : k'.face = k.face) :
    (p'.constraint.bind d'.constraint?).map Constraint.face =
      (p.constraint.bind d.constraint?).map Constraint.face ∧
      (ownedConstraint d' p').map (Cpp.Item.text d') =
        (ownedConstraint d p).map (Cpp.Item.text d) := by
  have hk := hd.constraint? hrule
  have hk' := hd'.constraint? hrule'
  have howned : ownedConstraint d p = [.constraint ⟨g.constraints.length⟩] := by
    simp [ownedConstraint, hc, hk, owner, hid]
  have howned' : ownedConstraint d' p' = [.constraint ⟨g'.constraints.length⟩] := by
    simp [ownedConstraint, hc', hk', owner', hid']
  refine ⟨?_, ?_⟩
  · simp only [hc, hc', Option.bind_some, hk, hk', Option.map_some, hface]
  · simp only [howned, howned', List.map_cons, List.map_nil, Cpp.constraint_text hk hk' hface]

/-- Twins have the same constraint, and it is defined with both or with neither. -/
theorem Settled.constraint_twin (level : Abreast d d' g g') (sites : SiteTwin d d' site site')
    (h : Settled g site oid declaration binding typing below own p)
    (h' : Settled g' site' oid declaration binding' typing' below' own' p')
    (hd : Holds d g (.tree p own below)) (hd' : Holds d' g' (.tree p' own' below'))
    (bindings : BindingTwin d d' g g' binding binding') :
    (p'.constraint.bind d'.constraint?).map Constraint.face =
      (p.constraint.bind d.constraint?).map Constraint.face ∧
      (ownedConstraint d' p').map (Cpp.Item.text d') =
        (ownedConstraint d p).map (Cpp.Item.text d) := by
  obtain ⟨id, ruled, hc⟩ := h.ruled
  obtain ⟨id', ruled', hc'⟩ := h'.ruled
  have unowned := level.unowned hd hd' h.id h'.id
  generalize hrule : own.rule = rule at ruled
  generalize hrule' : own'.rule = rule' at ruled'
  generalize declaration.constraint = declared at ruled ruled'
  cases ruled with
  | none =>
    cases ruled'
    change p.constraint = binding.bind Binding.constraint at hc
    change p'.constraint = binding'.bind Binding.constraint at hc'
    refine ⟨?_, unowned ?_ ?_⟩
    · rw [hc, hc']
      exact bindings.constraint
    · rw [hc]
      exact bindings.old
    · rw [hc']
      exact bindings.old'
  | @shared c reference id referred untyped found =>
    cases ruled' with
    | @shared _ reference' id' referred' untyped' found' =>
      cases referred.symm.trans referred'
      have hlt' := level.sound'.shared_lt found'
      rw [level.shared] at found'
      cases found.symm.trans found'
      obtain ⟨before, after, he, _⟩ := List.lookup_eq_some_iff.mp found
      have hsame : d'.constraint? id = d.constraint? id := level.same (reference, id) (by simp [he])
      change p.constraint = some id at hc
      change p'.constraint = some id at hc'
      refine ⟨by rw [hc, hc', Option.bind_some, Option.bind_some, hsame], unowned ?_ ?_⟩
      · rw [hc]
        simpa using level.sound.shared_lt found
      · rw [hc']
        simpa using hlt'
    | inline unreferred' => simp [referred] at unreferred'
  | @inline c rule unreferred classified =>
    cases ruled' with
    | shared referred' => simp [unreferred] at referred'
    | @inline _ rule' unreferred' classified' =>
      rw [sites.fqoid] at classified'
      cases classified.symm.trans classified'
      refine inline_twin hd hd' h.id h'.id hrule hrule' hc hc' rfl rfl ?_
      simp only [Constraint.face, sites.fqoid, sites.realm, Option.map_some]

variable (ns : d'.ns = d.ns)

include ns

/-- The same declaration makes twins at twin sites, if what is below them and what they have from
their templates are twins. -/
theorem Settled.twin (level : Abreast d d' g g') (sites : SiteTwin d d' site site')
    (h : Settled g site oid declaration binding typing below own p)
    (h' : Settled g' site' oid declaration binding' typing' below' own' p')
    (hd : Holds d g (.tree p own below)) (hd' : Holds d' g' (.tree p' own' below'))
    (bindings : BindingTwin d d' g g' binding binding') (inner : ForestTwin d d' below below')
    (type : TypeTwin d d' typing.type typing'.type)
    (container : typing'.container.map (declName d' .outside) =
      typing.container.map (declName d .outside)) :
    Twin d d' p p' := by
  have hdeclared := h.declared_twin sites h'
  obtain ⟨hconstraint, howned⟩ := h.constraint_twin level sites h' hd hd' bindings
  have hplaces :=
    inner.places (fun q hq => hd.found q (by simp [hq])) (fun q hq => hd'.found q (by simp [hq]))
  refine ⟨?_, ?_, ?_, ?_, hconstraint, ?_, ?_, howned, ?_⟩
  · rw [h.plain_eq, h'.plain_eq, hdeclared]
    simp only [blank, Param.plain, sites.fqoid, sites.realm, sites.isCommand]
  · rw [h.type, h'.type]
    exact type
  · rw [h.container, h'.container]
    exact container
  · rw [h.template, h'.template]
    exact bindings.template
  · cases hv : declaration.value with
    | none =>
      rw [h.ungiven hv, h'.ungiven hv]
      exact bindings.value
    | some v =>
      obtain ⟨i, hi, he⟩ := h.given v hv
      obtain ⟨i', hi', he'⟩ := h'.given v hv
      rw [sites.fqoid] at hi'
      rw [he, he', Option.map_some, Option.map_some,
        Cpp.value_twin ns hd.within hd'.within v type hi hi']
  · rw [h.parent, h'.parent]
    exact sites.parent
  · rw [h.children, h'.children]
    exact hplaces

end Settling

section Typings

variable {d d' : Device} {g g' : Ground} {site site' : Site} {p p' : Param} {below below' : Forest}

/-- The struct or variant over the same children. -/
theorem elementDecl_twin (sites : SiteTwin d d' site site') (inner : ForestTwin d d' below below')
    {oid : String} {declared : TypeCode} {t t' : TypeId}
    (ht : d.typeDecl? t =
      some ⟨elementName oid declared, site.scope, ⟨g.count⟩, elementShape declared below.roots⟩)
    (ht' : d'.typeDecl? t' = some ⟨elementName oid declared, site'.scope, ⟨g'.count⟩,
      elementShape declared below'.roots⟩) :
    TypeTwin d d' (elementType declared t) (elementType declared t') := by
  have hname (decl decl' : TypeDecl) (hscope : decl'.scope = decl.scope)
      (hown : decl'.name = decl.name) :
        decl'.qualifiedName = decl.qualifiedName := by
    rw [TypeDecl.qualifiedName, TypeDecl.qualifiedName, hscope, hown]
  cases hstruct : makesStruct declared with
  | true =>
    simp only [elementType, elementShape, hstruct, if_true] at ht ht' ⊢
    refine .struct (.mk ht ht' (hname _ _ sites.scope rfl) ?_ .nil)
    simpa [TypeDecl.fieldTypes, TypeDecl.fields, structShape, Function.comp_def] using inner.members
  | false =>
    simp only [elementType, elementShape, hstruct, Bool.false_eq_true, if_false] at ht ht' ⊢
    refine .variant (.mk ht ht' (hname _ _ sites.scope rfl) .nil ?_)
    simpa [TypeDecl.alternativeTypes, TypeDecl.alternatives, variantShape,
      Function.comp_def] using inner.members

theorem plainTyping_twin (declared : TypeCode) :
    TypeTwin d d' (plainTyping declared).type (plainTyping declared).type := by
  rcases declared with _ | k | k
  · exact .empty
  · cases k with
    | string => exact .string
    | int32 => exact .int32
    | float32 => exact .float32
    | struct | variant => exact .empty
  · cases k with
    | string => exact .array .string
    | int32 => exact .array .int32
    | float32 => exact .array .float32
    | struct | variant => exact .empty

variable (ns : d'.ns = d.ns)

include ns

theorem containerName_twin (sites : SiteTwin d d' site site') {t t' : TypeId} {name : String}
    {owner owner' : ParamId} {shape shape' : Shape}
    (ht : d.typeDecl? t = some ⟨name, site.scope, owner, shape⟩)
    (ht' : d'.typeDecl? t' = some ⟨name, site'.scope, owner', shape'⟩) :
    declName d' .outside t' = declName d .outside t := by
  simp only [declName, ht, ht', TypeDecl.qualifiedName, sites.scope, ns]

theorem compositeTyping_twin (sites : SiteTwin d d' site site') {oid : String} {declared : TypeCode}
    {rule rule' : Option Constraint} (inner : ForestTwin d d' below below')
    (hd : Holds d g (.tree p (compositeShare g site oid declared rule below) below))
    (hd' : Holds d' g' (.tree p' (compositeShare g' site' oid declared rule' below') below')) :
    TypeTwin d d' (compositeTyping g declared below).type
      (compositeTyping g' declared below').type ∧
      (compositeTyping g' declared below').container.map (declName d' .outside) =
        (compositeTyping g declared below).container.map (declName d .outside) := by
  have helement :=
    elementDecl_twin sites inner (hd.typeDecl? (i := 0) rfl) (hd'.typeDecl? (i := 0) rfl)
  cases harray : declared.isArray with
  | false =>
    simp only [compositeTyping, harray, Bool.false_eq_true, if_false, Option.map_none, and_true]
    exact helement
  | true =>
    have hcontainer := hd.typeDecl? (i := 1) (t := ⟨Text.capitalize oid, site.scope, ⟨g.count⟩,
      .array (elementType declared ⟨g.types.length + below.types.length⟩)⟩)
      (by simp [compositeShare, Share.types, harray])
    have hcontainer' := hd'.typeDecl? (i := 1) (t := ⟨Text.capitalize oid, site'.scope, ⟨g'.count⟩,
      .array (elementType declared ⟨g'.types.length + below'.types.length⟩)⟩)
      (by simp [compositeShare, Share.types, harray])
    simp only [compositeTyping, harray, if_true, Option.map_some]
    exact ⟨.array helement, congrArg some (containerName_twin ns sites hcontainer hcontainer')⟩

theorem templatedTyping_twin (sites : SiteTwin d d' site site') {oid : String}
    {template template' : Param} {type type' : ValueType} {overElements : Bool}
    {rule rule' : Option Constraint} (twins : Twin d d' template template')
    (htype : TypeTwin d d' type type') (hbelow : below.types = []) (hbelow' : below'.types = [])
    (hd : Holds d g
      (.tree p { rule, container := templatedContainer g site oid type overElements } below))
    (hd' : Holds d' g'
      (.tree p'
      { rule := rule', container := templatedContainer g' site' oid type' overElements } below')) :
    (templatedTyping g' template' type' overElements).container.map (declName d' .outside) =
      (templatedTyping g template type overElements).container.map (declName d .outside) := by
  cases overElements with
  | false => exact twins.container
  | true =>
    have hdeclared := htype.element.declared?_isSome
    cases hsome : type.element.declared?.isSome with
    | false =>
      rw [hsome] at hdeclared
      simp only [templatedTyping, if_true, hsome, hdeclared, Bool.false_eq_true, if_false,
        Option.map_none]
    | true =>
      rw [hsome] at hdeclared
      have hcontainer := hd.typeDecl? (i := 0)
        (t := ⟨Text.capitalize oid, site.scope, ⟨g.count⟩, .array type.element⟩)
        (by simp [Share.types, templatedContainer, hsome])
      have hcontainer' := hd'.typeDecl? (i := 0)
        (t := ⟨Text.capitalize oid, site'.scope, ⟨g'.count⟩, .array type'.element⟩)
        (by simp [Share.types, templatedContainer, hdeclared])
      simp only [hbelow, hbelow', List.length_nil, Nat.add_zero] at hcontainer hcontainer'
      simp only [templatedTyping, if_true, hsome, hdeclared, Option.map_some]
      exact congrArg some (containerName_twin ns sites hcontainer hcontainer')

end Typings

/-- Parameters of a resolved device have addresses of their own. -/
theorem Resolved.unambiguous {source : Source} {importRoot : Path}
    {description : Description.Device} {d : Device} {shared : List Constraint}
    {params commands : Forest}
    (h : Resolved source importRoot description d shared params commands) : d.Unambiguous := by
  intro p q hp hq haddress
  obtain ⟨hrealm, hfqoid⟩ := Prod.mk.inj haddress
  have hident : p.ident = q.ident := by rw [Param.ident, Param.ident, hrealm, hfqoid]
  exact List.inj_on_of_nodup_map h.stems_nodup (h.mem_nodes.mp (Array.mem_of_getElem? hp))
    (h.mem_nodes.mp (Array.mem_of_getElem? hq)) hident

section Whole

variable {d d' : Device} {source : Source} {opened : List Path} {g g' : Ground} {site site' : Site}
  {f f' : Forest} {entries : List (String × Description.Param)}

/-- The same descriptions grow into twins. -/
theorem Grown.mirror (ns : d'.ns = d.ns) (unique : d'.Unambiguous)
    (h : Grown source opened g site entries f) (h' : Grown source opened g' site' entries f')
    (level : Abreast d d' g g') (sites : SiteTwin d d' site site') (hd : Holds d g f)
    (hd' : Holds d' g' f') : ForestTwin d d' f f' := by
  induction h generalizing g' site' f' with
  | nil =>
    rw [h'.eq_nil]
    exact .nil
  | cons first next ihFirst ihNext =>
    obtain ⟨_, _, first', next', rfl⟩ := h'.uncons
    have hfirst := ihFirst first' level sites hd.left hd'.left
    have hlevel := level.after unique hfirst (first.sound level.sound)
      (first'.sound level.sound') hd.left hd'.left
    exact hfirst.append (ihNext next' hlevel sites hd.right hd'.right)
  | imported elsewhere opens _ ih =>
    obtain ⟨identity', q', opens', grown'⟩ := h'.of_imported elsewhere
    obtain ⟨rfl, rfl⟩ := sites.opens opens opens'
    exact ih grown' level sites hd hd'
  | @templated _ g site oid _ _ template p type _ below rule here referred known found inParams fits
      copied _ settled =>
    obtain ⟨template', p', type', overElements', below', rule', known', haddress, fits', copied',
        settled', rfl⟩ :=
      h'.of_templated here referred
    -- the template is known by its address, and what has it in the second device is its twin
    have hsame : template'.address = template.address := by
      rw [haddress, Param.address, found, inParams]
    have twins := level.mirrored template known template' (level.found' template' known') hsame
    rw [settled.declared_twin sites settled'] at fits'
    obtain ⟨htype, rfl⟩ := twins.type.ofTemplate? fits fits'
    obtain ⟨_, ruled, _⟩ := settled.ruled
    obtain ⟨_, ruled', _⟩ := settled'.ruled
    have hcontainer := templatedTyping_twin ns sites twins htype copied.types copied'.types hd hd'
    rw [sites.realm, sites.fqoid] at copied'
    have hbelow := copied.mirror unique copied' twins.children
      (level.enter ruled.owned ruled'.owned)
      (settled.self_twin sites settled' hd hd') (hd.inner _ _) (hd'.inner _ _)
    have bindings := BindingTwin.some level twins known known' type type' overElements'
    exact .tree
      (settled.twin ns level sites settled' hd hd' bindings hbelow htype hcontainer) hbelow
  | @composite _ g site oid _ _ p below rule here untemplated declares _ _ _ _ grown settled ih =>
    obtain ⟨p', below', rule', ⟨_, grown', settled', rfl⟩ | ⟨undeclared', _, settled', _⟩⟩ :=
      h'.of_untemplated here untemplated
    · rw [settled.declared_twin sites settled'] at grown' settled' hd'
      obtain ⟨_, ruled, _⟩ := settled.ruled
      obtain ⟨_, ruled', _⟩ := settled'.ruled
      have hinner :=
        sites.below (settled.self_twin sites settled' hd hd') oid (innerName oid p.declared)
      have hbelow :=
        ih grown' (level.enter ruled.owned ruled'.owned) hinner (hd.inner _ _) (hd'.inner _ _)
      obtain ⟨htype, hcontainer⟩ := compositeTyping_twin ns sites hbelow hd hd'
      exact .tree (settled.twin ns level sites settled' hd hd' .none hbelow htype hcontainer) hbelow
    · rw [settled.declared_twin sites settled', declares] at undeclared'
      cases undeclared'
  | @plain _ g site oid _ _ p below rule here untemplated undeclared _ _ grown settled ih =>
    obtain ⟨p', below', rule', ⟨declares', _, settled', _⟩ | ⟨_, grown', settled', rfl⟩⟩ :=
      h'.of_untemplated here untemplated
    · rw [settled.declared_twin sites settled', undeclared] at declares'
      cases declares'
    · rw [settled.declared_twin sites settled'] at settled'
      obtain ⟨_, ruled, _⟩ := settled.ruled
      obtain ⟨_, ruled', _⟩ := settled'.ruled
      have hinner := sites.below (settled.self_twin sites settled' hd hd') oid (holderName oid)
      have hbelow :=
        ih grown' (level.enter ruled.owned ruled'.owned) hinner (hd.inner _ _) (hd'.inner _ _)
      exact .tree (settled.twin ns level sites settled' hd hd' .none hbelow
        (plainTyping_twin p.declared) rfl) hbelow

end Whole

end Resolve

end DeviceModel
