import DeviceModel.Proofs.Lineage
import Mathlib.Data.List.Nodup

namespace DeviceModel

open Description (Declaration)

/-- One parameter is made after another that was finished before it. -/
structure Pattern (d : Device) (template p : Param) : Prop where
  found : d.param? template.id = some template
  realm : template.realm = .params
  /-- All of the template's tree comes earlier. -/
  before : ∀ id, d.Below template.id id → id.index < p.id.index
  type : p.type = template.type ∨ p.type = .array template.type ∧ template.type.isArray = false

/-- What is of the same type and comes later is made after the same. -/
theorem Pattern.later {d : Device} {template p q : Param} (h : Pattern d template p)
    (hid : p.id.index ≤ q.id.index) (htype : q.type = p.type) : Pattern d template q where
  found := h.found
  realm := h.realm
  before := fun id hbelow => Nat.lt_of_lt_of_le (h.before id hbelow) hid
  type := by
    rw [htype]
    exact h.type

theorem ValueType.ofTemplate?_cases {declared : TypeCode} {template type : ValueType}
    {overElements : Bool}
    (h : ValueType.ofTemplate? declared template = some (type, overElements)) :
    (type = template ∧ overElements = false) ∨
      (type = .array template ∧ template.isArray = false ∧ overElements = true) := by
  unfold ValueType.ofTemplate? at h
  split at h
  · cases h
    exact .inl ⟨rfl, rfl⟩
  · split at h
    · next hfits =>
      cases h
      simp only [Bool.and_eq_true, Bool.not_eq_true'] at hfits
      exact .inr ⟨rfl, hfits.1.2, rfl⟩
    · cases h

/-- No type is an array of itself. -/
theorem ValueType.ne_array (t : ValueType) : t ≠ .array t := by
  intro h
  have hsize := congrArg sizeOf h
  simp only [ValueType.array.sizeOf_spec] at hsize
  omega

namespace Resolve

/-- The finished parameters of the ground are those of the device, with all below them, and each
that has a template is made after it. -/
structure Patterned (d : Device) (g : Ground) : Prop where
  found : ∀ p ∈ g.known, d.param? p.id = some p
  old : ∀ p ∈ g.known, p.id.index < g.count
  closed : ∀ p ∈ g.known, ∀ e ∈ p.children, ∃ q ∈ g.known, q.id = e.2
  made : ∀ p ∈ g.known, ∀ id, p.template = some id → ∃ template, template.id = id ∧
    Pattern d template p

namespace Patterned

variable {d : Device} {g : Ground} {p : Param} {own : Share} {below : Forest}

theorem start (d : Device) (shared : List Constraint) : Patterned d (start shared) where
  found := by simp [Resolve.start]
  old := by simp [Resolve.start]
  closed := by simp [Resolve.start]
  made := by simp [Resolve.start]

theorem enter (h : Patterned d g) (realm : Realm) (fqoid : String) (rule : Option Constraint) :
    Patterned d (g.enter realm fqoid rule) where
  found := h.found
  old := fun p hp => Nat.lt_succ_of_lt (h.old p hp)
  closed := h.closed
  made := h.made

/-- Nothing below a finished parameter is still to come. -/
theorem before (h : Patterned d g) (hp : p ∈ g.known) {id : ParamId} (hbelow : d.Below p.id id) :
    id.index < g.count := by
  have hknown : ∃ q ∈ g.known, q.id = id := by
    induction hbelow with
    | self => exact ⟨p, hp, rfl⟩
    | child _ found listed ih =>
      obtain ⟨q, hq, rfl⟩ := ih
      rw [Option.some.inj (found.symm.trans (h.found q hq))] at listed
      exact h.closed q hq _ listed
  obtain ⟨q, hq, rfl⟩ := hknown
  exact h.old q hq

/-- A parameter is finished after those below it. -/
theorem finish {realm : Realm} {fqoid : String} {rule : Option Constraint}
    (h : Patterned d ((g.enter realm fqoid rule).after below)) (found : d.param? p.id = some p)
    (hid : p.id = ⟨g.count⟩) (hchildren : p.children = below.entries)
    (made : ∀ id, p.template = some id → ∃ template, template.id = id ∧ Pattern d template p) :
    Patterned d (g.after (.tree p own below)) := by
  have hknown : ∀ q ∈ (g.after (.tree p own below)).known,
      q = p ∨ q ∈ ((g.enter realm fqoid rule).after below).known := by
    intro q hq
    simp only [Ground.after_known, Forest.params_tree, Ground.enter_known, List.mem_append,
      List.mem_cons] at hq ⊢
    rcases hq with hq | hq | hq
    · exact .inr (.inl hq)
    · exact .inl hq
    · exact .inr (.inr hq)
  have hold : ∀ q ∈ ((g.enter realm fqoid rule).after below).known,
      q ∈ (g.after (.tree p own below)).known := by
    intro q hq
    simp only [Ground.after_known, Forest.params_tree, Ground.enter_known, List.mem_append,
      List.mem_cons] at hq ⊢
    rcases hq with hq | hq
    · exact .inl hq
    · exact .inr (.inr hq)
  constructor
  case found =>
    intro q hq
    rcases hknown q hq with rfl | hq
    · exact found
    · exact h.found q hq
  case old =>
    intro q hq
    simp only [Ground.after_count, Forest.params_tree, List.length_cons]
    rcases hknown q hq with rfl | hq
    · simp only [hid]
      omega
    · have hlt := h.old q hq
      simp only [Ground.after_count, Ground.enter_count] at hlt
      omega
  case closed =>
    intro q hq e he
    rcases hknown q hq with rfl | hq
    · rw [hchildren] at he
      obtain ⟨r, hr, rfl⟩ := List.mem_map.mp he
      refine ⟨r, hold r ?_, rfl⟩
      simp [Forest.mem_params_of_mem_roots hr]
    · obtain ⟨r, hr, hrid⟩ := h.closed q hq e he
      exact ⟨r, hold r hr, hrid⟩
  case made =>
    intro q hq id hid'
    rcases hknown q hq with rfl | hq
    · exact made id hid'
    · exact h.made q hq id hid'

end Patterned

section Growth

variable {d : Device} {g : Ground} {f : Forest}

/-- A copy comes after what it is a copy of. -/
theorem Copied.patterned {realm : Realm} {parent : ParamId} {path : String}
    {entries : Entries ParamId} (h : Copied realm g parent path entries f)
    (found : ∀ p ∈ f.params, d.param? p.id = some p) (hg : Patterned d g) :
    Patterned d (g.after f) := by
  induction h with
  | nil => rwa [Ground.after_nil]
  | @cons g parent path key entries source p below rest known node fresh inner next ihInner
      ihNext =>
    have hid : p.id = ⟨g.count⟩ := by rw [node]; rfl
    have hbelow := ihInner (fun q hq => found q (by simp [hq])) (hg.enter realm p.fqoid none)
    have htree : Patterned d (g.after (.tree p {} below)) := by
      apply hbelow.finish (found p (by simp)) hid
      · rw [node]
        rfl
      · intro id ht
        have hsource : source.template = some id := by
          rw [node] at ht
          exact ht
        obtain ⟨template, htemplate, pattern⟩ := hg.made source known id hsource
        refine ⟨template, htemplate, pattern.later ?_ (by rw [node]; rfl)⟩
        rw [hid]
        exact Nat.le_of_lt (hg.old source known)
    have hrest := ihNext (fun q hq => found q (by simp [hq])) htree
    rwa [← Ground.after_append] at hrest

/-- What is made after a finished parameter. -/
theorem Settled.pattern {site : Site} {oid : String} {declaration : Declaration}
    {template p : Param} {type : ValueType} {overElements : Bool} {below : Forest} {own : Share}
    (settled : Settled g site oid declaration (some (bindingOf template type overElements))
      (templatedTyping g template type overElements) below own p)
    (fits : ValueType.ofTemplate? p.declared template.type = some (type, overElements))
    (known : template ∈ g.known) (inParams : template.realm = .params) (hg : Patterned d g) :
    Pattern d template p where
  found := hg.found template known
  realm := inParams
  before := by
    intro id hbelow
    rw [settled.id]
    exact hg.before known hbelow
  type := by
    have htype : p.type = type := settled.type
    rw [htype]
    rcases ValueType.ofTemplate?_cases fits with ⟨hsame, _⟩ | ⟨harray, hplain, _⟩
    · exact .inl hsame
    · exact .inr ⟨harray, hplain⟩

theorem Settled.untemplated {site : Site} {oid : String} {declaration : Declaration}
    {typing : Typing} {below : Forest} {own : Share} {p : Param}
    (h : Settled g site oid declaration none typing below own p) :
    p.template = none := by
  rw [h.node]
  rfl

theorem Grown.patterned {source : Source} {opened : List Path} {site : Site}
    {entries : List (String × Description.Param)} (h : Grown source opened g site entries f)
    (found : ∀ p ∈ f.params, d.param? p.id = some p) (hg : Patterned d g) :
    Patterned d (g.after f) := by
  induction h with
  | nil => rwa [Ground.after_nil]
  | cons _ _ first next =>
    rw [Ground.after_append]
    apply next (fun q hq => found q (by simp [hq]))
    exact first (fun q hq => found q (by simp [hq])) hg
  | imported _ _ _ ih => exact ih found hg
  | @templated _ g site oid _ _ template p type overElements below rule _ _ known _ inParams fits
      copied _ settled =>
    have hbelow := copied.patterned (fun q hq => found q (by simp [hq])) (hg.enter _ _ _)
    apply hbelow.finish (found p (by simp)) settled.id settled.children
    intro id ht
    rw [settled.node] at ht
    exact ⟨template, Option.some.inj ht, settled.pattern fits known inParams hg⟩
  | @composite _ g site oid _ _ p below rule _ _ _ _ _ _ _ _ settled ih
  | @plain _ g site oid _ _ p below rule _ _ _ _ _ _ settled ih =>
    have hbelow := ih (fun q hq => found q (by simp [hq])) (hg.enter _ _ _)
    apply hbelow.finish (found p (by simp)) settled.id settled.children
    intro id ht
    rw [settled.untemplated] at ht
    cases ht

end Growth

end Resolve

open Resolve

/-- The constraint that a parameter declares is the one it has: the shared one that it refers to, or
one of its own. -/
def Constrains (d : Device) (p : Param) (c : Description.Constraint) : Prop :=
  ∃ id k, p.constraint = some id ∧ d.constraint? id = some k ∧
    match c.reference with
    | some reference => d.sharedConstraints.get? reference = some id
    | none => k.owner = some p.id ∧ Rule.classify p.fqoid c = .ok k.rule

/-- What a parameter has that is declared with a template. -/
structure Follows (d : Device) (declaration : Declaration) (templateOid : String)
    (template p : Param) : Prop where
  made : p.template = some template.id
  found : d.param? template.id = some template
  realm : template.realm = .params
  oid : template.fqoid = completeOid templateOid
  only : ∀ q ∈ d.nodes, q.realm = .params → q.fqoid = completeOid templateOid → q = template
  /-- It may name an array, but no struct or variant. -/
  declares : p.declares = none ∧ ∀ t ∈ d.types, t.owner = p.id → ∃ element, t.shape = .array element
  constrained : ∀ c, declaration.constraint = some c → Constrains d p c
  unconstrained : declaration.constraint = none → p.constraint = template.constraint
  value : declaration.value = none →
    (p.type = template.type → p.value = template.value) ∧
      (p.type = .array template.type → p.value = none)

/-- What a declaration comes to. It stands in the description of the parameter with the given id, as
deep as it may be, or in a document that is imported there. -/
inductive ComesTo (source : Source) (d : Device) :
    Path → ParamId → Description.Param → Declaration → Param → Prop where
  | here {folder : Path} {id : ParamId} {declaration : Declaration}
      {params : List (String × Description.Param)}
      {p : Param} (written : declaration.source = none) (found : d.param? id = some p) :
      ComesTo source d folder id ⟨declaration, params⟩ declaration p
  | inside {folder : Path} {id child : ParamId} {outer declaration : Declaration}
      {params : List (String × Description.Param)} {key : String} {q : Description.Param}
      {p n : Param}
      (written : outer.source = none) (found : d.param? id = some p) (described : (key, q) ∈ params)
      (listed : (key, child) ∈ p.children)
      (comes : ComesTo source d (folder.join p.oid) child q declaration n) :
      ComesTo source d folder id ⟨outer, params⟩ declaration n
  | imported {folder path : Path} {id : ParamId} {outer declaration : Declaration}
      {i : Description.Import}
      {params : List (String × Description.Param)} {q : Description.Param} {p n : Param}
      (elsewhere : outer.source = some i) (found : d.param? id = some p)
      (named : importPath source folder p.fqoid p.oid i = .ok path)
      (described : importedParam source p.fqoid path = .ok q)
      (comes : ComesTo source d folder id q declaration n) :
      ComesTo source d folder id ⟨outer, params⟩ declaration n

/-- Whatever is declared with a template follows it. -/
def TemplatesFollowed (source : Source) (d : Device) (folder : Path) (listed : Entries ParamId)
    (described : List (String × Description.Param)) : Prop :=
  ∀ oid q id declaration p templateOid, (oid, q) ∈ described → (oid, id) ∈ listed →
    ComesTo source d folder id q declaration p → declaration.template = some templateOid →
    ∃ template, Follows d declaration templateOid template p

namespace Resolve

/-- What a declaration takes from its template. -/
inductive Binds (g : Ground) (p : Param) : Option String → Option Binding → Typing → Prop where
  | none {typing : Typing} : Binds g p none none typing
  | some {templateOid : String} {template : Param} {type : ValueType} {overElements : Bool}
      (known : template ∈ g.known) (found : template.fqoid = completeOid templateOid)
      (inParams : template.realm = .params)
      (fits : ValueType.ofTemplate? p.declared template.type = some (type, overElements)) :
      Binds g p (some templateOid) (some (bindingOf template type overElements))
        (templatedTyping g template type overElements)

/-- The declaration came to the parameter, on some ground of the device. -/
def Came (d : Device) (declaration : Declaration) (p : Param) : Prop :=
  ∃ g site oid binding typing below own, Settled g site oid declaration binding typing below own p ∧
    Binds g p declaration.template binding typing ∧ Holds d g (.tree p own below) ∧
    d.sharedConstraints = g.shared ∧ Patterned d g

end Resolve

/-- What a device guarantees that is looked at as a whole: stems tell parameters apart, and what
declares no struct or variant only names arrays. -/
structure Orderly (d : Device) : Prop where
  stems : ∀ p ∈ d.nodes, ∀ q ∈ d.nodes, p.ident = q.ident → p = q
  types : ∀ t ∈ d.types, ∃ p, d.param? t.owner = some p ∧
    (p.declares = none → ∃ element, t.shape = .array element)

namespace Resolve

section Growth

variable {d : Device} {g : Ground} {site : Site} {f below : Forest} {oid templateOid : String}
  {declaration : Declaration} {template p : Param} {type : ValueType} {overElements : Bool}
  {rule : Option Constraint}

/-- The constraint that is looked up for a settled parameter is one of the device, and of its
kind. -/
theorem Settled.constraint? {binding : Option Binding} {typing : Typing} {own : Share}
    (settled : Settled g site oid declaration binding typing below own p)
    (hd : Holds d g (.tree p own below)) {id : ConstraintId} (hid : p.constraint = some id) :
    ∃ k, d.constraint? id = some k ∧ p.type.element.code = .single k.rule.kind := by
  obtain ⟨k, hk, hkind⟩ := settled.checked id hid
  obtain ⟨rest, hr⟩ := hd.constraints
  refine ⟨k, ?_, by rw [settled.type, hkind]⟩
  have hlt := (List.getElem?_eq_some_iff.mp hk).1
  rw [Device.constraint?, ← Array.getElem?_toList, ← hr, Forest.constraints_tree,
    ← List.append_assoc, List.getElem?_append_left hlt]
  exact hk

theorem Settled.constrains {binding : Option Binding} {typing : Typing} {own : Share}
    (settled : Settled g site oid declaration binding typing below own p)
    (hd : Holds d g (.tree p own below)) (hshared : d.sharedConstraints = g.shared)
    {c : Description.Constraint} (hc : declaration.constraint = some c) :
    Constrains d p c := by
  obtain ⟨id, ruled, hconstraint⟩ := settled.ruled
  rw [hc] at ruled
  generalize hrule : own.rule = rule at ruled
  cases ruled with
  | @shared _ reference id referred _ found =>
    obtain ⟨k, hk, _⟩ := settled.constraint? hd hconstraint
    refine ⟨id, k, hconstraint, hk, ?_⟩
    rw [referred, hshared]
    exact found
  | inline unreferred classified =>
    refine ⟨_, _, hconstraint, hd.constraint? hrule, ?_⟩
    rw [unreferred, settled.id, settled.fqoid]
    exact ⟨rfl, classified⟩

/-- A parameter that is declared with a template follows it. -/
theorem Settled.follows {own : Share}
    (settled : Settled g site oid declaration (some (bindingOf template type overElements))
      (templatedTyping g template type overElements) below own p)
    (fits : ValueType.ofTemplate? p.declared template.type = some (type, overElements))
    (known : template ∈ g.known) (inParams : template.realm = .params)
    (found : template.fqoid = completeOid templateOid) (hd : Holds d g (.tree p own below))
    (hshared : d.sharedConstraints = g.shared) (hg : Patterned d g) (orderly : Orderly d) :
    Follows d declaration templateOid template p := by
  have htemplate := hg.found template known
  have hp := hd.found p (by simp)
  have hdeclares : p.declares = none := settled.declares
  constructor
  case made =>
    rw [settled.node]
    rfl
  case found => exact htemplate
  case realm => exact inParams
  case oid => exact found
  case only =>
    intro q hq hrealm hfqoid
    apply orderly.stems q hq template (Array.mem_of_getElem? htemplate)
    rw [Param.ident, Param.ident, hrealm, hfqoid, inParams, found]
  case declares =>
    refine ⟨hdeclares, ?_⟩
    intro t ht howner
    obtain ⟨q, hq, hshape⟩ := orderly.types t ht
    rw [howner, hp] at hq
    rw [← Option.some.inj hq] at hshape
    exact hshape hdeclares
  case constrained =>
    intro c hc
    exact settled.constrains hd hshared hc
  case unconstrained =>
    intro hnone
    obtain ⟨id, ruled, hconstraint⟩ := settled.ruled
    generalize own.rule = rule at ruled
    rw [hnone] at ruled
    cases ruled
    exact hconstraint
  case value =>
    intro hnone
    have hvalue : p.value = if overElements then none else template.value := settled.ungiven hnone
    have htype : p.type = type := settled.type
    rw [hvalue, htype]
    rcases ValueType.ofTemplate?_cases fits with ⟨rfl, rfl⟩ | ⟨rfl, _, rfl⟩
    · exact ⟨fun _ => rfl, fun harray => absurd harray template.type.ne_array⟩
    · exact ⟨fun harray => absurd harray.symm template.type.ne_array, fun _ => rfl⟩

/-- What is listed has a name of the description. -/
theorem Grown.key_mem {source : Source} {opened : List Path}
    {entries : List (String × Description.Param)} (h : Grown source opened g site entries f)
    {id : ParamId} (he : (oid, id) ∈ f.entries) :
    oid ∈ entries.map Prod.fst := by
  rw [← h.keys]
  obtain ⟨r, hr, heq⟩ := List.mem_map.mp he
  exact List.mem_map.mpr ⟨r, hr, congrArg Prod.fst heq⟩

/-- Names tell described parameters apart, so what is declared somewhere in a description is what
grew there. -/
theorem Grown.came {source : Source} {opened : List Path}
    {entries : List (String × Description.Param)} (h : Grown source opened g site entries f)
    (hd : Holds d g f) (hshared : d.sharedConstraints = g.shared) (hg : Patterned d g)
    (distinct : (entries.map Prod.fst).Nodup) {oid : String} {q : Description.Param} {id : ParamId}
    {declaration : Declaration} {p : Param} (hq : (oid, q) ∈ entries) (hid : (oid, id) ∈ f.entries)
    (comes : ComesTo source d site.folder id q declaration p) : Came d declaration p := by
  induction h generalizing oid q id with
  | nil => cases hq
  | @cons opened g site key first others f rest grown next ihFirst ihNext =>
    obtain ⟨hkey, hothers⟩ := List.nodup_cons.mp distinct
    rw [Forest.entries_append, List.mem_append] at hid
    rcases List.mem_cons.mp hq with heq | hq
    · cases heq
      rcases hid with hid | hid
      · exact ihFirst hd.left hshared hg (by simp) (by simp) hid comes
      · exact absurd (next.key_mem hid) hkey
    · rcases hid with hid | hid
      · have hsame := grown.key_mem hid
        simp only [List.map_cons, List.map_nil, List.mem_singleton] at hsame
        rw [hsame] at hq
        exact absurd (List.mem_map.mpr ⟨(key, q), hq, rfl⟩) hkey
      · exact ihNext hd.right hshared (grown.patterned hd.left.found hg) hothers hq hid comes
  | @imported opened g site key outer params i identity q' f elsewhere opens grown ih =>
    cases List.mem_singleton.mp hq
    obtain ⟨r, hroot, heq⟩ := List.mem_map.mp hid
    cases heq
    have hr := hd.found r (Forest.mem_params_of_mem_roots hroot)
    have seat := grown.seated.root hroot
    cases comes with
    | here written => cases written.symm.trans elsewhere
    | inside written => cases written.symm.trans elsewhere
    | imported elsewhere' found named described comes =>
      cases elsewhere'.symm.trans elsewhere
      cases hr.symm.trans found
      rw [seat.fqoid] at named described
      obtain ⟨path, hpath, _, hparam⟩ := opens
      cases named.symm.trans hpath
      cases described.symm.trans hparam
      exact ih hd hshared hg (by simp) (by simp) hid comes
  | @templated opened g site key outer templateOid template r type overElements below rule written
      referred known found inParams fits copied _ settled =>
    cases List.mem_singleton.mp hq
    cases List.mem_singleton.mp hid
    have hr := hd.found r (by simp)
    cases comes with
    | here _ found' =>
      cases hr.symm.trans found'
      refine ⟨_, _, _, _, _, _, _, settled, ?_, hd, hshared, hg⟩
      rw [referred]
      exact .some known found inParams fits
    | inside _ _ described => cases described
    | imported elsewhere => cases written.symm.trans elsewhere
  | @composite opened g site key outer params r below rule written untemplated _ distinct' _ _ _
    grown settled ih
  | @plain opened g site key outer params r below rule written untemplated _ distinct' _ grown
      settled ih =>
    cases List.mem_singleton.mp hq
    cases List.mem_singleton.mp hid
    have hr := hd.found r (by simp)
    cases comes with
    | here _ found' =>
      cases hr.symm.trans found'
      refine ⟨_, _, _, _, _, _, _, settled, ?_, hd, hshared, hg⟩
      rw [untemplated]
      exact .none
    | inside _ found' described listed comes =>
      cases hr.symm.trans found'
      rw [settled.children] at listed
      rw [settled.oid] at comes
      exact ih (hd.inner _ _) hshared (hg.enter _ _ _) (Entries.keys_nodup distinct') described
        listed comes
    | imported elsewhere => cases written.symm.trans elsewhere

theorem Grown.follows {source : Source} {opened : List Path}
    {entries : List (String × Description.Param)} (h : Grown source opened g site entries f)
    (hd : Holds d g f) (hshared : d.sharedConstraints = g.shared) (hg : Patterned d g)
    (orderly : Orderly d) (distinct : (entries.map Prod.fst).Nodup) :
    TemplatesFollowed source d site.folder f.entries entries := by
  intro oid q id declaration p templateOid hq hid comes ht
  obtain ⟨_, _, _, _, _, _, _, settled, bound, hd', hshared', hg'⟩ :=
    h.came hd hshared hg distinct hq hid comes
  rw [ht] at bound
  cases bound with
  | some known found inParams fits =>
    exact ⟨_, settled.follows fits known inParams found hd' hshared' hg' orderly⟩

/-- Who adds a type, and that it is only an array where nothing is declared. -/
theorem Grown.owners {source : Source} {opened : List Path}
    {entries : List (String × Description.Param)} (h : Grown source opened g site entries f) :
    ∀ t ∈ f.types, ∃ p ∈ f.params, t.owner = p.id ∧
      (p.declares = none → ∃ element, t.shape = .array element) := by
  induction h with
  | nil => simp
  | cons _ _ first next =>
    intro t ht
    rw [Forest.types_append, List.mem_append] at ht
    rcases ht with ht | ht
    · obtain ⟨p, hp, hshape⟩ := first t ht
      exact ⟨p, by simp [hp], hshape⟩
    · obtain ⟨p, hp, hshape⟩ := next t ht
      exact ⟨p, by simp [hp], hshape⟩
  | imported _ _ _ ih => exact ih
  | @templated _ g site oid _ _ _ p type overElements below rule _ _ _ _ _ _ copied _ settled =>
    intro t ht
    rw [Forest.types_tree, copied.types, List.nil_append] at ht
    refine ⟨p, by simp, ?_, fun _ => ?_⟩
    · rw [templatedContainer_owner rule t ht, settled.id]
    · unfold Share.types templatedContainer at ht
      split at ht
      · simp only [Option.toList_none, Option.toList_some, List.nil_append,
          List.mem_singleton] at ht
        rw [ht]
        exact ⟨type.element, rfl⟩
      · simp at ht
  | @composite _ g site oid _ _ p below rule _ _ _ _ _ _ _ _ settled ih =>
    intro t ht
    rw [Forest.types_tree, List.mem_append] at ht
    rcases ht with ht | ht
    · obtain ⟨q, hq, hshape⟩ := ih t ht
      exact ⟨q, by simp [hq], hshape⟩
    · refine ⟨p, by simp, ?_, fun hnone => ?_⟩
      · rw [compositeShare_owner t ht, settled.id]
      · cases settled.declares.symm.trans hnone
  | @plain _ g site oid _ _ p below rule _ _ _ _ _ _ settled ih =>
    intro t ht
    rw [Forest.types_tree, List.mem_append] at ht
    rcases ht with ht | ht
    · obtain ⟨q, hq, hshape⟩ := ih t ht
      exact ⟨q, by simp [hq], hshape⟩
    · cases ht

end Growth

namespace Resolved

variable {source : Source} {importRoot : Path} {description : Description.Device} {d : Device}
  {shared : List Constraint} {params commands : Forest}
  (h : Resolved source importRoot description d shared params commands)

include h

theorem orderly : Orderly d where
  stems := by
    intro p hp q hq hident
    rw [h.mem_nodes] at hp hq
    exact List.inj_on_of_nodup_map h.stems_nodup hp hq hident
  types := by
    intro t ht
    rw [← Array.mem_toList_iff, h.types, List.mem_append] at ht
    rcases ht with ht | ht
    · obtain ⟨p, hp, howner, hshape⟩ := h.params_grown.owners t ht
      exact ⟨p, by rw [howner]; exact h.found p (by simp [hp]), hshape⟩
    · obtain ⟨p, hp, howner, hshape⟩ := h.commands_grown.owners t ht
      exact ⟨p, by rw [howner]; exact h.found p (by simp [hp]), hshape⟩

theorem params_patterned : Patterned d ((start shared).after params) :=
  h.params_grown.patterned h.holds.left.found (.start d shared)

theorem patterned : Patterned d ((start shared).after (params.append commands)) := by
  rw [Ground.after_append]
  exact h.commands_grown.patterned h.holds.right.found h.params_patterned

end Resolved

end Resolve

/-- What is made after a template, in a device that came of a description. -/
structure TemplatesSound (source : Source) (importRoot : Path) (description : Description.Device)
    (d : Device) :
    Prop where
  /-- Templates come first, are no parameters above, and give the type or the element of an
  array. -/
  made : ∀ p ∈ d.nodes, ∀ t, p.template = some t → t.index < p.id.index ∧ ¬ d.Below t p.id ∧
    ∃ template, d.param? t = some template ∧ template.realm = .params ∧
      (p.type = template.type ∨ p.type = .array template.type ∧ template.type.isArray = false)
  params : TemplatesFollowed source d importRoot d.params description.params
  commands : TemplatesFollowed source d importRoot d.commands description.commands

theorem resolved_templatesSound {ns : String} {description : Description.Device} {importRoot : Path}
    {source : Source} {d : Device}
    (h : (resolveDevice ns description importRoot source).result = .ok d) :
    TemplatesSound source importRoot description d := by
  obtain ⟨shared, params, commands, hr⟩ := resolveDevice_resolved h
  constructor
  case made =>
    intro p hp t ht
    rw [hr.mem_nodes] at hp
    obtain ⟨template, rfl, pattern⟩ := hr.patterned.made p (List.mem_append_right _ hp) t ht
    refine ⟨pattern.before _ .self, fun habove => ?_, template, pattern.found, pattern.realm,
      pattern.type⟩
    exact Nat.lt_irrefl _ (pattern.before _ habove)
  case params =>
    rw [hr.params_eq]
    exact hr.params_grown.follows hr.holds.left hr.shared_eq (.start d shared) hr.orderly
      (Entries.keys_nodup hr.distinctParams)
  case commands =>
    rw [hr.commands_eq]
    exact hr.commands_grown.follows hr.holds.right hr.shared_eq hr.params_patterned hr.orderly
      (Entries.keys_nodup hr.distinctCommands)

/-- An array of what the parameter `point` is. -/
def arrayOfPoints : Declaration :=
  { Declaration.ofType "STRUCT_ARRAY" with template := some "point" }

/-- A struct, an array of it, and an import. -/
def pointAndPath : Description.Device :=
  .small
    [("point", ⟨.ofType "STRUCT", [("x", ⟨.ofType "INT32", []⟩)]⟩), ("path", ⟨arrayOfPoints, []⟩),
      ("last", ⟨{ Declaration.ofType "INT32" with source := some ⟨none, some "last.json"⟩ }, []⟩)]
    []

/-- What is imported has a template that is a copy itself. -/
def lastOfPath : Source :=
  (Documents.ofList
    [("params/last.json", "\x7b\"type\": \"INT32\", \"template_oid\": \"/path/x\"\x7d")]).source

theorem pointAndPath_templatesSound :
    ∃ d, (resolveDevice "m" pointAndPath ⟨"params"⟩ lastOfPath).result = .ok d ∧
      d.nodes.toList.map (fun p => (p.fqoid, p.template)) =
        [("/point", none), ("/point/x", none), ("/path", some ⟨0⟩), ("/path/x", none),
          ("/last", some ⟨3⟩)] ∧
      TemplatesSound lastOfPath ⟨"params"⟩ pointAndPath d ∧
      ∃ p template, p.fqoid = "/path" ∧ Follows d arrayOfPoints "point" template p := by
  have hok : ((resolveDevice "m" pointAndPath ⟨"params"⟩ lastOfPath).result.toOption.map fun d =>
      (d.params, d.nodes.toList.map fun p => (p.fqoid, p.template))) = some
        ([("point", ⟨0⟩), ("path", ⟨2⟩), ("last", ⟨4⟩)],
          [("/point", none), ("/point/x", none), ("/path", some ⟨0⟩), ("/path/x", none),
              ("/last", some ⟨3⟩)]) := by
    decide +kernel
  obtain ⟨d, hd, heq⟩ := ok_of_toOption hok
  obtain ⟨hparams, hnodes⟩ := Prod.mk.inj heq
  have hsound := resolved_templatesSound hd
  refine ⟨d, hd, hnodes, hsound, ?_⟩
  have hpath := congrArg (fun nodes => nodes[2]?) hnodes
  rw [List.getElem?_map] at hpath
  obtain ⟨p, hp, hfqoid⟩ := Option.map_eq_some_iff.mp hpath
  have hfound : d.param? ⟨2⟩ = some p := by
    rw [Device.param?, ← Array.getElem?_toList]
    exact hp
  obtain ⟨template, follows⟩ := hsound.params "path" ⟨arrayOfPoints, []⟩ ⟨2⟩ arrayOfPoints p "point"
    (by simp [pointAndPath, Description.Device.small]) (by simp [hparams]) (.here rfl hfound) rfl
  exact ⟨p, template, congrArg Prod.fst hfqoid, follows⟩

end DeviceModel
