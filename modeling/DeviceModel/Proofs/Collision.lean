import DeviceModel.Proofs.Oids
import DeviceModel.Proofs.Placement

namespace DeviceModel.Cpp

open Resolve

/-- No two types have the same qualified name, and none has that of a holder. -/
structure CollisionFree (d : Device) : Prop where
  types : (d.types.toList.map TypeDecl.qualifiedName).Nodup
  holders : ∀ t ∈ d.types.toList, ∀ w ∈ typesWritten d, ∀ name inStruct,
    w.opens = some (name, .holder inStruct) → t.qualifiedName ≠ Text.join "::" (w.nest ++ [name])

/-- Parameters with the same parent are neighbours, outermost ones too. So are parameters below
neighbours of the same oid which are no structs: a parameter and a command may share one holder. -/
inductive Neighbours (d : Device) : Param → Param → Prop where
  | siblings {p q : Param} (same : p.parent = q.parent) : Neighbours d p q
  | held {p q above above' : Param} (child : p.parent = some above.id)
      (child' : q.parent = some above'.id)
      (found : d.param? above.id = some above) (found' : d.param? above'.id = some above')
      (oid : above.oid = above'.oid) (unstructured : makesStruct above.declared = false)
      (unstructured' : makesStruct above'.declared = false) (outer : Neighbours d above above') :
      Neighbours d p q

/-- A type of the first parameter has the name of a type of the second, or of its holder. -/
def Clash (d : Device) (p q : Param) : Prop :=
  ∃ name ∈ typeNames d p, name ∈ typeNames d q ∨ opensHolder d q = true ∧ name = holderName q.oid

namespace Neighbours

variable {d : Device} {p q : Param}

theorem symm (h : Neighbours d p q) : Neighbours d q p := by
  induction h with
  | siblings same => exact .siblings same.symm
  | held child child' found found' oid unstructured unstructured' _ ih =>
    exact .held child' child found' found oid.symm unstructured' unstructured ih

/-- Neighbours have one scope. -/
theorem inScope (h : Neighbours d p q) {scope : List String} (hp : Scoped d scope p) :
    Scoped d scope q := by
  induction h generalizing scope with
  | siblings same =>
    cases hp with
    | outermost root => exact .outermost (same ▸ root)
    | inside child found outer => exact .inside (same ▸ child) found outer
  | @held p q above above' child child' found found' oid unstructured unstructured' _ ih =>
    cases hp with
    | outermost root => cases root.symm.trans child
    | @inside scope above₂ _ child₂ found₂ outer =>
      rw [← Option.some.inj (child.symm.trans child₂)] at found₂
      cases found.symm.trans found₂
      have hinner : innerName above.oid above.declared = innerName above'.oid above'.declared := by
        rw [innerName, innerName, unstructured, unstructured', oid]
        rfl
      rw [hinner]
      exact .inside child' found' (ih outer)

end Neighbours

/-- A parameter has a name in its scope: of a type, or of a holder. -/
def Naming (d : Device) (p : Param) : Prop := declaresAnything d p = true ∨ opensHolder d p = true

/-- A parameter makes a block for those below it: a struct, or a holder. -/
def Enclosing (d : Device) (p : Param) : Prop :=
  p.declares.isSome = true ∧ makesStruct p.declared = true ∨ opensHolder d p = true

section Blocks

variable {d : Device} {p q : Param}

theorem naming_of_mem {name : String} (h : name ∈ typeNames d p) : Naming d p := by
  refine .inl (Bool.not_eq_false _ ▸ fun hnone => ?_)
  rw [typeNames_eq_nil_iff.mpr hnone] at h
  cases h

theorem Enclosing.naming (h : Enclosing d p) : Naming d p := by
  rcases h with ⟨hdeclares, _⟩ | hopens
  · exact .inl (by simp [declaresAnything, hdeclares])
  · exact .inr hopens

theorem opensHolder_unstructured (h : opensHolder d p = true) : makesStruct p.declared = false := by
  simp only [opensHolder, Bool.and_eq_true, Bool.not_eq_true'] at h
  exact h.1.1

theorem elementName_mem (h : p.declares.isSome = true) :
    elementName p.oid p.declared ∈ typeNames d p := by
  simp [typeNames, h]

/-- Blocks of one name are of one holder, or else something clashes. -/
theorem enclosing_cases (hp : Enclosing d p) (hq : Enclosing d q)
    (hname : innerName p.oid p.declared = innerName q.oid q.declared) :
    Clash d p q ∨ Clash d q p ∨
      p.oid = q.oid ∧ makesStruct p.declared = false ∧ makesStruct q.declared = false := by
  rcases hp with ⟨hp, hpstruct⟩ | hp <;> rcases hq with ⟨hq, hqstruct⟩ | hq
  · rw [innerName, innerName, hpstruct, hqstruct, if_pos rfl, if_pos rfl] at hname
    exact .inl ⟨_, elementName_mem hp, .inl (hname ▸ elementName_mem hq)⟩
  · rw [innerName, innerName, hpstruct, opensHolder_unstructured hq, if_pos rfl,
      if_neg Bool.false_ne_true] at hname
    exact .inl ⟨_, elementName_mem hp, .inr ⟨hq, hname⟩⟩
  · rw [innerName, innerName, hqstruct, opensHolder_unstructured hp, if_pos rfl,
      if_neg Bool.false_ne_true] at hname
    exact .inr (.inl ⟨_, elementName_mem hq, .inr ⟨hp, hname.symm⟩⟩)
  · rw [innerName, innerName, opensHolder_unstructured hp, opensHolder_unstructured hq,
      if_neg Bool.false_ne_true] at hname
    exact .inr
      (.inr ⟨by simpa [holderName] using hname, opensHolder_unstructured hp,
      opensHolder_unstructured hq⟩)

end Blocks

/-- No two neighbours clash. -/
def NoClash (d : Device) (ps : List Param) : Prop :=
  ∀ p ∈ ps, ∀ q ∈ ps, p.id ≠ q.id → Neighbours d p q → ¬ Clash d p q

section Whole

variable {source : Source} {importRoot : Path} {description : Description.Device} {d : Device}
  {shared : List Constraint} {params commands : Forest}
  (h : Resolved source importRoot description d shared params commands)

include h

theorem eq_of_id_eq {p q : Param} (hp : p ∈ (params.append commands).params)
    (hq : q ∈ (params.append commands).params) (hid : p.id = q.id) : p = q := by
  have hfound := h.found p hp
  rw [hid, h.found q hq] at hfound
  exact (Option.some.inj hfound).symm

/-- What has a name in an inner scope stands right below what makes the block. -/
theorem naming_above {p above : Param} (hp : p ∈ (params.append commands).params)
    (hnaming : Naming d p) (child : p.parent = some above.id)
    (found : d.param? above.id = some above) :
    above ∈ (params.append commands).params ∧ Enclosing d above := by
  have hplaced := resolved_allPlaced h
  rcases hplaced.parent p hp with hroot | ⟨q, hq, hparent, _, _, _, below, habove, hchild⟩
  · obtain ⟨_, _, houtermost⟩ := hplaced.mem_roots p hroot
    cases child.symm.trans houtermost.parent
  · have hsame : q = above := by
      have hfound := h.found q hq
      rw [Option.some.inj (hparent.symm.trans child), found] at hfound
      exact (Option.some.inj hfound).symm
    subst hsame
    refine ⟨hq, habove.block hchild ?_⟩
    cases hdeclares : declaresAnything d p with
    | true => rfl
    | false =>
      -- A holder without a type of its own is that of a command, and no command is a child.
      have hopens : opensHolder d p = true := hnaming.resolve_left (by simp [hdeclares])
      simp only [declaresAnything, Bool.or_eq_false_iff] at hdeclares
      simp only [opensHolder, hdeclares.1, Bool.false_or, Bool.and_eq_true] at hopens
      obtain ⟨_, _, _, _, hself⟩ := hplaced.mem p hp
      cases child.symm.trans (hself.parent.trans (hself.command hopens.1.2))

/-- Names of one scope are those of neighbours. -/
theorem neighbours_of_scope (free : NoClash d (params.append commands).params) {scope : List String}
    {p q : Param} (hp : p ∈ (params.append commands).params)
    (hq : q ∈ (params.append commands).params) (hpn : Naming d p) (hqn : Naming d q)
    (hps : Scoped d scope p) (hqs : Scoped d scope q) : Neighbours d p q := by
  induction hps generalizing q with
  | outermost root =>
    generalize hscope : ([] : List String) = scope at hqs
    cases hqs with
    | outermost root' => exact .siblings (root.trans root'.symm)
    | inside => simp at hscope
  | @inside scope above p child found outer ih =>
    generalize hscope : scope ++ [innerName above.oid above.declared] = scope' at hqs
    cases hqs with
    | outermost => simp at hscope
    | @inside scope' above' _ child' found' outer' =>
      obtain ⟨rfl, hname⟩ := List.append_inj' hscope rfl
      by_cases hid : above.id = above'.id
      · exact .siblings (by rw [child, child', hid])
      · obtain ⟨hmem, hblock⟩ := naming_above h hp hpn child found
        obtain ⟨hmem', hblock'⟩ := naming_above h hq hqn child' found'
        have hneighbours := ih hmem hmem' hblock.naming hblock'.naming outer'
        rcases enclosing_cases hblock hblock'
          (List.cons.inj hname).1 with hclash | hclash | ⟨hoid, hp', hq'⟩
        · exact absurd hclash (free _ hmem _ hmem' hid hneighbours)
        · exact absurd hclash (free _ hmem' _ hmem (Ne.symm hid) hneighbours.symm)
        · exact .held child child' found found' hoid hp' hq' hneighbours

/-- A type stands in the scope of its owner, under a name of its owner. -/
theorem type_owner {t : TypeDecl} (ht : t ∈ d.types.toList) :
    ∃ p ∈ (params.append commands).params, t.owner = p.id ∧ Scoped d t.scope p ∧
      t.name ∈ typeNames d p := by
  rw [h.types, ← Forest.types_append] at ht
  exact (resolved_allPlaced h).owner (under_outermost d) t ht

theorem type_of_name {p : Param} (hp : p ∈ (params.append commands).params) {name : String}
    (hname : name ∈ typeNames d p) :
    ∃ t ∈ d.types.toList, t.owner = p.id ∧ Scoped d t.scope p ∧ t.name = name := by
  obtain ⟨t, ht, howner, hname⟩ := (resolved_allPlaced h).declared p hp name hname
  have htypes : t ∈ d.types.toList := by rwa [h.types, ← Forest.types_append]
  obtain ⟨q, hq, howner', hscope, _⟩ := type_owner h htypes
  cases eq_of_id_eq h hq hp (howner'.symm.trans howner)
  exact ⟨t, htypes, howner, hscope, hname⟩

/-- Without collisions, neighbours do not clash. -/
theorem noClash_of_collisionFree (free : CollisionFree d) :
    NoClash d (params.append commands).params := by
  rintro p hp q hq hid hneighbours ⟨name, hname, hclash⟩
  obtain ⟨t, ht, howner, hscope, rfl⟩ := type_of_name h hp hname
  have hscope' := hneighbours.inScope hscope
  rcases hclash with hname' | ⟨hopens, hholder⟩
  · obtain ⟨u, hu, howner', huscope, huname⟩ := type_of_name h hq hname'
    have hqualified : t.qualifiedName = u.qualifiedName := by
      rw [TypeDecl.qualifiedName, TypeDecl.qualifiedName, hscope'.unique huscope, huname]
    obtain ⟨i, hi⟩ := List.mem_iff_getElem?.mp ht
    obtain ⟨j, hj⟩ := List.mem_iff_getElem?.mp hu
    have hindex : i = j := by
      refine (List.getElem?_inj ?_ free.types).mp (by simp [hi, hj, hqualified])
      simpa using (List.getElem?_eq_some_iff.mp hi).1
    rw [hindex, hj] at hi
    cases hi
    exact hid (howner.symm.trans howner')
  · have hm := (resolved_holders h).mpr ⟨q, hq, hopens, hscope', hholder⟩
    obtain ⟨w, hw, hopened⟩ := List.mem_filterMap.mp hm
    split at hopened
    · next name inStruct hwopens =>
      simp only [Option.some.injEq, Prod.mk.injEq] at hopened
      refine free.holders t ht w hw name inStruct hwopens ?_
      rw [TypeDecl.qualifiedName, hopened.1, hopened.2]
    · cases hopened

section Identifiers

variable (named : ∀ p ∈ (params.append commands).params, Text.isIdentifier p.oid = true)

include named

theorem scope_colon {scope : List String} {p : Param} (hs : Scoped d scope p) :
    ∀ s ∈ scope, ':' ∉ s.toList := by
  induction hs with
  | outermost => simp
  | @inside scope above _ _ found _ ih =>
    have hmem : above ∈ (params.append commands).params := by
      rw [Device.param?, ← Array.getElem?_toList, h.nodes, ← Forest.params_append] at found
      exact List.mem_of_getElem? found
    intro s hs
    rw [List.mem_append, List.mem_singleton] at hs
    rcases hs with hs | rfl
    · exact ih s hs
    · exact innerName_colon (named above hmem) above.declared

omit h in
theorem typeNames_colon {p : Param} (hp : p ∈ (params.append commands).params) {name : String}
    (hname : name ∈ typeNames d p) : ':' ∉ name.toList ∧ name ≠ holderName p.oid := by
  have hoid := named p hp
  simp only [typeNames, List.mem_append] at hname
  rcases hname with hname | hname
  · split at hname
    · rw [List.mem_singleton.mp hname]
      exact ⟨elementName_colon hoid _, elementName_ne_holderName hoid _⟩
    · cases hname
  · split at hname
    · cases hname
    · rw [List.mem_singleton.mp hname]
      exact ⟨Text.capitalize_colon hoid, capitalize_ne_holderName hoid⟩

/-- A qualified name has one reading. -/
theorem qualified_inj {scope scope' : List String} {name name' : String} {p q : Param}
    (hp : Scoped d scope p) (hq : Scoped d scope' q) (hname : ':' ∉ name.toList)
    (hname' : ':' ∉ name'.toList)
    (he : Text.join "::" (scope ++ [name]) = Text.join "::" (scope' ++ [name'])) :
    scope = scope' ∧ name = name' := by
  have hcolon : ∀ {scope : List String} {name : String} {p : Param}, Scoped d scope p →
      ':' ∉ name.toList →
        ∀ s ∈ scope ++ [name], ':' ∉ s.toList := by
    intro scope name p hs hname s hm
    rw [List.mem_append, List.mem_singleton] at hm
    rcases hm with hm | rfl
    · exact scope_colon h named hs s hm
    · exact hname
  have hpath := Text.join_colons_inj (hcolon hp hname) (hcolon hq hname') (by simp) (by simp) he
  obtain ⟨hscope, hlast⟩ := List.append_inj' hpath rfl
  exact ⟨hscope, (List.cons.inj hlast).1⟩

/-- Where neighbours do not clash, there are no collisions. -/
theorem collisionFree_of_noClash (free : NoClash d (params.append commands).params) :
    CollisionFree d := by
  refine ⟨?_, ?_⟩
  · have hkeys := (resolved_allPlaced h).nodup (under_outermost d) h.numbered.nodup
    rw [Forest.types_append, ← h.types, List.Nodup, List.pairwise_map] at hkeys
    rw [List.Nodup, List.pairwise_map]
    refine hkeys.imp_of_mem ?_
    intro t u ht hu hkey he
    obtain ⟨p, hp, howner, hscope, hname⟩ := type_owner h ht
    obtain ⟨q, hq, howner', hscope', hname'⟩ := type_owner h hu
    obtain ⟨hsame, hnames⟩ := qualified_inj h named hscope hscope'
      (typeNames_colon named hp hname).1 (typeNames_colon named hq hname').1 he
    have hid : p.id ≠ q.id := by
      intro hid
      exact hkey (by rw [howner, howner', hid, hnames])
    have hneighbours := neighbours_of_scope h free hp hq (naming_of_mem hname)
      (naming_of_mem hname') hscope (hsame ▸ hscope')
    exact free p hp q hq hid hneighbours ⟨t.name, hname, .inl (hnames ▸ hname')⟩
  · intro t ht w hw name inStruct hopens he
    have hm : (w.nest, name) ∈ holdersIn (typesWritten d) :=
      List.mem_filterMap.mpr ⟨w, hw, by rw [hopens]⟩
    obtain ⟨q, hq, hqopens, hscope', rfl⟩ := (resolved_holders h).mp hm
    obtain ⟨p, hp, howner, hscope, hname⟩ := type_owner h ht
    obtain ⟨hsame, hnames⟩ := qualified_inj h named hscope hscope'
      (typeNames_colon named hp hname).1 (holderName_colon (named q hq)) he
    by_cases hid : p.id = q.id
    · cases eq_of_id_eq h hp hq hid
      exact (typeNames_colon named hp hname).2 hnames
    · have hneighbours := neighbours_of_scope h free hp hq (naming_of_mem hname)
        (.inr hqopens) hscope (hsame ▸ hscope')
      exact free p hp q hq hid hneighbours ⟨t.name, hname, .inr ⟨hqopens, hnames⟩⟩

end Identifiers

end Whole

/-- Where all oids are identifiers, names collide exactly where neighbours clash. The holders are
those that the text of the header opens. -/
theorem resolved_collisionFree_iff {ns : String} {description : Description.Device}
    {importRoot : Path} {source : Source} {d : Device}
    (h : (resolveDevice ns description importRoot source).result = .ok d)
    (named : ∀ oid, OidOf source importRoot description oid → Text.isIdentifier oid = true) :
    ReadsThrough [] (typesWritten d) [] ∧ (CollisionFree d ↔ NoClash d d.nodes.toList) := by
  obtain ⟨shared, params, commands, hr⟩ := resolveDevice_resolved h
  refine ⟨declsWritten_readsThrough d (types d) [], ?_⟩
  rw [hr.nodes, ← Forest.params_append]
  constructor
  · exact noClash_of_collisionFree hr
  · exact collisionFree_of_noClash hr fun p hp => named p.oid (hr.oidOf p hp)

theorem nestedTypes_collisionFree_iff :
    (∀ oid, OidOf (Documents.source {}) ⟨"params"⟩ nestedTypes oid → Text.isIdentifier oid = true) ∧
      ∃ d, (resolveDevice "m" nestedTypes ⟨"params"⟩ (Documents.source {})).result = .ok d ∧
        d.types.size = 5 ∧
        ReadsThrough [] (typesWritten d) [] ∧ (CollisionFree d ↔ NoClash d d.nodes.toList) := by
  have hnamed : ∀ oid, OidOf (Documents.source {}) ⟨"params"⟩ nestedTypes oid →
      Text.isIdentifier oid = true :=
    fun _ => oidOf_isIdentifier (by decide +kernel)
  have hok : ((resolveDevice "m" nestedTypes ⟨"params"⟩ (Documents.source {})).result.toOption.map
      fun d => d.types.size) = some 5 := by decide +kernel
  obtain ⟨d, hd, hsize⟩ := ok_of_toOption hok
  exact ⟨hnamed, d, hd, hsize, resolved_collisionFree_iff hd hnamed⟩

/-- Two structs whose oids differ in the case of the first letter. -/
def sameCapital : Description.Device :=
  .small
    [("point", ⟨.ofType "STRUCT", [("x", ⟨.ofType "INT32", []⟩)]⟩),
      ("Point", ⟨.ofType "STRUCT", [("y", ⟨.ofType "INT32", []⟩)]⟩)]
    []

/-- Both declare a type of the same name. -/
theorem sameCapital_not_collisionFree :
    (∀ oid, OidOf (Documents.source {}) ⟨"params"⟩ sameCapital oid → Text.isIdentifier oid = true) ∧
      ∃ d, (resolveDevice "m" sameCapital ⟨"params"⟩ (Documents.source {})).result = .ok d ∧
        ¬ CollisionFree d := by
  refine ⟨fun _ => oidOf_isIdentifier (by decide +kernel), ?_⟩
  have hok : ((resolveDevice "m" sameCapital ⟨"params"⟩ (Documents.source {})).result.toOption.map
      fun d => d.types.toList.map TypeDecl.qualifiedName) = some ["Point", "Point"] := by
        decide +kernel
  obtain ⟨d, hd, hnames⟩ := ok_of_toOption hok
  refine ⟨d, hd, fun hfree => ?_⟩
  have hnodup := hfree.types
  rw [hnames] at hnodup
  simp at hnodup

end DeviceModel.Cpp
