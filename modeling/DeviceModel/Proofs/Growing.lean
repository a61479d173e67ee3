import DeviceModel.Proofs.Copying

namespace DeviceModel.Resolve

open Description (Declaration Import)

variable {s s' : Progress} {g : Ground} {site : Site} {oid : String}

/-- The constraint is settled right after the parameter is entered. -/
theorem ownConstraint_ruled {c : Option Description.Constraint} {own : Option ConstraintId}
    {p : Param} (hs : Stands s (g.enter site.realm (site.fqoid oid) none))
    (hp : s.device.param? ⟨g.count⟩ = some p) (hrealm : p.realm = site.realm)
    (hfqoid : p.fqoid = site.fqoid oid) (hnew : s.constrained.lookup ⟨g.count⟩ = none)
    (h : (c.mapM (ownConstraint ⟨g.count⟩)).run s = .ok own s') :
    ∃ rule, Ruled g site oid c rule own ∧ Stands s' (g.enter site.realm (site.fqoid oid) rule) ∧
      s'.device.nodes = s.device.nodes ∧ SameFrame s.device s'.device := by
  cases c with
  | none =>
    obtain ⟨rfl, rfl⟩ := pure_ok.mp h
    exact ⟨none, .none, hs, rfl, .refl _⟩
  | some c =>
    rw [Option.mapM_some, map_ok] at h
    obtain ⟨k, hk, rfl⟩ := h
    obtain ⟨t, hdeclared, rfl⟩ := (ownConstraint_ok hp hnew).mp hk
    rcases declaredConstraint_ok hdeclared with ⟨r, hr, ht, hf, rfl⟩ | ⟨rule, hr, hrule, rfl, rfl⟩
    · rw [hs.shared] at hf
      exact ⟨none, .shared hr ht hf, hs.settle (Nat.lt_succ_self _) k, rfl, .refl _⟩
    · have hsize : s.device.constraints.size = g.constraints.length := by
        rw [← Array.length_toList, hs.constraints]
        simp
      rw [Param.ident, hrealm, hfqoid]
      rw [hfqoid] at hrule
      rw [hsize]
      refine ⟨_, .inline hr hrule, .settle ?_ (Nat.lt_succ_self _) _, rfl, rfl⟩
      simpa [Ground.enter] using hs.constrain
        ⟨site.fqoid oid, Param.identOf site.realm (site.fqoid oid), some ⟨g.count⟩, rule⟩

/-- A template is a finished parameter. -/
theorem bindTemplate_known {fqoid templateOid : String} {declared : TypeCode} {b : Binding}
    (hs : Stands s g) (h : (bindTemplate fqoid declared templateOid).run s = .ok b s') :
    ∃ template type overElements log, template ∈ g.known ∧
      template.fqoid = completeOid templateOid ∧
      template.realm = .params ∧
      ValueType.ofTemplate? declared template.type = some (type, overElements) ∧
      b = bindingOf template type overElements ∧ { s with log } = s' := by
  obtain ⟨id, template, type, overElements, log, hi, hp, ho, rfl, rfl⟩ := bindTemplate_ok h
  obtain ⟨q, hq, rfl, hf, hr⟩ := hs.registry _ _ hi
  cases Option.some.inj (hp.symm.trans (hs.known q hq))
  exact ⟨template, type, overElements, log, hq, hf, hr, ho, rfl, rfl⟩

/-- A parameter that is entered but not finished. -/
structure Entered (s : Progress) (g : Ground) (p : Param) : Prop where
  found : s.device.param? ⟨g.count⟩ = some p
  bare : p.children = []
  old : ∀ q ∈ g.known, q.id.index < g.count

theorem Entered.open' {p : Param} (h : Entered s g p) : ∀ q ∈ g.known, q.id ≠ ⟨g.count⟩ := by
  intro q hq he
  have hlt := h.old q hq
  rw [he] at hlt
  exact Nat.lt_irrefl _ hlt

/-- Nothing is added below a parameter. -/
theorem Sprouted.nothing {id : ParamId} {p : Param} (hs : Stands s g)
    (found : s.device.param? id = some p) (bare : p.children = []) :
    Sprouted s s g id p .nil [] where
  stands := by simpa using hs
  nodes := by
    have hp : { p with children := Forest.nil.entries } = p := by
      rw [Forest.entries_nil, ← bare]
    have hget : s.device.nodes.toList[id.index]? = some p := by
      rw [Array.getElem?_toList]
      exact found
    obtain ⟨hlt, he⟩ := List.getElem?_eq_some_iff.mp hget
    rw [hp, Forest.params_nil, List.append_nil, ← he, List.set_getElem_self]
  frame := .refl _

/-- A type is added after what is below the parameter. -/
theorem Sprouted.addType {id : ParamId} {p : Param} {below : Forest} {added : List TypeDecl}
    (h : Sprouted s s' g id p below added) (t : TypeDecl) :
    Sprouted s (withType s' t) g id p below (added ++ [t]) where
  stands := by simpa using h.stands.addType t
  nodes := h.nodes
  frame := h.frame.trans rfl

section Types

variable {realm : Realm} {fqoid : String} {rule : Option Constraint} {p : Param}

/-- The type of a parameter with a template: the template's, with a container over its elements. -/
theorem inherit_sprouted {bare : Bool} {template : Param} {type : ValueType} {overElements : Bool}
    {typing : Typing} (hs : Stands s (g.enter site.realm (site.fqoid oid) rule))
    (hp : Entered s g p) (hrealm : p.realm = site.realm) (hfqoid : p.fqoid = site.fqoid oid)
    (hid : p.id = ⟨g.count⟩) (known : template ∈ g.known)
    (h : (Resolve.inherit site oid ⟨g.count⟩ bare (bindingOf template type overElements)).run s =
      .ok typing s') :
    bare = true ∧ ∃ below,
      Copied site.realm (g.enter site.realm (site.fqoid oid) rule) ⟨g.count⟩ (site.fqoid oid)
        template.children below ∧
      ((templatedContainer g site oid type overElements).isSome →
        site.scope.getLast? ≠ some (Text.capitalize oid)) ∧
      typing = templatedTyping g template type overElements ∧
      Sprouted s s' (g.enter site.realm (site.fqoid oid) rule) ⟨g.count⟩ p below
        (templatedContainer g site oid type overElements).toList := by
  unfold Resolve.inherit at h
  cases bare with
  | false =>
    simp only [Bool.false_eq_true, if_false, bind_ok] at h
    obtain ⟨_, _, h, _⟩ := h
    exact (throw_ok.mp h).elim
  | true =>
    simp only [if_true, instantiate, bind_ok, device_ok] at h
    obtain ⟨_, t, ⟨_, _, ⟨rfl, rfl⟩, hcopy⟩, h⟩ := h
    obtain ⟨below, copied, sprouted⟩ := copyChildren_copies _ hs hp.found hid hp.open' known hcopy
    rw [hrealm, hfqoid] at copied
    refine ⟨rfl, below, copied, ?_⟩
    cases overElements with
    | false =>
      simp only [bindingOf, Bool.false_eq_true, if_false, bind_ok, param_ok, pure_ok] at h
      obtain ⟨q, _, ⟨hq, rfl⟩, rfl, rfl⟩ := h
      -- The template is finished, so copies of what is below it leave it as it is.
      have hkept := sprouted.stands.known template (List.mem_append_left _ known)
      cases Option.some.inj (hq.symm.trans hkept)
      exact ⟨by simp [templatedContainer], by simp [templatedTyping],
        by simpa [templatedContainer] using sprouted⟩
    | true =>
      cases ht : type.element.declared?.isSome with
      | false =>
        simp only [bindingOf, if_true, ht, Bool.false_eq_true, if_false, pure_ok] at h
        obtain ⟨rfl, rfl⟩ := h
        exact ⟨by simp [templatedContainer, ht], by simp [templatedTyping, ht],
          by simpa [templatedContainer, ht] using sprouted⟩
      | true =>
        simp only [bindingOf, if_true, ht, bind_ok, checkNested_ok, declareContainer_ok,
          pure_ok] at h
        obtain ⟨_, _, ⟨hn, rfl⟩, _, _, ⟨rfl, rfl⟩, rfl, rfl⟩ := h
        have hsize : t.device.types.size = g.types.length := by
          rw [← Array.length_toList, sprouted.stands.types, copied.types]
          simp
        refine ⟨fun _ => hn, by simp [templatedTyping, ht, hsize], ?_⟩
        simpa [templatedContainer, ht] using sprouted.addType _

variable {source : Source} {opened : List Path} {block : Block}
  {params : List (String × Description.Param)}

/-- What resolving a block of parameters does, wherever it stands. -/
def GrowsInto (source : Source) (opened : List Path) (block : Block)
    (params : List (String × Description.Param)) : Prop :=
  ∀ {s s' : Progress} {g : Ground} {site : Site} {ids : Entries ParamId}, Stands s g →
    Located s site → (block site.toSlot).run s = .ok ids s' →
    Entries.duplicate? params = none ∧
      ∃ f, Grown source opened g site params f ∧ ids = f.entries ∧ Grew s s' g f

/-- Children are resolved, entered in their parent and read back. -/
theorem resolveChildren_sprouted {inner : Site} {children : List Param}
    (hb : GrowsInto source opened block params)
    (hs : Stands s (g.enter site.realm (site.fqoid oid) rule)) (hp : Entered s g p)
    (hinner : Located s inner)
    (h : (resolveChildren block fqoid ⟨g.count⟩ inner.toSlot).run s = .ok children s') :
    Entries.duplicate? params = none ∧ ∃ below,
      Grown source opened (g.enter site.realm (site.fqoid oid) rule) inner params below ∧
      children = below.roots ∧
      Sprouted s s' (g.enter site.realm (site.fqoid oid) rule) ⟨g.count⟩ p below [] := by
  simp only [resolveChildren, bind_ok, updateParam_ok, childrenOf_ok] at h
  obtain ⟨ids, t, hids, _, _, ⟨q, hq, rfl⟩, hchildren, rfl⟩ := h
  obtain ⟨hd, below, grown, rfl, grew⟩ := hb hs hinner hids
  cases Option.some.inj (hq.symm.trans (grew.param? hp.found))
  have sprouted := Sprouted.of_grew grew hp.found hp.open' grown.numbered hs
  have hroots := Forest.children?_eq (sprouted.param? hp.found) rfl fun r hr =>
    sprouted.stands.known r (List.mem_append_right _ (Forest.mem_params_of_mem_roots hr))
  exact ⟨hd, below, grown, Option.some.inj (hchildren.symm.trans hroots), sprouted⟩

/-- What is below a parameter that is entered is located by its oid. -/
theorem Entered.located (hp : Entered s g p) (hfqoid : p.fqoid = site.fqoid oid) (scope : String) :
    Located s (site.below oid ⟨g.count⟩ scope) := ⟨p, hp.found, hfqoid⟩

/-- A struct or variant is declared after what is below it, and its container after that. -/
theorem declare_sprouted {bare : Bool} {declared : TypeCode} {typing : Typing}
    (hb : GrowsInto source opened block params)
    (hs : Stands s (g.enter site.realm (site.fqoid oid) rule)) (hp : Entered s g p)
    (hfqoid : p.fqoid = site.fqoid oid)
    (h : (declare block site oid ⟨g.count⟩ bare declared).run s = .ok typing s') :
    Entries.duplicate? params = none ∧ (bare = true → makesStruct declared = true) ∧
      site.scope.getLast? ≠ some (elementName oid declared) ∧
      (declared.isArray = true → site.scope.getLast? ≠ some (Text.capitalize oid)) ∧ ∃ below,
      Grown source opened (g.enter site.realm (site.fqoid oid) rule)
        (site.below oid ⟨g.count⟩ (innerName oid declared)) params below ∧
      typing = compositeTyping g declared below ∧
      Sprouted s s' (g.enter site.realm (site.fqoid oid) rule) ⟨g.count⟩ p below
        (compositeShare g site oid declared rule below).types := by
  simp only [declare, bind_ok, addType_ok] at h
  obtain ⟨_, _, hnames, children, t, hchildren, _, _, halternatives, _, _, ⟨rfl, rfl⟩, h⟩ := h
  obtain ⟨hn, ha, rfl⟩ := checkNames_ok hnames
  obtain ⟨hd, below, grown, rfl, sprouted⟩ :=
    resolveChildren_sprouted hb hs hp (hp.located hfqoid _) hchildren
  obtain ⟨hsome, rfl⟩ := checkAlternatives_ok halternatives
  refine ⟨hd, hsome, hn, ha, below, grown, ?_⟩
  have hsize : t.device.types.size = g.types.length + below.types.length := by
    rw [← Array.length_toList, sprouted.stands.types]
    simp
  rw [hsize] at h
  have added :=
    sprouted.addType
    ⟨elementName oid declared, site.scope, ⟨g.count⟩, elementShape declared below.roots⟩
  cases harray : declared.isArray with
  | false =>
    simp only [harray, Bool.false_eq_true, if_false, pure_ok] at h
    obtain ⟨rfl, rfl⟩ := h
    exact ⟨by simp [compositeTyping, harray], by simpa [compositeShare, Share.types,
      harray] using added⟩
  | true =>
    simp only [harray, if_true, bind_ok, declareContainer_ok, pure_ok] at h
    obtain ⟨_, _, ⟨rfl, rfl⟩, rfl, rfl⟩ := h
    refine ⟨by simp [compositeTyping, harray, withType, hsize], ?_⟩
    simpa [compositeShare, Share.types, harray] using added.addType
      ⟨Text.capitalize oid, site.scope, ⟨g.count⟩,
        .array (elementType declared ⟨g.types.length + below.types.length⟩)⟩

/-- Only a command has anything below it without a type of its own. -/
theorem undeclared_sprouted {declared : TypeCode} {typing : Typing}
    (hb : GrowsInto source opened block params)
    (hs : Stands s (g.enter site.realm (site.fqoid oid) rule)) (hp : Entered s g p)
    (hfqoid : p.fqoid = site.fqoid oid)
    (h : (undeclared block site oid ⟨g.count⟩ params.isEmpty declared).run s = .ok typing s') :
    Entries.duplicate? params = none ∧ (params = [] ∨ site.isCommand = true) ∧ ∃ below,
      Grown source opened (g.enter site.realm (site.fqoid oid) rule)
        (site.below oid ⟨g.count⟩ (holderName oid)) params below ∧
      typing = plainTyping declared ∧
      Sprouted s s' (g.enter site.realm (site.fqoid oid) rule) ⟨g.count⟩ p below [] := by
  unfold undeclared at h
  cases params with
  | nil =>
    simp only [List.isEmpty_nil, if_true, pure_ok] at h
    obtain ⟨rfl, rfl⟩ := h
    exact ⟨rfl, .inl rfl, .nil, .nil, rfl, .nothing hs hp.found hp.bare⟩
  | cons e params =>
    simp only [List.isEmpty_cons, Bool.false_eq_true, if_false] at h
    cases hc : site.isCommand with
    | false =>
      simp only [hc, Bool.false_eq_true, if_false, bind_ok] at h
      obtain ⟨_, _, h, _⟩ := h
      exact (throw_ok.mp h).elim
    | true =>
      simp only [hc, if_true, bind_ok, pure_ok] at h
      obtain ⟨_, _, hchildren, rfl, rfl⟩ := h
      obtain ⟨hd, below, grown, -, sprouted⟩ :=
        resolveChildren_sprouted hb hs hp (hp.located hfqoid _) hchildren
      exact ⟨hd, .inr rfl, below, grown, rfl, sprouted⟩

end Types

section Params

variable {d : Declaration} {params : List (String × Description.Param)} {source : Source}
  {opened : List Path}

/-- The parameter as it is entered in the arena. -/
def entered (g : Ground) (site : Site) (oid : String) (declared : TypeCode) (d : Declaration) :
    Param :=
  { blank site oid declared d with id := ⟨g.count⟩ }

/-- A settled parameter takes its place before those below it, and is finished. -/
theorem Settled.grew {t u : Progress} {declared : TypeCode} {binding : Option Binding}
    {typing : Typing} {below : Forest} {own : Share} {p : Param}
    (settled : Settled g site oid d binding typing below own p) (hs : Stands s g)
    (nodes : t.device.nodes = s.device.nodes.push (entered g site oid declared d))
    (frame : SameFrame s.device t.device)
    (sprouted : Sprouted t u (g.enter site.realm (site.fqoid oid) own.rule) ⟨g.count⟩
      (entered g site oid declared d) below own.types)
    (numbered : Numbered (g.count + 1) below) :
    Grew s (withFinished (withChanged u ⟨g.count⟩ p) site.realm (site.fqoid oid) ⟨g.count⟩) g
      (.tree p own below) := by
  have hchanged := sprouted.stands.change ⟨g.count⟩ p (by
    intro q hq he
    rcases List.mem_append.mp hq with hq | hq
    · have hlt := hs.index_lt hq
      rw [he] at hlt
      exact Nat.lt_irrefl _ hlt
    · have hle := (numbered.mem hq).1
      rw [he] at hle
      exact Nat.lt_irrefl _ hle)
  have hnodes : (withChanged u ⟨g.count⟩ p).device.nodes.toList =
      s.device.nodes.toList ++ p :: below.params := by
    have hlen : g.count = s.device.nodes.toList.length := by rw [Array.length_toList, hs.count]
    simp only [withChanged, Array.toList_setIfInBounds, sprouted.nodes, nodes, Array.toList_push]
    rw [List.set_append_left _ _ (by simp [hlen]), List.set_set,
      List.set_append_right _ _ (by simp [hlen])]
    simp [hlen]
  have key := Grew.finish (s := s) (g := g) (p := p)
    (by rw [settled.realm, settled.fqoid]; exact hchanged) hnodes
    (by rw [settled.id]; exact hs.count) settled.children (frame.trans (sprouted.frame.trans rfl))
  rw [settled.realm, settled.fqoid, settled.id] at key
  exact key

/-- Once its type is settled, a parameter is checked against its constraint, takes its value, and is
finished. -/
theorem finish_grew {t u v : Progress} {declared : TypeCode} {binding : Option Binding}
    {typing : Typing} {below : Forest} {ownId : Option ConstraintId} {initial : Option Initializer}
    {q : Param} (own : Share) (hs : Stands s g) (hdeclared : declaredType site oid d = .ok declared)
    (fresh : g.idents.get? (Param.identOf site.realm (site.fqoid oid)) = none)
    (ruled : Ruled g site oid d.constraint own.rule ownId)
    (nodes : t.device.nodes = s.device.nodes.push (entered g site oid declared d))
    (frame : SameFrame s.device t.device)
    (sprouted : Sprouted t u (g.enter site.realm (site.fqoid oid) own.rule) ⟨g.count⟩
      (entered g site oid declared d) below own.types)
    (numbered : Numbered (g.count + 1) below)
    (hcheck : ((ownId <|> binding.bind Binding.constraint).forM
      (checkConstraint (site.fqoid oid) typing.type)).run u = .ok () v)
    (hvalue : (settleValue (site.fqoid oid) typing.type (binding.bind Binding.value) d.value).run
      v = .ok initial s')
    (hq : s'.device.param? ⟨g.count⟩ = some q) :
    ∃ p, p.declared = declared ∧ Settled g site oid d binding typing below own p ∧
      Grew s (withFinished (withChanged s' ⟨g.count⟩ { q with
          type := typing.type
          declares := typing.declares
          container := typing.container
          template := binding.map Binding.template
          constraint := ownId <|> binding.bind Binding.constraint
          value := initial }) q.realm q.fqoid ⟨g.count⟩) g
        (.tree p own below) := by
  obtain ⟨hchecked, rfl⟩ := checkConstraints_ok hcheck
  obtain ⟨hgiven, hungiven, rfl⟩ := settleValue_ok hvalue
  have hentered : t.device.param? ⟨g.count⟩ = some (entered g site oid declared d) := by
    simp [Device.param?, nodes, ← hs.count]
  cases Option.some.inj (hq.symm.trans (sprouted.param? hentered))
  have htypes : u.device.types = (g.types ++ below.types ++ own.types).toArray := by
    apply Array.toList_inj.mp
    rw [sprouted.stands.types]
    simp
  have hconstraint : ∀ c, u.device.constraint? c =
      (g.constraints ++ own.rule.toList ++ below.constraints)[c.index]? := by
    intro c
    rw [Device.constraint?, ← Array.getElem?_toList, sprouted.stands.constraints]
    simp
  rw [htypes] at hgiven
  simp only [hconstraint] at hchecked
  have settled : Settled g site oid d binding typing below own
      { entered g site oid declared d with
        type := typing.type
        declares := typing.declares
        container := typing.container
        template := binding.map Binding.template
        constraint := ownId <|> binding.bind Binding.constraint
        value := initial
        children := below.entries } :=
    ⟨hdeclared, rfl, fresh, ⟨ownId, ruled, rfl⟩, hchecked, hgiven, hungiven⟩
  exact ⟨_, rfl, settled, settled.grew hs nodes frame sprouted numbered⟩

/-- A parameter that is written out grows into a tree. -/
theorem resolveDeclared_grew {block : Block} {id : ParamId}
    (hb : GrowsInto source opened block params) (here : d.source = none) (hs : Stands s g)
    (h : (resolveDeclared block params.isEmpty site oid d).run s = .ok id s') :
    ∃ f, Grown source opened g site [(oid, ⟨d, params⟩)] f ∧ f.entries = [(oid, id)] ∧
      Grew s s' g f := by
  simp only [resolveDeclared, bind_ok, lift_ok, note_ok, enterParam_ok, updateParam_ok, register_ok,
    pure_ok] at h
  obtain ⟨declared, _, ⟨hdeclared, rfl⟩, _, _, rfl, _, _, ⟨rfl, fresh, rfl⟩, ownId, t, hown,
    binding, t', hbinding, typing, u, htyping, _, v, hcheck, initial, w, hvalue, _, _,
    ⟨q, hq, rfl⟩, _, _, ⟨q', hq', rfl⟩, rfl, rfl⟩ := h
  -- What is registered is the parameter as it was just completed.
  rw [param?_withChanged hq] at hq'
  cases hq'
  rw [hs.count] at hown htyping hq ⊢
  obtain ⟨rule, ruled, ht, hnodes, hframe⟩ := ownConstraint_ruled
    ((hs.log _).enter (blank site oid declared d))
      ((hs.log _).param?_enter _) rfl rfl hs.unsettled hown
  have nodes : t.device.nodes = s.device.nodes.push (entered g site oid declared d) := by
    rw [hnodes]
    simp [withEntered, withIdent, withParam, entered, hs.count]
  have hfound : t.device.param? ⟨g.count⟩ = some (entered g site oid declared d) := by
    simp [Device.param?, nodes, ← hs.count]
  have hentered : Entered t g (entered g site oid declared d) :=
    ⟨hfound, rfl, fun q hq => hs.index_lt hq⟩
  rw [hs.idents] at fresh
  cases htemplate : d.template with
  | none =>
    rw [htemplate] at hbinding
    obtain ⟨rfl, rfl⟩ := pure_ok.mp hbinding
    cases hdeclares : declared.declaresType with
    | true =>
      simp only [settleType, hdeclares, if_true] at htyping
      obtain ⟨distinct, some, apart, arrayApart, below, grown, rfl, sprouted⟩ :=
        declare_sprouted hb ht hentered rfl htyping
      obtain ⟨p, rfl, settled, grew⟩ := finish_grew (compositeShare g site oid declared rule below)
        hs hdeclared fresh ruled nodes hframe sprouted grown.numbered hcheck hvalue hq
      refine ⟨_, .composite here htemplate hdeclares distinct (by simpa using some) apart arrayApart
        grown settled, ?_, grew⟩
      rw [Forest.entries_tree, settled.oid, settled.id]
    | false =>
      simp only [settleType, hdeclares, Bool.false_eq_true, if_false] at htyping
      obtain ⟨distinct, allowed, below, grown, rfl, sprouted⟩ :=
        undeclared_sprouted hb ht hentered rfl htyping
      obtain ⟨p, rfl, settled, grew⟩ := finish_grew { rule } hs hdeclared fresh ruled nodes
        hframe sprouted grown.numbered hcheck hvalue hq
      refine ⟨_, .plain here htemplate hdeclares distinct allowed grown settled, ?_, grew⟩
      rw [Forest.entries_tree, settled.oid, settled.id]
  | some templateOid =>
    rw [htemplate, Option.mapM_some, map_ok] at hbinding
    obtain ⟨b, hb', rfl⟩ := hbinding
    obtain ⟨template, type, overElements, log, known, found, inParams, fits, rfl, rfl⟩ :=
      bindTemplate_known ht hb'
    have hentered' : Entered { t with log } g (entered g site oid declared d) :=
      ⟨hfound, rfl, hentered.old⟩
    obtain ⟨hbare, below, copied, apart, rfl, sprouted⟩ := inherit_sprouted
      (ht.log log) hentered' rfl rfl rfl known htyping
    obtain ⟨p, rfl, settled, grew⟩ := finish_grew (t := { t with log })
      { rule, container := templatedContainer g site oid type overElements } hs hdeclared fresh
        ruled nodes hframe
      sprouted copied.numbered hcheck hvalue hq
    cases List.isEmpty_iff.mp hbare
    refine ⟨_, .templated here htemplate known found inParams fits copied apart settled, ?_, grew⟩
    rw [Forest.entries_tree, settled.oid, settled.id]

end Params

end DeviceModel.Resolve
