import DeviceModel.Resolve.Device

namespace DeviceModel.Resolve

/-- A sequence succeeds through a middle result. -/
theorem except_bind_ok {ε α β : Type} {x : Except ε α} {f : α → Except ε β} {b : β} :
    (x >>= f) = .ok b ↔ ∃ a, x = .ok a ∧ f a = .ok b := by
  cases x <;> simp [bind, Except.bind]

theorem except_pure_ok {ε α : Type} {a b : α} : (pure a : Except ε α) = .ok b ↔ a = b := by
  simp [pure, Except.pure]

theorem except_mapError_ok {ε ε' α : Type} {f : ε → ε'} {x : Except ε α} {a : α} :
    x.mapError f = .ok a ↔ x = .ok a := by
  cases x <;> constructor <;> intro h <;> cases h <;> rfl

section Sequence

variable {ε σ α β : Type} {s s' : σ}

/-- A sequence succeeds through a middle state. -/
theorem bind_ok {x : EStateM ε σ α} {f : α → EStateM ε σ β} {b : β} :
    (x >>= f).run s = .ok b s' ↔ ∃ a t, x.run s = .ok a t ∧ (f a).run t = .ok b s' := by
  change EStateM.bind x f s = _ ↔ ∃ a t, x s = _ ∧ f a t = _
  unfold EStateM.bind
  cases h : x s with
  | ok a t =>
    constructor
    · intro hf
      exact ⟨a, t, rfl, hf⟩
    · rintro ⟨_, _, he, hf⟩
      cases he
      exact hf
  | error e t => simp

theorem pure_ok {a b : α} : (pure a : EStateM ε σ α).run s = .ok b s' ↔ a = b ∧ s = s' := by
  change EStateM.Result.ok a s = _ ↔ _
  simp

theorem throw_ok {e : ε} {a : α} : (throw e : EStateM ε σ α).run s = .ok a s' ↔ False := by
  change EStateM.Result.error e s = _ ↔ _
  simp

theorem map_ok {f : α → β} {x : EStateM ε σ α} {b : β} :
    (f <$> x).run s = .ok b s' ↔ ∃ a, x.run s = .ok a s' ∧ f a = b := by
  rw [map_eq_pure_bind, bind_ok]
  constructor
  · rintro ⟨a, t, hx, hp⟩
    obtain ⟨rfl, rfl⟩ := pure_ok.mp hp
    exact ⟨a, hx, rfl⟩
  · rintro ⟨a, hx, rfl⟩
    exact ⟨a, s', hx, pure_ok.mpr ⟨rfl, rfl⟩⟩

theorem get_ok {t : σ} : (get : EStateM ε σ σ).run s = .ok t s' ↔ s = t ∧ s = s' := by
  change EStateM.Result.ok s s = _ ↔ _
  simp

theorem modify_ok {f : σ → σ} {u : Unit} :
    (modify f : EStateM ε σ Unit).run s = .ok u s' ↔ f s = s' := by
  change EStateM.Result.ok () (f s) = _ ↔ _
  simp

end Sequence

variable {α β : Type} {s s' : Progress}

theorem lift_ok {e : Except ResolveError α} {a : α} :
    (lift e).run s = .ok a s' ↔ e = .ok a ∧ s = s' := by
  cases e with
  | ok b => simp [lift]
  | error e => simp [lift, throw_ok]

theorem note_ok {level : Log.Level} {target text : String} {u : Unit} :
    (note level target text).run s = .ok u s' ↔
      { s with log := s.log.push ⟨level, target, text⟩ } = s' := by
  rw [note, modify_ok]

theorem device_ok {d : Device} : device.run s = .ok d s' ↔ s.device = d ∧ s = s' := by
  simp only [device, bind_ok, get_ok, pure_ok]
  constructor
  · rintro ⟨_, _, ⟨rfl, rfl⟩, rfl, rfl⟩
    exact ⟨rfl, rfl⟩
  · rintro ⟨rfl, rfl⟩
    exact ⟨_, _, ⟨rfl, rfl⟩, rfl, rfl⟩

theorem updateDevice_ok {f : Device → Device} {u : Unit} :
    (updateDevice f).run s = .ok u s' ↔ { s with device := f s.device } = s' := by
  rw [updateDevice, modify_ok]

theorem lookUp_ok {β : Type} {oid : String} {find : Device → Option β} {b : β} :
    (lookUp oid find).run s = .ok b s' ↔ find s.device = some b ∧ s = s' := by
  simp only [lookUp, bind_ok, device_ok]
  constructor
  · rintro ⟨_, _, ⟨rfl, rfl⟩, h⟩
    cases hb : find s.device with
    | none =>
      rw [hb] at h
      exact (throw_ok.mp h).elim
    | some b' =>
      rw [hb] at h
      obtain ⟨rfl, rfl⟩ := pure_ok.mp h
      exact ⟨rfl, rfl⟩
  · rintro ⟨hb, rfl⟩
    refine ⟨_, _, ⟨rfl, rfl⟩, ?_⟩
    rw [hb]
    exact pure_ok.mpr ⟨rfl, rfl⟩

theorem param_ok {oid : String} {id : ParamId} {p : Param} :
    (param oid id).run s = .ok p s' ↔ s.device.param? id = some p ∧ s = s' := lookUp_ok

theorem constraint_ok {oid : String} {id : ConstraintId} {c : Constraint} :
    (constraint oid id).run s = .ok c s' ↔ s.device.constraint? id = some c ∧ s = s' := lookUp_ok

theorem childrenOf_ok {oid : String} {id : ParamId} {children : List Param} :
    (childrenOf oid id).run s = .ok children s' ↔ s.device.children? id = some children ∧ s = s' :=
  lookUp_ok

/-- The progress after a new parameter. -/
def withParam (s : Progress) (p : Param) : Progress :=
  { s with
    device := { s.device with
      nodes := s.device.nodes.push { p with id := ⟨s.device.nodes.size⟩ } } }

theorem addParam_ok {p : Param} {id : ParamId} :
    (addParam p).run s = .ok id s' ↔ ⟨s.device.nodes.size⟩ = id ∧ withParam s p = s' := by
  simp only [addParam, bind_ok, device_ok, updateDevice_ok, pure_ok]
  constructor
  · rintro ⟨_, _, ⟨rfl, rfl⟩, _, _, rfl, rfl, rfl⟩
    exact ⟨rfl, rfl⟩
  · rintro ⟨rfl, rfl⟩
    exact ⟨_, _, ⟨rfl, rfl⟩, (), _, rfl, rfl, rfl⟩

/-- The progress after a parameter is replaced. -/
def withChanged (s : Progress) (id : ParamId) (p : Param) : Progress :=
  { s with device := { s.device with nodes := s.device.nodes.setIfInBounds id.index p } }

theorem updateParam_ok {oid : String} {id : ParamId} {f : Param → Param} {u : Unit} :
    (updateParam oid id f).run s = .ok u s' ↔
      ∃ p, s.device.param? id = some p ∧ withChanged s id (f p) = s' := by
  simp only [updateParam, bind_ok, param_ok, updateDevice_ok]
  constructor
  · rintro ⟨p, _, ⟨hp, rfl⟩, rfl⟩
    exact ⟨p, hp, rfl⟩
  · rintro ⟨p, hp, rfl⟩
    exact ⟨p, s, ⟨hp, rfl⟩, rfl⟩

theorem param?_withChanged {id : ParamId} {p q : Param} (hp : s.device.param? id = some p) :
    (withChanged s id q).device.param? id = some q := by
  have hlt := (Array.getElem?_eq_some_iff.mp hp).1
  rw [Device.param?, withChanged, Array.getElem?_setIfInBounds_self_of_lt hlt]

/-- The progress after a new constraint. -/
def withConstraint (s : Progress) (c : Constraint) : Progress :=
  { s with device := { s.device with constraints := s.device.constraints.push c } }

theorem addConstraint_ok {c : Constraint} {id : ConstraintId} :
    (addConstraint c).run s = .ok id s' ↔ ⟨s.device.constraints.size⟩ = id ∧
      withConstraint s c = s' := by
  simp only [addConstraint, bind_ok, device_ok, updateDevice_ok, pure_ok]
  constructor
  · rintro ⟨_, _, ⟨rfl, rfl⟩, _, _, rfl, rfl, rfl⟩
    exact ⟨rfl, rfl⟩
  · rintro ⟨rfl, rfl⟩
    exact ⟨_, _, ⟨rfl, rfl⟩, (), _, rfl, rfl, rfl⟩

/-- The progress after a new type. -/
def withType (s : Progress) (t : TypeDecl) : Progress :=
  { s with device := { s.device with types := s.device.types.push t } }

theorem addType_ok {t : TypeDecl} {id : TypeId} :
    (addType t).run s = .ok id s' ↔ ⟨s.device.types.size⟩ = id ∧ withType s t = s' := by
  simp only [addType, bind_ok, device_ok, updateDevice_ok, pure_ok]
  constructor
  · rintro ⟨_, _, ⟨rfl, rfl⟩, _, _, rfl, rfl, rfl⟩
    exact ⟨rfl, rfl⟩
  · rintro ⟨rfl, rfl⟩
    exact ⟨_, _, ⟨rfl, rfl⟩, (), _, rfl, rfl, rfl⟩

/-- A parameter as it is when it is entered. -/
theorem param?_withParam (s : Progress) (p : Param) :
    (withParam s p).device.param? ⟨s.device.nodes.size⟩ =
      some { p with id := ⟨s.device.nodes.size⟩ } := by
  simp [Device.param?, withParam]

/-- The progress after the stem of a parameter's names is taken. -/
def withIdent (s : Progress) (realm : Realm) (fqoid : String) : Progress :=
  { s with idents := (Param.identOf realm fqoid, fqoid) :: s.idents }

theorem claimIdent_ok {id : ParamId} {u : Unit} :
    (claimIdent id).run s = .ok u s' ↔ ∃ p, s.device.param? id = some p ∧
      s.idents.get? p.ident = none ∧ withIdent s p.realm p.fqoid = s' := by
  simp only [claimIdent, bind_ok, param_ok, get_ok]
  constructor
  · rintro ⟨p, _, ⟨hp, rfl⟩, _, _, ⟨rfl, rfl⟩, h⟩
    refine ⟨p, hp, ?_⟩
    cases hn : s.idents.get? p.ident with
    | none =>
      rw [hn] at h
      exact ⟨rfl, modify_ok.mp h⟩
    | some other =>
      rw [hn] at h
      exact (throw_ok.mp h).elim
  · rintro ⟨p, hp, hn, rfl⟩
    refine ⟨p, _, ⟨hp, rfl⟩, _, _, ⟨rfl, rfl⟩, ?_⟩
    rw [hn]
    exact modify_ok.mpr rfl

/-- The progress after a parameter is entered with the stem of its names. -/
def withEntered (s : Progress) (p : Param) : Progress :=
  withIdent (withParam s p) p.realm p.fqoid

theorem enterParam_ok {p : Param} {id : ParamId} :
    (enterParam p).run s = .ok id s' ↔
      ⟨s.device.nodes.size⟩ = id ∧ s.idents.get? p.ident = none ∧ withEntered s p = s' := by
  simp only [enterParam, bind_ok, addParam_ok, claimIdent_ok, pure_ok]
  constructor
  · rintro ⟨_, _, ⟨rfl, rfl⟩, _, _, ⟨q, hq, hn, rfl⟩, rfl, rfl⟩
    obtain rfl := Option.some.inj ((param?_withParam s p).symm.trans hq)
    exact ⟨rfl, hn, rfl⟩
  · rintro ⟨rfl, hn, rfl⟩
    exact ⟨_, _, ⟨rfl, rfl⟩, (), _, ⟨_, param?_withParam s p, hn, rfl⟩, rfl, rfl⟩

/-- The progress after a parameter is finished. -/
def withFinished (s : Progress) (realm : Realm) (fqoid : String) (id : ParamId) : Progress :=
  match realm with
  | .params => { s with registry := s.registry.insert fqoid id }
  | .commands => s

theorem withFinished_device (s : Progress) (realm : Realm) (fqoid : String) (id : ParamId) :
    (withFinished s realm fqoid id).device = s.device := by
  cases realm <;> rfl

theorem register_ok {id : ParamId} {u : Unit} :
    (register id).run s = .ok u s' ↔
      ∃ p, s.device.param? id = some p ∧ withFinished s p.realm p.fqoid id = s' := by
  have hentry : ∀ p : Param, (match p.realm with
      | .params => modify fun s => { s with registry := s.registry.insert p.fqoid id }
      | .commands => pure () : Resolve Unit).run s = .ok u s' ↔
        withFinished s p.realm p.fqoid id = s' := by
    intro p
    cases p.realm with
    | params => exact modify_ok
    | commands => simp [withFinished]
  simp only [register, bind_ok, param_ok]
  constructor
  · rintro ⟨p, _, ⟨hp, rfl⟩, h⟩
    exact ⟨p, hp, (hentry p).mp h⟩
  · rintro ⟨p, hp, h⟩
    exact ⟨p, _, ⟨hp, rfl⟩, (hentry p).mpr h⟩

theorem checkDistinct_ok {scope : String} {entries : Entries α} {u : Unit} :
    (checkDistinct scope entries).run s = .ok u s' ↔ entries.duplicate? = none ∧ s = s' := by
  unfold checkDistinct
  cases entries.duplicate? with
  | none => simp
  | some oid => simp

/-- The oid that a site has for its parent is the one in the arena. -/
def Located (s : Progress) (site : Site) : Prop :=
  match site.parent with
  | some id => ∃ p, s.device.param? id = some p ∧ p.fqoid = site.path
  | none => site.path = ""

theorem locate_ok {slot : Slot} {site : Site} :
    slot.locate.run s = .ok site s' ↔ site.toSlot = slot ∧ Located s site ∧ s = s' := by
  obtain ⟨parent, realm, scope, folder, outermost⟩ := slot
  obtain ⟨⟨parent', realm', scope', folder', outermost'⟩, path⟩ := site
  cases parent with
  | none =>
    simp only [Slot.locate, pure_ok, Site.mk.injEq, Located, Slot.mk.injEq]
    constructor
    · rintro ⟨⟨⟨rfl, rfl, rfl, rfl⟩, rfl⟩, rfl⟩
      exact ⟨⟨rfl, rfl, rfl, rfl⟩, rfl, rfl⟩
    · rintro ⟨⟨rfl, rfl, rfl, rfl⟩, rfl, rfl⟩
      exact ⟨⟨⟨rfl, rfl, rfl, rfl⟩, rfl⟩, rfl⟩
  | some id =>
    simp only [Slot.locate, bind_ok, param_ok, pure_ok, Site.mk.injEq, Located, Slot.mk.injEq]
    constructor
    · rintro ⟨p, _, ⟨hp, rfl⟩, ⟨⟨rfl, rfl, rfl, rfl⟩, rfl⟩, rfl⟩
      exact ⟨⟨rfl, rfl, rfl, rfl⟩, ⟨p, hp, rfl⟩, rfl⟩
    · rintro ⟨⟨rfl, rfl, rfl, rfl⟩, ⟨p, hp, rfl⟩, rfl⟩
      exact ⟨p, s, ⟨hp, rfl⟩, ⟨⟨rfl, rfl, rfl, rfl⟩, rfl⟩, rfl⟩

namespace Located

variable {t : Progress} {site site' : Site}

theorem locate (h : Located s site) : site.locate.run s = .ok site s :=
  locate_ok.mpr ⟨rfl, h, rfl⟩

theorem parent {id : ParamId} (h : Located s site) (hid : site.parent = some id) :
    ∃ p, s.device.param? id = some p ∧ p.fqoid = site.path := by
  unfold Located at h
  rw [hid] at h
  exact h

/-- There is one site at a place. -/
theorem unique (h : Located s site) (h' : Located s site') (hslot : site'.toSlot = site.toSlot) :
    site' = site := by
  have hrun := h.locate
  rw [← hslot, h'.locate] at hrun
  cases hrun
  rfl

/-- A site stays located while oids stay as they are. -/
theorem mono (h : Located s site) (hkept : ∀ id p, s.device.param? id = some p →
    ∃ q, t.device.param? id = some q ∧ q.fqoid = p.fqoid) : Located t site := by
  unfold Located at *
  split
  · next id hid =>
    rw [hid] at h
    obtain ⟨p, hp, hpath⟩ := h
    obtain ⟨q, hq, hfqoid⟩ := hkept id p hp
    exact ⟨q, hq, hfqoid.trans hpath⟩
  · next hid =>
    rw [hid] at h
    exact h

/-- A new parameter is no other's parent. -/
theorem enter (h : Located s site) (p : Param) : Located (withEntered s p) site := by
  refine h.mono fun id q hq => ⟨q, ?_, rfl⟩
  simp only [Device.param?, withEntered, withIdent, withParam] at hq ⊢
  obtain ⟨hlt, rfl⟩ := Array.getElem?_eq_some_iff.mp hq
  exact Array.getElem?_push_lt hlt

/-- Only the arena of parameters matters. -/
theorem of_nodes (h : Located s site) (nodes : t.device.nodes = s.device.nodes) : Located t site :=
  h.mono fun _ q hq => ⟨q, by rwa [Device.param?, nodes], rfl⟩

end Located

section Declared

variable {site : Site} {oid : String}

/-- The constraint that a parameter declares is a shared one, or a new one that it owns. -/
theorem declaredConstraint_ok {p : Param} {id : ParamId} {c : Description.Constraint}
    {k : ConstraintId} (h : (declaredConstraint p id c).run s = .ok k s') :
    (∃ r, c.reference = some r ∧ c.type = none ∧
        s.device.sharedConstraints.get? r = some k ∧ s = s') ∨
      ∃ rule, c.reference = none ∧ Rule.classify p.fqoid c = .ok rule ∧
        ⟨s.device.constraints.size⟩ = k ∧
        withConstraint s ⟨p.fqoid, p.ident, some id, rule⟩ = s' := by
  unfold declaredConstraint at h
  cases hr : c.reference with
  | none =>
    simp only [hr, bind_ok, lift_ok, addConstraint_ok] at h
    obtain ⟨rule, _, ⟨hrule, rfl⟩, hk, hs⟩ := h
    exact .inr ⟨rule, rfl, hrule, hk, hs⟩
  | some r =>
    cases ht : c.type with
    | some code =>
      simp only [hr, ht] at h
      exact (throw_ok.mp h).elim
    | none =>
      simp only [hr, ht, bind_ok, device_ok] at h
      obtain ⟨_, _, ⟨rfl, rfl⟩, h⟩ := h
      cases hf : s.device.sharedConstraints.get? r with
      | none =>
        rw [hf] at h
        exact (throw_ok.mp h).elim
      | some shared =>
        rw [hf] at h
        obtain ⟨rfl, rfl⟩ := pure_ok.mp h
        exact .inl ⟨r, rfl, rfl, hf, rfl⟩

/-- The progress after the constraint of a parameter is settled. -/
def withSettled (s : Progress) (id : ParamId) (k : ConstraintId) : Progress :=
  { s with constrained := (id, k) :: s.constrained }

/-- A constraint that is not settled yet is the one that is declared. -/
theorem ownConstraint_ok {id : ParamId} {p : Param} {c : Description.Constraint} {k : ConstraintId}
    (hp : s.device.param? id = some p) (hnew : s.constrained.lookup id = none) :
    (ownConstraint id c).run s = .ok k s' ↔
      ∃ t, (declaredConstraint p id c).run s = .ok k t ∧ withSettled t id k = s' := by
  simp only [ownConstraint, bind_ok, get_ok]
  constructor
  · rintro ⟨_, _, ⟨rfl, rfl⟩, h⟩
    simp only [hnew, bind_ok, param_ok, modify_ok, pure_ok] at h
    obtain ⟨q, _, ⟨hq, rfl⟩, _, t, h, _, _, rfl, rfl, rfl⟩ := h
    obtain rfl := Option.some.inj (hp.symm.trans hq)
    exact ⟨t, h, rfl⟩
  · rintro ⟨t, h, rfl⟩
    refine ⟨_, _, ⟨rfl, rfl⟩, ?_⟩
    simp only [hnew, bind_ok, param_ok, modify_ok, pure_ok]
    exact ⟨p, _, ⟨hp, rfl⟩, k, t, h, (), _, rfl, rfl, rfl⟩

/-- A template is a registered parameter whose type goes with the declared code. -/
theorem bindTemplate_ok {fqoid templateOid : String} {declared : TypeCode} {b : Binding}
    (h : (bindTemplate fqoid declared templateOid).run s = .ok b s') :
    ∃ id template type overElements log, s.registry.get? templateOid = some id ∧
      s.device.param? id = some template ∧
      ValueType.ofTemplate? declared template.type = some (type, overElements) ∧
      b = ⟨id, type, overElements, template.constraint,
        if overElements then none else template.value⟩ ∧
      { s with log } = s' := by
  simp only [bindTemplate, bind_ok, get_ok] at h
  obtain ⟨_, _, ⟨rfl, rfl⟩, h⟩ := h
  cases hi : s.registry.get? templateOid with
  | none =>
    rw [hi] at h
    exact (throw_ok.mp h).elim
  | some id =>
    simp only [hi, bind_ok, param_ok] at h
    obtain ⟨template, _, ⟨hp, rfl⟩, h⟩ := h
    cases ho : ValueType.ofTemplate? declared template.type with
    | none =>
      rw [ho] at h
      exact (throw_ok.mp h).elim
    | some r =>
      simp only [ho, bind_ok, note_ok, pure_ok] at h
      obtain ⟨_, _, rfl, rfl, rfl⟩ := h
      exact ⟨id, template, r.1, r.2, _, rfl, hp, ho, rfl, rfl⟩

theorem checkNested_ok {name : String} {u : Unit} :
    (checkNested site oid name).run s = .ok u s' ↔ site.scope.getLast? ≠ some name ∧ s = s' := by
  unfold checkNested
  split
  · next enclosing parent hscope _ =>
    rw [hscope]
    split
    · next heq =>
      simp only [bind_ok, throw_ok, exists_false, and_false, heq, ne_eq, not_true_eq_false,
        false_and]
    · next hne => simp [hne]
  · next hnone =>
    -- Without a parent there is no scope.
    have hlast : site.scope.getLast? = none := by
      cases hparent : site.parent with
      | none => simp [site.outermost hparent]
      | some parent =>
        cases hscope : site.scope.getLast? with
        | none => rfl
        | some enclosing => exact (hnone enclosing parent hscope hparent).elim
    simp [hlast]

theorem checkNames_ok {declared : TypeCode} {u : Unit}
    (h : (checkNames site oid declared).run s = .ok u s') :
    site.scope.getLast? ≠ some (elementName oid declared) ∧
      (declared.isArray = true → site.scope.getLast? ≠ some (Text.capitalize oid)) ∧ s = s' := by
  simp only [checkNames, bind_ok, checkNested_ok] at h
  obtain ⟨_, _, ⟨hn, rfl⟩, h⟩ := h
  cases ha : declared.isArray with
  | true =>
    simp only [ha, if_true, checkNested_ok] at h
    exact ⟨hn, fun _ => h.1, h.2⟩
  | false =>
    simp only [ha, Bool.false_eq_true, if_false, pure_ok] at h
    exact ⟨hn, by simp, h.2⟩

theorem checkAlternatives_ok {fqoid : String} {declared : TypeCode} {bare : Bool} {u : Unit}
    (h : (checkAlternatives fqoid declared bare).run s = .ok u s') :
    (bare = true → makesStruct declared = true) ∧ s = s' := by
  unfold checkAlternatives at h
  split at h
  · exact (throw_ok.mp h).elim
  · next hc =>
    obtain ⟨-, rfl⟩ := pure_ok.mp h
    refine ⟨?_, rfl⟩
    intro hb
    simpa [hb] using hc

theorem declareContainer_ok {id : ParamId} {element : ValueType} {t : TypeId} :
    (declareContainer site oid id element).run s = .ok t s' ↔ ⟨s.device.types.size⟩ = t ∧
      withType s ⟨Text.capitalize oid, site.scope, id, .array element⟩ = s' := by
  rw [declareContainer, addType_ok]

theorem checkConstraint_ok {fqoid : String} {type : ValueType} {id : ConstraintId} {u : Unit}
    (h : (checkConstraint fqoid type id).run s = .ok u s') :
    (∃ c, s.device.constraint? id = some c ∧ type.element.code = .single c.rule.kind) ∧ s = s' := by
  simp only [checkConstraint, bind_ok, constraint_ok] at h
  obtain ⟨c, _, ⟨hc, rfl⟩, h⟩ := h
  split at h
  · next hk =>
    obtain ⟨-, rfl⟩ := pure_ok.mp h
    exact ⟨⟨c, hc, hk⟩, rfl⟩
  · exact (throw_ok.mp h).elim

theorem checkConstraints_ok {fqoid : String} {type : ValueType} {c : Option ConstraintId} {u : Unit}
    (h : (c.forM (checkConstraint fqoid type)).run s = .ok u s') :
    (∀ id, c = some id → ∃ k, s.device.constraint? id = some k ∧
      type.element.code = .single k.rule.kind) ∧
      s = s' := by
  cases c with
  | none =>
    obtain ⟨-, rfl⟩ := pure_ok.mp h
    simp
  | some id =>
    obtain ⟨hk, rfl⟩ := checkConstraint_ok h
    refine ⟨?_, rfl⟩
    rintro _ ⟨⟩
    exact hk

theorem settleValue_ok {fqoid : String} {type : ValueType} {inherited v : Option Initializer}
    {given : Option Description.Value}
    (h : (settleValue fqoid type inherited given).run s = .ok v s') :
    (∀ w, given = some w → ∃ i, value s.device.types w fqoid type = .ok i ∧ v = some i) ∧
      (given = none → v = inherited) ∧ s = s' := by
  cases given with
  | none =>
    obtain ⟨rfl, rfl⟩ := pure_ok.mp h
    simp
  | some w =>
    simp only [settleValue, bind_ok, device_ok, lift_ok, pure_ok] at h
    obtain ⟨_, _, ⟨rfl, rfl⟩, i, _, ⟨hi, rfl⟩, rfl, rfl⟩ := h
    simp [hi]

end Declared

/-- An import that opens names a document that is not open and describes a parameter. -/
theorem openImport_ok {source : Source} {opened : List Path} {site : Site} {oid : String}
    {i : Description.Import} {identity : Path} {q : Description.Param}
    (h : (openImport source opened site oid i).run s = .ok (identity, q) s') :
    ∃ path log, importPath source site.folder (site.fqoid oid) oid i = .ok path ∧
      importIdentity source opened (site.fqoid oid) path = .ok identity ∧
      importedParam source (site.fqoid oid) path = .ok q ∧ { s with log } = s' := by
  simp only [openImport, bind_ok, lift_ok, note_ok, pure_ok] at h
  obtain ⟨path, _, ⟨hp, rfl⟩, _, _, ⟨hi, rfl⟩, _, _, rfl, _, _, ⟨hq, rfl⟩, he, rfl⟩ := h
  cases he
  exact ⟨path, _, hp, hi, hq, rfl⟩

section Device

variable {source : Source} {importRoot : Path} {d : Description.Device}

/-- What is resolved before the parameters. -/
def opening (d : Description.Device) : Resolve Unit := do
  lift (checkScope d.settings)
  languagePacks d.languagePacks
  sharedConstraints d.constraints

/-- The progress after the last part of a device. -/
def withMenus (s : Progress) (menuGroups : List MenuGroup) : Progress :=
  let device := { s.device with menuGroups }
  { s with device, log := s.log.push ⟨.info, "catena_core::device", resolved device⟩ }

/-- A device is resolved part by part. -/
theorem parts_ok {u : Unit} :
    (parts source importRoot d).run s = .ok u s' ↔
      ∃ t ids v ids' w groups x, (opening d).run s = .ok () t ∧
      (forest source importRoot .params d.params).run t = .ok ids v ∧
      (forest source importRoot .commands d.commands).run
        { v with device := { v.device with params := ids } } =
        .ok ids' w ∧
      (menuGroups d.menuGroups).run { w with device := { w.device with commands := ids' } } =
        .ok groups x ∧
      withMenus x groups = s' := by
  simp only [parts, opening, bind_ok, updateDevice_ok, note_ok, device_ok]
  constructor
  · rintro ⟨_, _, hscope, _, _, hpacks, _, _, hshared, ids, v, hparams, _, _, rfl, ids', w,
      hcommands, _, _, rfl, groups, x, hmenus, _, _, rfl, _, _, ⟨rfl, rfl⟩, rfl⟩
    exact ⟨_, ids, v, ids', w, groups, x, ⟨_, _, hscope, _, _, hpacks, hshared⟩, hparams, hcommands,
      hmenus, rfl⟩
  · rintro ⟨t, ids, v, ids', w, groups, x, ⟨_, _, hscope, _, _, hpacks, hshared⟩, hparams,
      hcommands, hmenus, rfl⟩
    exact ⟨_, _, hscope, _, _, hpacks, _, _, hshared, ids, v, hparams, (), _, rfl, ids', w,
      hcommands, (), _, rfl, groups, x, hmenus, (), _, rfl, _, _, ⟨rfl, rfl⟩, rfl⟩

theorem resolveDevice_ok {ns : String} {device : Device} :
    (resolveDevice ns d importRoot source).result = .ok device ↔
      ∃ s, (parts source importRoot d).run { device := { ns, settings := d.settings } } = .ok () s ∧
        s.device = device := by
  unfold resolveDevice
  split
  · next u s hrun => simp [hrun]
  · next e s hrun => simp [hrun]

end Device

end DeviceModel.Resolve
