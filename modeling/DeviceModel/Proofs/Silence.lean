import DeviceModel.Resolve.Device

namespace DeviceModel

namespace Resolve

variable {α β : Type}

/-- Progress that differs only in what was noted. -/
structure SameButNotes (s t : Progress) : Prop where
  device : s.device = t.device
  registry : s.registry = t.registry
  constrained : s.constrained = t.constrained
  idents : s.idents = t.idents

/-- The same result, with the same progress but for notes. Of a failure only the error is looked
at. -/
inductive SameResult :
    EStateM.Result ResolveError Progress α → EStateM.Result ResolveError Progress α → Prop where
  | ok {a : α} {s t : Progress} (same : SameButNotes s t) : SameResult (.ok a s) (.ok a t)
  | error {e : ResolveError} {s t : Progress} : SameResult (.error e s) (.error e t)

/-- Two runs that differ only in what they note. -/
def Alike (x y : Resolve α) : Prop :=
  ∀ s t : Progress, SameButNotes s t → SameResult (x.run s) (y.run t)

/-- A run to which it does not matter what was noted before it. -/
abbrev Oblivious (x : Resolve α) : Prop := Alike x x

section Steps

theorem pure_oblivious (a : α) : Oblivious (pure a) := by
  intro s t hst
  exact .ok hst

theorem throw_oblivious (e : ResolveError) : Oblivious (throw e : Resolve α) := by
  intro s t _
  exact .error

/-- What comes after a failure does not matter. -/
theorem throw_bind_alike (e : ResolveError) (f g : α → Resolve β) :
    Alike (throw e >>= f) (throw e >>= g) := by
  intro s t _
  exact .error

/-- What comes second has to agree only where what comes first leads. -/
theorem SameResult.bind {x y : Resolve α} {f g : α → Resolve β} {s t : Progress}
    (h : SameResult (x.run s) (y.run t))
    (hf : ∀ a s' t', x.run s = .ok a s' → SameButNotes s' t' →
      SameResult ((f a).run s') ((g a).run t')) :
    SameResult ((x >>= f).run s) ((y >>= g).run t) := by
  change SameResult (x s) (y t) at h
  change SameResult (EStateM.bind x f s) (EStateM.bind y g t)
  unfold EStateM.bind
  generalize hx : x s = r, y t = r' at h
  cases h with
  | ok same => exact hf _ _ _ hx same
  | error => exact .error

theorem Alike.bind {x y : Resolve α} {f g : α → Resolve β} (h : Alike x y)
    (hf : ∀ a, Alike (f a) (g a)) : Alike (x >>= f) (y >>= g) := by
  intro s t hst
  exact (h s t hst).bind fun a s' t' _ same => hf a s' t' same

theorem Alike.map {x y : Resolve α} (h : Alike x y) (f : α → β) : Alike (f <$> x) (f <$> y) := by
  rw [map_eq_pure_bind, map_eq_pure_bind]
  exact h.bind fun a => pure_oblivious (f a)

/-- A run may look at the progress, if it does not look at the notes. -/
theorem get_alike {f g : Progress → Resolve α}
    (h : ∀ s t : Progress, SameButNotes s t → Alike (f s) (g t)) :
    Alike (get >>= f) (get >>= g) := by
  intro s t hst
  exact h s t hst s t hst

theorem modify_alike {f g : Progress → Progress}
    (h : ∀ s t : Progress, SameButNotes s t → SameButNotes (f s) (g t)) :
    Alike (modify f : Resolve Unit) (modify g) := by
  intro s t hst
  exact .ok (h s t hst)

theorem note_oblivious (level : Log.Level) (target text : String) :
    Oblivious (note level target text) := by
  apply modify_alike
  intro s t hst
  exact { hst with }

theorem lift_oblivious (e : Except ResolveError α) : Oblivious (lift e) := by
  cases e with
  | ok a => exact pure_oblivious a
  | error e => exact throw_oblivious e

theorem device_oblivious : Oblivious device := by
  apply get_alike
  intro s t hst
  rw [hst.device]
  exact pure_oblivious _

theorem updateDevice_oblivious (f : Device → Device) : Oblivious (updateDevice f) := by
  apply modify_alike
  intro s t hst
  exact { hst with device := congrArg f hst.device }

theorem lookUp_oblivious {β : Type} (oid : String) (find : Device → Option β) :
    Oblivious (lookUp oid find) := by
  apply device_oblivious.bind
  intro d
  split
  · exact pure_oblivious _
  · exact throw_oblivious _

theorem param_oblivious (oid : String) (id : ParamId) : Oblivious (param oid id) :=
  lookUp_oblivious _ _

theorem constraint_oblivious (oid : String) (id : ConstraintId) : Oblivious (constraint oid id) :=
  lookUp_oblivious _ _

theorem addParam_oblivious (p : Param) : Oblivious (addParam p) := by
  apply device_oblivious.bind
  intro d
  exact (updateDevice_oblivious _).bind fun _ => pure_oblivious _

theorem addConstraint_oblivious (c : Constraint) : Oblivious (addConstraint c) := by
  apply device_oblivious.bind
  intro d
  exact (updateDevice_oblivious _).bind fun _ => pure_oblivious _

theorem addType_oblivious (t : TypeDecl) : Oblivious (addType t) := by
  apply device_oblivious.bind
  intro d
  exact (updateDevice_oblivious _).bind fun _ => pure_oblivious _

theorem updateParam_oblivious (oid : String) (id : ParamId) (f : Param → Param) :
    Oblivious (updateParam oid id f) := by
  apply (param_oblivious oid id).bind
  intro p
  exact updateDevice_oblivious _

theorem claimIdent_oblivious (id : ParamId) : Oblivious (claimIdent id) := by
  apply (param_oblivious _ _).bind
  intro p
  apply get_alike
  intro s t hst
  rw [hst.idents]
  split
  · exact throw_oblivious _
  · apply modify_alike
    intro s t hst
    exact { hst with idents := congrArg ((_, p.fqoid) :: ·) hst.idents }

theorem enterParam_oblivious (p : Param) : Oblivious (enterParam p) := by
  apply (addParam_oblivious p).bind
  intro id
  exact (claimIdent_oblivious id).bind fun _ => pure_oblivious _

theorem register_oblivious (id : ParamId) : Oblivious (register id) := by
  apply (param_oblivious _ _).bind
  intro p
  cases p.realm with
  | commands => exact pure_oblivious _
  | params =>
    apply modify_alike
    intro s t hst
    exact { hst with registry := congrArg (·.insert p.fqoid id) hst.registry }

theorem checkDistinct_oblivious (scope : String) (entries : Entries α) :
    Oblivious (checkDistinct scope entries) := by
  unfold checkDistinct
  split
  · exact throw_oblivious _
  · exact pure_oblivious _

theorem mapM_oblivious {f : α → Resolve β} (h : ∀ a, Oblivious (f a)) (as : List α) :
    Oblivious (as.mapM f) := by
  induction as with
  | nil =>
    rw [List.mapM_nil]
    exact pure_oblivious _
  | cons a rest ih =>
    rw [List.mapM_cons]
    apply (h a).bind
    intro b
    exact ih.bind fun _ => pure_oblivious _

theorem forM_oblivious {f : α → Resolve PUnit} (h : ∀ a, Oblivious (f a)) (as : List α) :
    Oblivious (as.forM f) := by
  induction as with
  | nil => exact pure_oblivious _
  | cons a rest ih => exact (h a).bind fun _ => ih

/-- What is done only where there is something. -/
theorem option_mapM_oblivious {f : α → Resolve β} (h : ∀ a, Oblivious (f a)) (a? : Option α) :
    Oblivious (a?.mapM f) := by
  cases a? with
  | none => exact pure_oblivious _
  | some a => exact (h a).map some

theorem option_forM_oblivious {f : α → Resolve PUnit} (h : ∀ a, Oblivious (f a)) (a? : Option α) :
    Oblivious (a?.forM f) := by
  cases a? with
  | none => exact pure_oblivious _
  | some a => exact h a

end Steps

section Templates

theorem bindTemplate_oblivious (fqoid : String) (declared : TypeCode) (templateOid : String) :
    Oblivious (bindTemplate fqoid declared templateOid) := by
  apply get_alike
  intro s t hst
  rw [hst.registry]
  split
  · exact throw_oblivious _
  · apply (param_oblivious _ _).bind
    intro template
    split
    · exact throw_oblivious _
    · exact (note_oblivious _ _ _).bind fun _ => pure_oblivious _

theorem copyChild_oblivious {below : ParamId → ParamId → Resolve Unit}
    (h : ∀ id child, Oblivious (below id child)) (target child : ParamId) :
    Oblivious (copyChild below target child) := by
  apply (param_oblivious _ _).bind
  intro parent
  apply (param_oblivious _ _).bind
  intro source
  apply (enterParam_oblivious _).bind
  intro id
  apply (h id child).bind
  intro _
  apply (register_oblivious _).bind
  intro _
  exact (param_oblivious _ _).bind fun _ => pure_oblivious _

theorem copyChildren_oblivious (depth : Nat) (target template : ParamId) :
    Oblivious (copyChildren depth target template) := by
  induction depth generalizing target template with
  | zero => exact throw_oblivious _
  | succ depth ih =>
    apply (param_oblivious _ _).bind
    intro source
    apply (mapM_oblivious (fun e => copyChild_oblivious ih target e.2) source.children).bind
    intro children
    exact updateParam_oblivious _ _ _

theorem instantiate_oblivious (target template : ParamId) :
    Oblivious (instantiate target template) := by
  apply device_oblivious.bind
  intro d
  exact copyChildren_oblivious _ _ _

end Templates

section Params

variable (site : Site) (oid : String) (id : ParamId)

theorem declaredConstraint_oblivious (p : Param) (c : Description.Constraint) :
    Oblivious (declaredConstraint p id c) := by
  unfold declaredConstraint
  split
  · split
    · exact throw_oblivious _
    · apply device_oblivious.bind
      intro d
      split
      · exact pure_oblivious _
      · exact throw_oblivious _
  · exact (lift_oblivious _).bind fun _ => addConstraint_oblivious _

theorem ownConstraint_oblivious (c : Description.Constraint) : Oblivious (ownConstraint id c) := by
  apply get_alike
  intro s t hst
  rw [hst.constrained]
  split
  · exact pure_oblivious _
  · apply (param_oblivious _ _).bind
    intro p
    apply (declaredConstraint_oblivious id p c).bind
    intro k
    refine Alike.bind (modify_alike ?_) fun _ => pure_oblivious _
    intro s t hst
    exact { hst with constrained := congrArg ((id, k) :: ·) hst.constrained }

theorem checkNested_oblivious (name : String) : Oblivious (checkNested site oid name) := by
  unfold checkNested
  split
  · split
    · exact (param_oblivious _ _).bind fun _ => throw_oblivious _
    · exact pure_oblivious _
  · exact pure_oblivious _

theorem inherit_oblivious (bare : Bool) (b : Binding) : Oblivious (inherit site oid id bare b) := by
  unfold inherit
  cases bare with
  | false => exact throw_bind_alike _ _ _
  | true =>
    simp only [if_true]
    apply (instantiate_oblivious _ _).bind
    intro _
    split
    · split
      · apply (checkNested_oblivious _ _ _).bind
        intro _
        exact (addType_oblivious _).bind fun _ => pure_oblivious _
      · exact pure_oblivious _
    · exact (param_oblivious _ _).bind fun _ => pure_oblivious _

theorem checkNames_oblivious (declared : TypeCode) : Oblivious (checkNames site oid declared) := by
  apply (checkNested_oblivious _ _ _).bind
  intro _
  split
  · exact checkNested_oblivious _ _ _
  · exact pure_oblivious _

theorem checkAlternatives_oblivious (fqoid : String) (declared : TypeCode) (bare : Bool) :
    Oblivious (checkAlternatives fqoid declared bare) := by
  unfold checkAlternatives
  split
  · exact throw_oblivious _
  · exact pure_oblivious _

theorem checkConstraint_oblivious (fqoid : String) (type : ValueType) (c : ConstraintId) :
    Oblivious (checkConstraint fqoid type c) := by
  apply (constraint_oblivious _ _).bind
  intro k
  dsimp only
  split
  · exact pure_oblivious _
  · exact throw_oblivious _

theorem settleValue_oblivious (fqoid : String) (type : ValueType) (inherited : Option Initializer)
    (v? : Option Description.Value) : Oblivious (settleValue fqoid type inherited v?) := by
  cases v? with
  | none => exact pure_oblivious _
  | some v =>
    apply device_oblivious.bind
    intro d
    exact (lift_oblivious _).bind fun _ => pure_oblivious _

end Params

/-- The same place, with its imports in another folder. -/
abbrev Site.moved (site : Site) (folder : Path) : Site := { site with folder }

/-- Children that are resolved alike wherever their imports are. -/
def BlocksAlike (site : Site) (folder : Path) (oid : String) (block block' : Block) : Prop :=
  ∀ id scope,
    Alike (block (site.inner oid id scope)) (block' ((site.moved folder).inner oid id scope))

section Blocks

variable {site : Site} {folder : Path} {oid : String} {block block' : Block}

theorem resolveChildren_alike {inner inner' : Slot} (h : Alike (block inner) (block' inner'))
    (fqoid : String) (id : ParamId) :
    Alike (resolveChildren block fqoid id inner) (resolveChildren block' fqoid id inner') := by
  apply h.bind
  intro children
  exact (updateParam_oblivious _ _ _).bind fun _ => lookUp_oblivious _ _

theorem declare_alike (h : BlocksAlike site folder oid block block') (id : ParamId) (bare : Bool)
    (declared : TypeCode) :
    Alike (declare block site oid id bare declared)
      (declare block' (site.moved folder) oid id bare declared) := by
  apply (checkNames_oblivious site oid declared).bind
  intro _
  apply (resolveChildren_alike (h id (innerName oid declared)) (site.fqoid oid) id).bind
  intro children
  apply (checkAlternatives_oblivious (site.fqoid oid) declared bare).bind
  intro _
  apply (addType_oblivious _).bind
  intro type
  dsimp only
  split
  · exact (addType_oblivious _).bind fun _ => pure_oblivious _
  · exact pure_oblivious _

theorem undeclared_alike (h : BlocksAlike site folder oid block block') (id : ParamId) (bare : Bool)
    (declared : TypeCode) :
    Alike (undeclared block site oid id bare declared)
      (undeclared block' (site.moved folder) oid id bare declared) := by
  unfold undeclared
  cases bare with
  | true => exact pure_oblivious _
  | false =>
    have hcommand : (site.moved folder).isCommand = site.isCommand := rfl
    simp only [Bool.false_eq_true, if_false, hcommand]
    cases site.isCommand with
    | false => exact throw_bind_alike _ _ _
    | true =>
      exact (resolveChildren_alike (h id (holderName oid)) (site.fqoid oid) id).bind fun _ =>
        pure_oblivious _

theorem settleType_alike (h : BlocksAlike site folder oid block block') (bare : Bool) (id : ParamId)
    (declared : TypeCode) (binding : Option Binding) :
    Alike (settleType block bare site oid id declared binding)
      (settleType block' bare (site.moved folder) oid id declared binding) := by
  cases binding with
  | some b => exact inherit_oblivious site oid id bare b
  | none =>
    simp only [settleType]
    split
    · exact declare_alike h id bare declared
    · exact undeclared_alike h id bare declared

/-- A parameter that is written out is resolved alike where its children are. -/
theorem resolveDeclared_alike (h : BlocksAlike site folder oid block block') (bare : Bool)
    (d : Description.Declaration) :
    Alike (resolveDeclared block bare site oid d)
      (resolveDeclared block' bare (site.moved folder) oid d) := by
  apply (lift_oblivious (declaredType site oid d)).bind
  intro declared
  apply (note_oblivious _ _ _).bind
  intro _
  apply (enterParam_oblivious (blank site oid declared d)).bind
  intro id
  apply (option_mapM_oblivious (ownConstraint_oblivious id) d.constraint).bind
  intro own
  apply (option_mapM_oblivious (bindTemplate_oblivious (site.fqoid oid) declared) d.template).bind
  intro binding
  apply (settleType_alike h bare id declared binding).bind
  intro typing
  apply (option_forM_oblivious (checkConstraint_oblivious (site.fqoid oid) typing.type) _).bind
  intro _
  apply (settleValue_oblivious (site.fqoid oid) typing.type _ d.value).bind
  intro value
  apply (updateParam_oblivious (site.fqoid oid) id _).bind
  intro _
  exact (register_oblivious _).bind fun _ => pure_oblivious _

end Blocks

section Whole

theorem languagePacks_oblivious (packs : List LanguagePack) : Oblivious (languagePacks packs) := by
  apply (checkDistinct_oblivious _ _).bind
  intro _
  exact updateDevice_oblivious _

theorem sharedConstraint_oblivious (oid : String) (c : Description.Constraint) :
    Oblivious (sharedConstraint oid c) := by
  unfold sharedConstraint
  cases c.reference.isSome with
  | true => exact throw_bind_alike _ _ _
  | false =>
    simp only [Bool.false_eq_true, if_false]
    apply (lift_oblivious _).bind
    intro rule
    apply (note_oblivious _ _ _).bind
    intro _
    exact (addConstraint_oblivious _).bind fun _ => updateDevice_oblivious _

theorem sharedConstraints_oblivious (constraints : Entries Description.Constraint) :
    Oblivious (sharedConstraints constraints) := by
  apply (checkDistinct_oblivious _ _).bind
  intro _
  exact forM_oblivious (fun e => sharedConstraint_oblivious e.1 e.2) constraints

theorem menuGroup_oblivious (g : MenuGroup) : Oblivious (menuGroup g) := by
  apply (checkDistinct_oblivious _ _).bind
  intro _
  apply device_oblivious.bind
  intro d
  exact (lift_oblivious _).bind fun _ => pure_oblivious _

theorem menuGroups_oblivious (groups : List MenuGroup) : Oblivious (menuGroups groups) := by
  apply (checkDistinct_oblivious _ _).bind
  intro _
  exact mapM_oblivious menuGroup_oblivious groups

end Whole

end Resolve

end DeviceModel
