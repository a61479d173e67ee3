import DeviceModel.Proofs.Expansion
import DeviceModel.Proofs.References

namespace DeviceModel

namespace ResolveError

/-- An import cannot be followed. -/
def ofImport : ResolveError → Bool
  | .importFailed _ _ _ | .importDepth _ => true
  | _ => false

/-- A reference cannot be followed, to a document or within the device. -/
def ofReference : ResolveError → Bool
  | .dangling _ => true
  | e => e.ofImport

theorem ofImport_of_ofReference {e : ResolveError} (h : e.ofReference = false) :
    e.ofImport = false := by
  cases e with
  | importFailed | importDepth => cases h
  | _ => rfl

end ResolveError

namespace Resolve

open Description (Declaration Value)

variable {α β : Type} {s s' : Progress} {bad : ResolveError → Bool}

/-- What comes of a run, or why there is nothing. -/
abbrev Result (α : Type) := EStateM.Result ResolveError Progress α

/-- Goes on where something came of a run. -/
def follow (r : Result α) (f : α → Resolve β) : Result β :=
  match r with
  | .ok a t => (f a).run t
  | .error e t => .error e t

theorem run_bind (x : Resolve α) (f : α → Resolve β) (s : Progress) :
    (x >>= f).run s = follow (x.run s) f := by
  change EStateM.bind x f s = follow (x s) f
  unfold EStateM.bind follow
  cases x s <;> rfl

theorem follow_follow {γ : Type} (r : Result α) (f : α → Resolve β) (g : β → Resolve γ) :
    follow (follow r f) g = follow r fun a => f a >>= g := by
  cases r with
  | ok a t => exact (run_bind (f a) g t).symm
  | error e t => rfl

theorem follow_error {r : Result α} {f : α → Resolve β} {e : ResolveError} :
    follow r f = .error e s ↔ r = .error e s ∨ ∃ a t, r = .ok a t ∧ (f a).run t = .error e s := by
  cases r with
  | error e' t => simp [follow]
  | ok a t =>
    constructor
    · intro h
      exact .inr ⟨a, t, rfl, h⟩
    · intro h
      obtain h | ⟨_, _, ha, h⟩ := h
      · cases h
      · cases ha
        exact h

/-- A sequence fails at its first part, or after it. -/
theorem bind_error {x : Resolve α} {f : α → Resolve β} {e : ResolveError} :
    (x >>= f).run s = .error e s' ↔
      x.run s = .error e s' ∨ ∃ a t, x.run s = .ok a t ∧ (f a).run t = .error e s' := by
  rw [run_bind, follow_error]

/-- A run from this progress does not fail in certain ways. -/
def Spares (bad : ResolveError → Bool) (s : Progress) (x : Resolve α) : Prop :=
  ∀ e t, x.run s = .error e t → bad e = false

section Steps

theorem Spares.bind {x : Resolve α} {f : α → Resolve β} (hx : Spares bad s x)
    (hf : ∀ a t, x.run s = .ok a t → Spares bad t (f a)) : Spares bad s (x >>= f) := by
  intro e t h
  rcases bind_error.mp h with h | ⟨a, u, ha, h⟩
  · exact hx e t h
  · exact hf a u ha e t h

theorem pure_spares (a : α) : Spares bad s (pure a) := by
  intro e t h
  cases h

theorem Spares.map {x : Resolve α} (hx : Spares bad s x) (f : α → β) : Spares bad s (f <$> x) := by
  rw [map_eq_pure_bind]
  exact hx.bind fun a t _ => pure_spares (f a)

theorem throw_spares {e : ResolveError} (h : bad e = false) :
    Spares bad s (throw e : Resolve α) := by
  intro e' t he
  cases he
  exact h

theorem get_spares : Spares bad s get := by
  intro e t h
  cases h

theorem modify_spares (f : Progress → Progress) : Spares bad s (modify f) := by
  intro e t h
  cases h

theorem lift_spares {x : Except ResolveError α} (h : ∀ e, x = .error e → bad e = false) :
    Spares bad s (lift x) := by
  cases x with
  | ok a => exact pure_spares a
  | error e => exact throw_spares (h e rfl)

theorem note_spares (level : Log.Level) (target text : String) :
    Spares bad s (note level target text) :=
  modify_spares _

theorem device_spares : Spares bad s device := get_spares.bind fun _ _ _ => pure_spares _

theorem updateDevice_spares (f : Device → Device) : Spares bad s (updateDevice f) := modify_spares _

theorem addParam_spares (p : Param) : Spares bad s (addParam p) :=
  device_spares.bind fun _ _ _ => (updateDevice_spares _).bind fun _ _ _ => pure_spares _

theorem addConstraint_spares (c : Constraint) : Spares bad s (addConstraint c) :=
  device_spares.bind fun _ _ _ => (updateDevice_spares _).bind fun _ _ _ => pure_spares _

theorem addType_spares (t : TypeDecl) : Spares bad s (addType t) :=
  device_spares.bind fun _ _ _ => (updateDevice_spares _).bind fun _ _ _ => pure_spares _

/-- A look-up fails only where nothing is found. -/
theorem lookUp_spares {oid : String} {find : Device → Option β}
    (h : bad (.dangling oid) = true → ∃ b, find s.device = some b) :
    Spares bad s (lookUp oid find) := by
  apply device_spares.bind
  intro d t hd
  obtain ⟨rfl, rfl⟩ := device_ok.mp hd
  split
  · exact pure_spares _
  · next hnone =>
    apply throw_spares
    rw [Bool.eq_false_iff]
    intro hbad
    obtain ⟨b, hb⟩ := h hbad
    rw [hb] at hnone
    cases hnone

theorem param_spares {oid : String} {id : ParamId}
    (h : bad (.dangling oid) = true → ∃ p, s.device.param? id = some p) :
    Spares bad s (param oid id) :=
  lookUp_spares h

theorem constraint_spares {oid : String} {id : ConstraintId}
    (h : bad (.dangling oid) = true → ∃ c, s.device.constraint? id = some c) :
    Spares bad s (constraint oid id) :=
  lookUp_spares h

theorem childrenOf_spares {oid : String} {id : ParamId}
    (h : bad (.dangling oid) = true → ∃ children, s.device.children? id = some children) :
    Spares bad s (childrenOf oid id) :=
  lookUp_spares h

theorem updateParam_spares {oid : String} {id : ParamId} {f : Param → Param}
    (h : bad (.dangling oid) = true → ∃ p, s.device.param? id = some p) :
    Spares bad s (updateParam oid id f) :=
  (param_spares h).bind fun _ _ _ => updateDevice_spares _

theorem register_spares {id : ParamId}
    (h : bad (.dangling "") = true → ∃ p, s.device.param? id = some p) :
    Spares bad s (register id) := by
  apply (param_spares h).bind
  intro p t _
  split
  · exact modify_spares _
  · exact pure_spares _

/-- A place is found where its parent is. -/
theorem locate_spares {slot : Slot}
    (h : bad (.dangling "") = true → ∀ id, slot.parent = some id →
      ∃ p, s.device.param? id = some p) :
    Spares bad s slot.locate := by
  unfold Slot.locate
  split
  · next id hid => exact (param_spares fun hd => h hd id hid).bind fun _ _ _ => pure_spares _
  · exact pure_spares _

end Steps

/-- Only failures to follow a reference are bad. -/
def OnlyReferences (bad : ResolveError → Bool) : Prop :=
  ∀ e : ResolveError, e.ofReference = false → bad e = false

section Checks

variable (hbad : OnlyReferences bad)

include hbad

theorem claimIdent_spares {id : ParamId}
    (h : bad (.dangling "") = true → ∃ p, s.device.param? id = some p) :
    Spares bad s (claimIdent id) := by
  apply (param_spares h).bind
  intro p t _
  apply get_spares.bind
  intro progress t _
  split
  · exact throw_spares (hbad _ rfl)
  · exact modify_spares _

/-- A parameter that was just added is found. -/
theorem enterParam_spares (p : Param) : Spares bad s (enterParam p) := by
  apply (addParam_spares p).bind
  intro id t hid
  obtain ⟨rfl, rfl⟩ := addParam_ok.mp hid
  apply (claimIdent_spares hbad fun _ => ⟨_, param?_withParam s p⟩).bind
  intro _ t _
  exact pure_spares _

theorem checkDistinct_spares (scope : String) (entries : Entries α) :
    Spares bad s (checkDistinct scope entries) := by
  unfold checkDistinct
  split
  · exact throw_spares (hbad _ rfl)
  · exact pure_spares _

theorem declaredType_avoids {site : Site} {oid : String} {d : Declaration} {e : ResolveError}
    (h : declaredType site oid d = .error e) : bad e = false := by
  unfold declaredType at h
  dsimp only at h
  split at h
  · split at h
    · cases h
      exact hbad _ rfl
    · split at h
      · cases h
        exact hbad _ rfl
      · cases h
  · split at h
    · cases h
    · cases h
      exact hbad _ rfl

theorem invalid_avoids {oid code : String} {r : Rule.Checked Rule} {e : ResolveError}
    (h : r.mapError (ResolveError.invalidConstraint oid code) = .error e) : bad e = false := by
  cases r with
  | ok rule => cases h
  | error fault =>
    cases h
    exact hbad _ rfl

theorem classify_avoids {oid : String} {c : Description.Constraint} {e : ResolveError}
    (h : Rule.classify oid c = .error e) : bad e = false := by
  unfold Rule.classify at h
  dsimp only at h
  split at h
  case h_6 | h_7 =>
    cases h
    exact hbad _ rfl
  all_goals exact invalid_avoids hbad h

theorem declaredConstraint_spares (p : Param) (id : ParamId) (c : Description.Constraint) :
    Spares bad s (declaredConstraint p id c) := by
  unfold declaredConstraint
  split
  · split
    · exact throw_spares (hbad _ rfl)
    · apply device_spares.bind
      intro d t _
      split
      · exact pure_spares _
      · exact throw_spares (hbad _ rfl)
  · exact (lift_spares fun _ => classify_avoids hbad).bind fun _ _ _ => addConstraint_spares _

theorem ownConstraint_spares {id : ParamId}
    (h : bad (.dangling "") = true → ∃ p, s.device.param? id = some p)
    (c : Description.Constraint) :
    Spares bad s (ownConstraint id c) := by
  apply get_spares.bind
  intro progress t hget
  obtain ⟨rfl, rfl⟩ := get_ok.mp hget
  split
  · exact pure_spares _
  · apply (param_spares h).bind
    intro p t _
    apply (declaredConstraint_spares hbad p id c).bind
    intro k t _
    exact (modify_spares _).bind fun _ _ _ => pure_spares _

/-- Where a site is what it says, its parent is found. -/
theorem checkNested_spares {site : Site} {oid : String}
    (h : bad (.dangling (site.fqoid oid)) = true → Located s site) (name : String) :
    Spares bad s (checkNested site oid name) := by
  unfold checkNested
  split
  · next enclosing parent _ hparent =>
    split
    · refine (param_spares fun hd => ?_).bind fun _ _ _ => throw_spares (hbad _ rfl)
      obtain ⟨p, hp, -⟩ := (h hd).parent hparent
      exact ⟨p, hp⟩
    · exact pure_spares _
  · exact pure_spares _

theorem checkNames_spares {site : Site} {oid : String}
    (h : bad (.dangling (site.fqoid oid)) = true → Located s site) (declared : TypeCode) :
    Spares bad s (checkNames site oid declared) := by
  apply (checkNested_spares hbad h _).bind
  intro _ t hchecked
  obtain ⟨-, rfl⟩ := checkNested_ok.mp hchecked
  split
  · exact checkNested_spares hbad h _
  · exact pure_spares _

theorem checkAlternatives_spares (fqoid : String) (declared : TypeCode) (bare : Bool) :
    Spares bad s (checkAlternatives fqoid declared bare) := by
  unfold checkAlternatives
  split
  · exact throw_spares (hbad _ rfl)
  · exact pure_spares _

theorem checkConstraint_spares {fqoid : String} {type : ValueType} {id : ConstraintId}
    (h : bad (.dangling fqoid) = true → ∃ c, s.device.constraint? id = some c) :
    Spares bad s (checkConstraint fqoid type id) := by
  apply (constraint_spares h).bind
  intro c t _
  dsimp only
  split
  · exact pure_spares _
  · exact throw_spares (hbad _ rfl)

/-- A template that is registered can be looked up. -/
theorem bindTemplate_spares {fqoid templateOid : String} {declared : TypeCode}
    (h : bad (.dangling fqoid) = true → ∀ id, s.registry.get? templateOid = some id →
      ∃ p, s.device.param? id = some p) :
    Spares bad s (bindTemplate fqoid declared templateOid) := by
  apply get_spares.bind
  intro progress t hget
  obtain ⟨rfl, rfl⟩ := get_ok.mp hget
  split
  · exact throw_spares (hbad _ rfl)
  · next id hid =>
    apply (param_spares fun hd => h hd id hid).bind
    intro template t _
    split
    · exact throw_spares (hbad _ rfl)
    · exact (note_spares _ _ _).bind fun _ _ _ => pure_spares _

end Checks

section Values

variable {types : Array TypeDecl}

/-- The types are declared, wherever it would be bad if they were not. -/
def Declares (bad : ResolveError → Bool) (types : Array TypeDecl) (ids : List TypeId) : Prop :=
  ∀ oid, bad (.dangling oid) = true → Among types.size ids

theorem declaration_avoids {oid : String} {t : TypeId} {e : ResolveError}
    (ht : Declares bad types [t]) (h : declaration types oid t = .error e) : bad e = false := by
  unfold declaration at h
  split at h
  · cases h
  · next hnone =>
    cases h
    rw [Bool.eq_false_iff]
    intro hdangling
    have hlt := ht oid hdangling t (List.mem_singleton.mpr rfl)
    rw [Array.getElem?_eq_none_iff] at hnone
    omega

theorem findAlternative_avoids (hbad : OnlyReferences bad) {oid name : String}
    {alternatives : List Alternative} {e : ResolveError}
    (h : findAlternative oid name alternatives = .error e) : bad e = false := by
  unfold findAlternative at h
  split at h
  · cases h
  · cases h
    exact hbad _ rfl

theorem checkFields_avoids (hbad : OnlyReferences bad) {oid : String} {declared : List Field}
    {given : List String} {e : ResolveError} (h : checkFields oid declared given = .error e) :
    bad e = false := by
  unfold checkFields at h
  split at h
  · cases h
    exact hbad _ rfl
  · split at h
    · cases h
      exact hbad _ rfl
    · cases h

theorem collectFields_avoids {valueOf : Field → Option Valued} {e : ResolveError} :
    ∀ {fields : List Field}, (∀ f ∈ fields, ∀ e, valueOf f = some (.error e) → bad e = false) →
      collectFields valueOf fields = .error e → bad e = false
  | [], _, h => by cases h
  | f :: rest, hv, h => by
    have hrest : ∀ r ∈ rest, ∀ e, valueOf r = some (.error e) → bad e = false :=
      fun r hr => hv r (List.mem_cons_of_mem _ hr)
    unfold collectFields at h
    cases hf : valueOf f with
    | none =>
      rw [hf] at h
      exact collectFields_avoids hrest h
    | some v =>
      simp only [hf, except_bind_error] at h
      rcases h with rfl | ⟨i, _, h | ⟨given, _, h⟩⟩
      · exact hv f List.mem_cons_self e hf
      · exact collectFields_avoids hrest h
      · cases h

theorem mismatch_avoids (hbad : OnlyReferences bad) {v : Value} {oid : String} {t : ValueType}
    {e : ResolveError} (hv : value types v oid t = .error (.valueMismatch oid t.expectedTag v.tag))
    (h : value types v oid t = .error e) : bad e = false := by
  cases hv.symm.trans h
  exact hbad _ rfl

/-- A value that is not made of others is refused only for its tag. -/
theorem plain_avoids (hbad : OnlyReferences bad) {v : Value} (hv : isPlain v = true) {oid : String}
    {t : ValueType} {e : ResolveError} (h : value types v oid t = .error e) : bad e = false := by
  unfold value at h
  split at h
  case h_1 | h_2 | h_3 | h_4 | h_5 | h_6 => cases h
  case h_7 | h_8 | h_9 | h_10 => cases hv
  case h_11 =>
    cases h
    exact hbad _ rfl

/-- What fails a struct fails one of its fields, or what is given is not what is declared. -/
theorem structValue_avoids (hbad : OnlyReferences bad)
    (hback : ∀ oid, bad (.dangling oid) = true → Backward types.toList)
    {fields : List (String × Value)} {oid : String} {t : TypeId} {e : ResolveError}
    (ht : Declares bad types [t])
    (hfields : ∀ {name oid : String} {t : ValueType} {e : ResolveError},
      Declares bad types t.typeIds → fieldValue types fields name oid t = some (.error e) →
      bad e = false)
    (h : structValue types (fields.map Prod.fst) (fieldValue types fields) oid t = .error e) :
    bad e = false := by
  simp only [structValue, except_bind_error] at h
  rcases h with h | ⟨decl, hdecl, h | ⟨_, _, h | ⟨given, _, h⟩⟩⟩
  · exact declaration_avoids ht h
  · exact checkFields_avoids hbad h
  · refine collectFields_avoids ?_ h
    intro f hf e he
    exact hfields (fun oid hoid => fields_among (hback oid hoid) hdecl f hf) he
  · cases h

mutual

/-- A value is refused for its own faults, where all types that it can refer to are declared. -/
theorem value_avoids (hbad : OnlyReferences bad)
    (hback : ∀ oid, bad (.dangling oid) = true → Backward types.toList) :
    ∀ (v : Value) {oid : String} {t : ValueType} {e : ResolveError}, Declares bad types t.typeIds →
      value types v oid t = .error e → bad e = false
  | .string _, _, _, _, _, h | .int32 _, _, _, _, _, h | .float32 _, _, _, _, _, h
  | .strings _, _, _, _, _, h | .int32s _, _, _, _, _, h | .float32s _, _, _, _, _, h =>
    plain_avoids hbad rfl h
  | .struct fields, oid, t, e, ht, h => by
    cases t with
    | struct u =>
      rw [value] at h
      exact structValue_avoids hbad hback ht (fieldValue_avoids hbad hback fields) h
    | _ => exact mismatch_avoids hbad (by simp only [value]) h
  | .structs items, oid, t, e, ht, h => by
    cases t with
    | array element =>
      cases element with
      | struct u =>
        simp only [value, except_bind_error] at h
        rcases h with h | ⟨_, _, h⟩
        · exact structItems_avoids hbad hback items ht h
        · cases h
      | _ => exact mismatch_avoids hbad (by simp only [value]) h
    | _ => exact mismatch_avoids hbad (by simp only [value]) h
  | .variant name v, oid, t, e, ht, h => by
    cases t with
    | variant u =>
      simp only [value, except_bind_error] at h
      rcases h with h | ⟨decl, hdecl, h | ⟨⟨index, a⟩, ha, h | ⟨_, _, h⟩⟩⟩
      · exact declaration_avoids ht h
      · exact findAlternative_avoids hbad h
      · exact value_avoids hbad hback v
          (fun oid hoid => alternative_among (hback oid hoid) hdecl ha) h
      · cases h
    | _ => exact mismatch_avoids hbad (by simp only [value]) h
  | .variants items, oid, t, e, ht, h => by
    cases t with
    | array element =>
      cases element with
      | variant u =>
        simp only [value, except_bind_error] at h
        rcases h with h | ⟨_, _, h⟩
        · exact variantItems_avoids hbad hback items ht h
        · cases h
      | _ => exact mismatch_avoids hbad (by simp only [value]) h
    | _ => exact mismatch_avoids hbad (by simp only [value]) h

theorem fieldValue_avoids (hbad : OnlyReferences bad)
    (hback : ∀ oid, bad (.dangling oid) = true → Backward types.toList) :
    ∀ (fields : List (String × Value)) {name oid : String} {t : ValueType} {e : ResolveError},
      Declares bad types t.typeIds → fieldValue types fields name oid t = some (.error e) →
        bad e = false
  | [], _, _, _, _, _, h => by simp [fieldValue] at h
  | (key, v) :: rest, name, oid, t, e, ht, h => by
    unfold fieldValue at h
    split at h
    · exact value_avoids hbad hback v ht (Option.some.inj h)
    · exact fieldValue_avoids hbad hback rest ht h

theorem structItems_avoids (hbad : OnlyReferences bad)
    (hback : ∀ oid, bad (.dangling oid) = true → Backward types.toList) :
    ∀ (items : List (List (String × Value))) {oid : String} {k : Nat} {t : TypeId}
      {e : ResolveError},
      Declares bad types [t] → structItems types items oid k t = .error e → bad e = false
  | [], _, _, _, _, _, h => by simp [structItems] at h
  | fields :: rest, _, _, _, _, ht, h => by
    simp only [structItems, except_bind_error] at h
    rcases h with h | ⟨_, _, h | ⟨_, _, h⟩⟩
    · exact structValue_avoids hbad hback ht (fieldValue_avoids hbad hback fields) h
    · exact structItems_avoids hbad hback rest ht h
    · cases h

theorem variantItems_avoids (hbad : OnlyReferences bad)
    (hback : ∀ oid, bad (.dangling oid) = true → Backward types.toList) :
    ∀ (items : List (String × Value)) {oid : String} {k : Nat} {t : TypeId} {e : ResolveError},
      Declares bad types [t] → variantItems types items oid k t = .error e → bad e = false
  | [], _, _, _, _, _, h => by simp [variantItems] at h
  | (name, v) :: rest, _, _, _, _, ht, h => by
    simp only [variantItems, except_bind_error] at h
    rcases h with h | ⟨decl, hdecl, h | ⟨⟨index, a⟩, ha, h | ⟨_, _, h | ⟨_, _, h⟩⟩⟩⟩
    · exact declaration_avoids ht h
    · exact findAlternative_avoids hbad h
    · exact value_avoids hbad hback v
        (fun oid hoid => alternative_among (hback oid hoid) hdecl ha) h
    · exact variantItems_avoids hbad hback rest ht h
    · cases h

end

theorem settleValue_spares (hbad : OnlyReferences bad)
    (hback : ∀ oid, bad (.dangling oid) = true → Backward s.device.types.toList) {fqoid : String}
    {type : ValueType} (htype : Declares bad s.device.types type.typeIds)
    (inherited : Option Initializer) (given : Option Value) :
    Spares bad s (settleValue fqoid type inherited given) := by
  cases given with
  | none => exact pure_spares _
  | some v =>
    apply device_spares.bind
    intro d t hd
    obtain ⟨rfl, rfl⟩ := device_ok.mp hd
    exact (lift_spares fun e => value_avoids hbad hback v htype).bind fun _ _ _ => pure_spares _

end Values

section Lists

theorem mapM_spares {f : α → Resolve β} (h : ∀ a t, Spares bad t (f a)) (as : List α)
    (s : Progress) :
    Spares bad s (as.mapM f) := by
  induction as generalizing s with
  | nil =>
    rw [List.mapM_nil]
    exact pure_spares _
  | cons a rest ih =>
    rw [List.mapM_cons]
    exact (h a s).bind fun _ t _ => (ih t).bind fun _ _ _ => pure_spares _

/-- What only reads does so from the same progress every time. -/
theorem mapM_spares_of_still {f : α → Resolve β} (hstill : ∀ a b t, (f a).run s = .ok b t → s = t)
    (h : ∀ a, Spares bad s (f a)) (as : List α) : Spares bad s (as.mapM f) := by
  induction as with
  | nil =>
    rw [List.mapM_nil]
    exact pure_spares _
  | cons a rest ih =>
    rw [List.mapM_cons]
    apply (h a).bind
    intro b t hb
    obtain rfl := hstill a b t hb
    exact ih.bind fun _ _ _ => pure_spares _

theorem forM_spares {f : α → Resolve PUnit} (h : ∀ a t, Spares bad t (f a)) (as : List α)
    (s : Progress) :
    Spares bad s (as.forM f) := by
  induction as generalizing s with
  | nil => exact pure_spares _
  | cons a rest ih => exact (h a s).bind fun _ t _ => ih t

/-- What is done only where there is something. -/
theorem option_mapM_spares {f : α → Resolve β} {a? : Option α}
    (h : ∀ a, a? = some a → Spares bad s (f a)) :
    Spares bad s (a?.mapM f) := by
  cases a? with
  | none => exact pure_spares _
  | some a => exact (h a rfl).map some

theorem option_forM_spares {f : α → Resolve PUnit} {a? : Option α}
    (h : ∀ a, a? = some a → Spares bad s (f a)) :
    Spares bad s (a?.forM f) := by
  cases a? with
  | none => exact pure_spares _
  | some a => exact h a rfl

end Lists

section Copies

variable (hbad : OnlyReferences bad) (hdangling : ∀ oid, bad (.dangling oid) = false)

include hbad hdangling

/-- A look-up is no matter where a dangling index is not bad. -/
theorem copyChild_spares {below : ParamId → ParamId → Resolve Unit}
    (h : ∀ id child t, Spares bad t (below id child)) (target child : ParamId) :
    Spares bad s (copyChild below target child) := by
  apply (param_spares (by simp [hdangling])).bind
  intro parent t _
  apply (param_spares (by simp [hdangling])).bind
  intro source t _
  apply (enterParam_spares hbad _).bind
  intro id t _
  apply (h id child t).bind
  intro _ t _
  apply (register_spares (by simp [hdangling])).bind
  intro _ t _
  exact (param_spares (by simp [hdangling])).bind fun _ _ _ => pure_spares _

theorem copyChildren_spares (depth : Nat) (target template : ParamId) :
    Spares bad s (copyChildren depth target template) := by
  induction depth generalizing s target template with
  | zero => exact throw_spares (hdangling _)
  | succ depth ih =>
    apply (param_spares (by simp [hdangling])).bind
    intro source t _
    have hcopy : ∀ (e : String × ParamId) t,
        Spares bad t (copyChild (copyChildren depth) target e.2) :=
      fun e t => copyChild_spares hbad hdangling (fun id child t => ih id child) target e.2
    apply (mapM_spares hcopy source.children t).bind
    intro children t _
    exact updateParam_spares (by simp [hdangling])

theorem inherit_spares (site : Site) (oid : String) (id : ParamId) (bare : Bool) (b : Binding) :
    Spares bad s (Resolve.inherit site oid id bare b) := by
  unfold Resolve.inherit
  cases bare with
  | false => exact (throw_spares (hbad _ rfl)).bind fun _ _ h => (throw_ok.mp h).elim
  | true =>
    simp only [if_true]
    refine Spares.bind (device_spares.bind fun _ _ _ => copyChildren_spares hbad hdangling _ _ _) ?_
    intro _ t _
    split
    · split
      · apply (checkNested_spares hbad (by simp [hdangling]) _).bind
        intro _ t _
        exact (addType_spares _).bind fun _ _ _ => pure_spares _
      · exact pure_spares _
    · exact (param_spares (by simp [hdangling])).bind fun _ _ _ => pure_spares _

end Copies

end Resolve

end DeviceModel
