import DeviceModel.Proofs.Instantiation
import DeviceModel.Proofs.Ledger

namespace DeviceModel

namespace Resolve

open Description (Declaration Import)

variable {α β : Type}

section Still

/-- What a ledger shows of a progress. -/
def shown (s : Progress) : Array Param × Entries String × Registry :=
  (s.device.nodes, s.idents, s.registry)

/-- A run that adds and changes no parameter, takes no name and registers nothing, however it
ends. -/
def Still (x : Resolve α) : Prop := ∀ s, shown (reached (x.run s)) = shown s

theorem Still.ok {x : Resolve α} (hx : Still x) {a : α} {s t : Progress} (h : x.run s = .ok a t) :
    shown t = shown s := by
  have hs := hx s
  rw [h] at hs
  exact hs

theorem Still.error {x : Resolve α} (hx : Still x) {e : ResolveError} {s t : Progress}
    (h : x.run s = .error e t) :
    shown t = shown s := by
  have hs := hx s
  rw [h] at hs
  exact hs

theorem Still.bind {x : Resolve α} {f : α → Resolve β} (hx : Still x) (hf : ∀ a, Still (f a)) :
    Still (x >>= f) := by
  intro s
  rw [run_bind]
  cases hrun : x.run s with
  | ok a t => exact (hf a t).trans (hx.ok hrun)
  | error e t => exact hx.error hrun

theorem pure_still (a : α) : Still (pure a) := fun _ => rfl

theorem throw_still (e : ResolveError) : Still (throw e : Resolve α) := fun _ => rfl

theorem get_still : Still get := fun _ => rfl

theorem lift_still (x : Except ResolveError α) : Still (lift x) := by
  cases x with
  | ok a => exact pure_still a
  | error e => exact throw_still e

theorem note_still (level : Log.Level) (target text : String) : Still (note level target text) :=
  fun _ => rfl

theorem device_still : Still device := fun _ => rfl

theorem updateDevice_still {f : Device → Device} (h : ∀ d, (f d).nodes = d.nodes) :
    Still (updateDevice f) := by
  intro s
  change ((f s.device).nodes, s.idents, s.registry) = _
  rw [h]
  rfl

theorem lookUp_still (oid : String) (find : Device → Option α) : Still (lookUp oid find) := by
  refine device_still.bind fun d => ?_
  split
  · exact pure_still _
  · exact throw_still _

theorem addConstraint_still (c : Constraint) : Still (addConstraint c) := fun _ => rfl

theorem addType_still (t : TypeDecl) : Still (addType t) := fun _ => rfl

theorem checkDistinct_still (scope : String) (entries : Entries α) :
    Still (checkDistinct scope entries) := by
  unfold checkDistinct
  split
  · exact throw_still _
  · exact pure_still _

theorem mapM_still {f : α → Resolve β} (h : ∀ a, Still (f a)) (as : List α) :
    Still (as.mapM f) := by
  induction as with
  | nil => exact pure_still []
  | cons a rest ih =>
    rw [List.mapM_cons]
    exact (h a).bind fun _ => ih.bind fun _ => pure_still _

theorem forM_still {f : α → Resolve PUnit} (h : ∀ a, Still (f a)) (as : List α) :
    Still (as.forM f) := by
  induction as with
  | nil => exact pure_still _
  | cons a rest ih =>
    exact (h a).bind fun _ => ih

theorem option_mapM_still {f : α → Resolve β} (h : ∀ a, Still (f a)) (a? : Option α) :
    Still (a?.mapM f) := by
  cases a? with
  | none => exact pure_still none
  | some a => exact (h a).bind fun _ => pure_still _

theorem option_forM_still {f : α → Resolve PUnit} (h : ∀ a, Still (f a)) (a? : Option α) :
    Still (a?.forM f) := by
  cases a? with
  | none => exact pure_still _
  | some a => exact h a

theorem declaredConstraint_still (p : Param) (id : ParamId) (c : Description.Constraint) :
    Still (declaredConstraint p id c) := by
  unfold declaredConstraint
  split
  · split
    · exact throw_still _
    · refine device_still.bind fun d => ?_
      split
      · exact pure_still _
      · exact throw_still _
  · exact (lift_still _).bind fun _ => addConstraint_still _

theorem ownConstraint_still (id : ParamId) (c : Description.Constraint) :
    Still (ownConstraint id c) := by
  refine get_still.bind fun s => ?_
  split
  · exact pure_still _
  · refine Still.bind (lookUp_still _ _) fun p => (declaredConstraint_still p id c).bind fun k => ?_
    exact Still.bind (fun _ => rfl) fun _ => pure_still _

theorem locate_still (slot : Slot) : Still slot.locate := by
  unfold Slot.locate
  split
  · exact Still.bind (lookUp_still _ _) fun _ => pure_still _
  · exact pure_still _

theorem bindTemplate_still (fqoid : String) (declared : TypeCode) (templateOid : String) :
    Still (bindTemplate fqoid declared templateOid) := by
  refine get_still.bind fun s => ?_
  split
  · exact throw_still _
  · refine Still.bind (lookUp_still _ _) fun template => ?_
    split
    · exact throw_still _
    · exact (note_still _ _ _).bind fun _ => pure_still _

theorem checkNested_still (site : Site) (oid name : String) :
    Still (checkNested site oid name) := by
  unfold checkNested
  split
  · split
    · exact Still.bind (lookUp_still _ _) fun _ => throw_still _
    · exact pure_still _
  · exact pure_still _

theorem checkNames_still (site : Site) (oid : String) (declared : TypeCode) :
    Still (checkNames site oid declared) := by
  refine (checkNested_still _ _ _).bind fun _ => ?_
  split
  · exact checkNested_still _ _ _
  · exact pure_still _

theorem checkAlternatives_still (fqoid : String) (declared : TypeCode) (bare : Bool) :
    Still (checkAlternatives fqoid declared bare) := by
  unfold checkAlternatives
  split
  · exact throw_still _
  · exact pure_still _

theorem checkConstraint_still (fqoid : String) (type : ValueType) (id : ConstraintId) :
    Still (checkConstraint fqoid type id) := by
  refine Still.bind (lookUp_still _ _) fun c => ?_
  dsimp only
  split
  · exact pure_still _
  · exact throw_still _

theorem settleValue_still (fqoid : String) (type : ValueType) (inherited : Option Initializer)
    (given : Option Description.Value) : Still (settleValue fqoid type inherited given) := by
  cases given with
  | none => exact pure_still _
  | some v => exact device_still.bind fun _ => (lift_still _).bind fun _ => pure_still _

theorem openImport_still (source : Source) (opened : List Path) (site : Site) (oid : String)
    (i : Import) :
    Still (openImport source opened site oid i) := by
  refine (lift_still _).bind fun path => (lift_still _).bind fun identity =>
    (note_still _ _ _).bind fun _ => ?_
  exact (lift_still _).bind fun _ => pure_still _

theorem languagePacks_still (packs : List LanguagePack) : Still (languagePacks packs) :=
  (checkDistinct_still _ _).bind fun _ => updateDevice_still fun _ => rfl

theorem sharedConstraint_still (oid : String) (c : Description.Constraint) :
    Still (sharedConstraint oid c) := by
  unfold sharedConstraint
  split
  · exact fun _ => rfl
  · refine (lift_still _).bind fun rule => (note_still _ _ _).bind fun _ =>
      (addConstraint_still _).bind fun id => ?_
    exact updateDevice_still fun _ => rfl

theorem sharedConstraints_still (constraints : Entries Description.Constraint) :
    Still (sharedConstraints constraints) :=
  (checkDistinct_still _ _).bind fun _ =>
    forM_still (fun e => sharedConstraint_still e.1 e.2) constraints

theorem menuGroups_still (groups : List MenuGroup) : Still (menuGroups groups) := by
  have hgroup : ∀ g : MenuGroup, Still (menuGroup g) := fun g =>
    (checkDistinct_still _ _).bind fun _ => device_still.bind fun _ => (lift_still _).bind fun _ =>
      pure_still _
  exact (checkDistinct_still _ _).bind fun _ => mapM_still hgroup groups

end Still

/-- A parameter looks for its template while it is the innermost one under way. -/
def Moment.Asks (m : Moment) : Prop :=
  ∀ id oid, m.asked = some (id, oid) → m.underway.head? = some id

/-- From one watch to another, step by step. -/
inductive Onward (w : Watch) : Watch → Prop where
  | refl : Onward w w
  | next {v : Watch} {m : Moment} (before : Onward w v) (step : v.now.ledger.Step m.ledger)
      (asks : m.Asks) : Onward w (v.next m)

namespace Onward

variable {v w : Watch}

theorem trans {u : Watch} (h : Onward u v) (h' : Onward v w) : Onward u w := by
  induction h' with
  | refl => exact h
  | next _ step asks ih => exact ih.next step asks

theorem sound (h : Onward v w) (hv : v.now.ledger.Sound) : w.now.ledger.Sound := by
  induction h with
  | refl => exact hv
  | next _ step _ ih => exact step.sound ih

/-- What is in the arena keeps its position. -/
theorem position (h : Onward v w) {id : ParamId} {P : Position}
    (hP : v.now.ledger.position? id = some P) :
    w.now.ledger.position? id = some P := by
  induction h with
  | refl => exact hP
  | next _ step _ ih => exact step.position ih

end Onward

namespace Watched

/-- Where a run ends, well or not. -/
def ending : EStateM.Result ResolveError Watch α → Watch
  | .ok _ w => w
  | .error _ w => w

/-- From `w`, the run goes on step by step, and where it succeeds, `Q` holds at the end. -/
structure Goes (w : Watch) (x : Watched α) (Q : α → Watch → Prop) : Prop where
  onward : Onward w (ending (x.run w))
  ends : ∀ a w', x.run w = .ok a w' → Q a w'

/-- From sound moments at which just these parameters are under way, the run goes on step by step,
and where it succeeds, the same are under way again. -/
def Balanced (under : List ParamId) (x : Watched α) : Prop :=
  ∀ w : Watch, w.now.ledger.Sound → w.now.underway = under →
    Goes w x fun _ w' => w'.now.underway = under

variable {w : Watch} {under : List ParamId} {id : ParamId}

section Failures

variable {s t : Progress} {e : ResolveError}

theorem updateParam_error {oid : String} {f : Param → Param}
    (h : (updateParam oid id f).run s = .error e t) :
    shown t = shown s := by
  rcases bind_error.mp h with h | ⟨p, u, hp, h⟩
  · exact (lookUp_still _ _).error h
  · cases h

theorem claimIdent_error (h : (claimIdent id).run s = .error e t) : shown t = shown s := by
  rcases bind_error.mp h with h | ⟨p, u, hp, h⟩
  · exact (lookUp_still _ _).error h
  · obtain ⟨-, rfl⟩ := param_ok.mp hp
    rcases bind_error.mp h with h | ⟨progress, u, hget, h⟩
    · cases h
    · obtain ⟨rfl, rfl⟩ := get_ok.mp hget
      split at h
      · cases h
        rfl
      · cases h

theorem register_error (h : (register id).run s = .error e t) : shown t = shown s := by
  rcases bind_error.mp h with h | ⟨p, u, hp, h⟩
  · exact (lookUp_still _ _).error h
  · split at h <;> cases h

end Failures

section Rules

theorem Goes.bind {x : Watched α} {f : α → Watched β} {Q : α → Watch → Prop} {R : β → Watch → Prop}
    (hx : Goes w x Q) (hf : ∀ a w', Onward w w' → Q a w' → Goes w' (f a) R) :
    Goes w (x >>= f) R := by
  obtain ⟨honward, hends⟩ := hx
  cases hrun : x.run w with
  | ok a v =>
    have hbind : (x >>= f).run w = (f a).run v := by
      change EStateM.bind x f w = _
      rw [EStateM.bind, show x w = _ from hrun]
      rfl
    rw [hrun] at honward
    obtain ⟨honward', hends'⟩ := hf a v honward (hends a v hrun)
    rw [← hbind] at honward' hends'
    exact ⟨honward.trans honward', hends'⟩
  | error e v =>
    have hbind : (x >>= f).run w = .error e v := by
      change EStateM.bind x f w = _
      rw [EStateM.bind, show x w = _ from hrun]
    rw [hrun] at honward
    constructor
    · rw [hbind]
      exact honward
    · intro b w' h
      cases hbind.symm.trans h

theorem ledger_of_shown {m : Moment} {s : Progress} (h : shown s = shown m.progress)
    (asked : Option (ParamId × String)) :
    Moment.ledger { m with progress := s, asked } = m.ledger := by
  obtain ⟨hnodes, hidents, hregistry⟩ : s.device.nodes = m.progress.device.nodes ∧
    s.idents = m.progress.idents ∧
      s.registry = m.progress.registry := by simpa [shown] using h
  simp only [Moment.ledger, Moment.device, Moment.registry, hnodes, hidents, hregistry]

theorem asks_of_none {m : Moment} (h : m.asked = none) : m.Asks := by
  intro id oid hasked
  cases h.symm.trans hasked

/-- A step that is marked makes one moment more. -/
theorem marking_goes {mark : Moment → Moment} {x : Resolve α} {Q : α → Watch → Prop}
    (hok : ∀ a s, x.run w.now.progress = .ok a s →
      ∀ m, m = mark { w.now with progress := s, asked := none } → w.now.ledger.Step m.ledger ∧
      m.asked = none ∧ Q a (w.next m))
    (herror : ∀ e s, x.run w.now.progress = .error e s → shown s = shown w.now.progress) :
    Goes w (marking mark x) Q := by
  cases hrun : x.run w.now.progress with
  | ok a s =>
    obtain ⟨hstep, hasked, hQ⟩ := hok a s hrun _ rfl
    have hmarking : (marking mark x).run w =
        .ok a (w.next (mark { w.now with progress := s, asked := none })) := by
      change marking mark x w = _
      rw [marking, hrun]
    constructor
    · rw [hmarking]
      exact Onward.refl.next hstep (asks_of_none hasked)
    · intro b w' h
      cases hmarking.symm.trans h
      exact hQ
  | error e s =>
    have hmarking : (marking mark x).run w =
        .error e (w.next { w.now with progress := s, asked := none }) := by
      change marking mark x w = _
      rw [marking, hrun]
    constructor
    · rw [hmarking]
      refine Onward.refl.next ?_ (asks_of_none rfl)
      rw [ledger_of_shown (herror e s hrun)]
      exact .still
    · intro b w' h
      cases hmarking.symm.trans h

theorem Balanced.bind {x : Watched α} {f : α → Watched β} (hx : Balanced under x)
    (hf : ∀ a, Balanced under (f a)) :
    Balanced under (x >>= f) := by
  intro w hw hunder
  exact (hx w hw hunder).bind fun a w' honward hunder' => hf a w' (honward.sound hw) hunder'

theorem pure_balanced (a : α) : Balanced under (pure a) := by
  intro w _ hunder
  refine ⟨.refl, ?_⟩
  intro b w' h
  cases h
  exact hunder

/-- What fails at once makes no moment. -/
theorem failure_balanced {x : Watched α} {e : ResolveError} (hx : ∀ w, x.run w = .error e w) :
    Balanced under x := by
  intro w _ _
  constructor
  · rw [hx]
    exact .refl
  · intro a w' h
    cases (hx w).symm.trans h

theorem throw_balanced (e : ResolveError) : Balanced under (throw e : Watched α) :=
  failure_balanced fun _ => rfl

theorem throw_bind_balanced (e : ResolveError) (f : α → Watched β) :
    Balanced under (throw e >>= f) :=
  failure_balanced fun _ => rfl

theorem perform_balanced {x : Resolve α} (hx : Still x) : Balanced under (perform x) := by
  intro w _ hunder
  refine marking_goes ?_ fun _ _ => hx.error
  intro a s hrun m hm
  have hledger : m.ledger = w.now.ledger := by
    subst hm
    exact ledger_of_shown (hx.ok hrun) none
  subst hm
  exact ⟨hledger ▸ .still, rfl, hunder⟩

/-- What is read from the arena has the id that it is read under. -/
theorem param_balanced {oid : String} {f : Param → Watched β}
    (hf : ∀ p, p.id = id → Balanced under (f p)) :
    Balanced under (perform (param oid id) >>= f) := by
  intro w hw hunder
  have hread : Goes w (perform (param oid id)) fun p v => v.now.underway = under ∧ p.id = id := by
    refine marking_goes ?_ fun _ _ => (lookUp_still _ _).error
    intro p s hrun m hm
    obtain ⟨hp, rfl⟩ := param_ok.mp hrun
    subst hm
    exact ⟨.still, rfl, hunder, hw.numbered (Ledger.position?_eq_some_iff.mpr ⟨p, hp, rfl⟩)⟩
  exact hread.bind fun p v honward hv => hf p hv.2 v (honward.sound hw) hv.1

/-- What is found at a place stands there. -/
theorem locate_balanced {slot : Slot} {f : Site → Watched β}
    (hf : ∀ site : Site, site.toSlot = slot → Balanced under (f site)) :
    Balanced under (perform slot.locate >>= f) := by
  intro w hw hunder
  have hfound : Goes w (perform slot.locate) fun site v =>
      v.now.underway = under ∧ site.toSlot = slot := by
    refine marking_goes ?_ fun _ _ => (locate_still _).error
    intro site s hrun m hm
    obtain ⟨hslot, -, rfl⟩ := locate_ok.mp hrun
    subst hm
    exact ⟨.still, rfl, hunder, hslot⟩
  exact hfound.bind fun site v honward hv => hf site hv.2 v (honward.sound hw) hv.1

/-- Only the innermost parameter is changed, and it keeps its position. -/
theorem updateParam_balanced (oid : String) {f : Param → Param}
    (hf : ∀ p, position (f p) = position p) :
    Balanced (id :: under) (perform (updateParam oid id f)) := by
  intro w _ hunder
  refine marking_goes ?_ fun _ _ => updateParam_error
  intro _ s hrun m hm
  obtain ⟨p, hp, rfl⟩ := updateParam_ok.mp hrun
  subst hm
  exact ⟨.change hunder hp (hf p), rfl, hunder⟩

theorem ask_balanced (template : Option String) : Balanced (id :: under) (ask id template) := by
  intro w _ hunder
  constructor
  · refine Onward.refl.next .still ?_
    intro id' oid hasked
    obtain ⟨_, -, he⟩ := Option.map_eq_some_iff.mp hasked
    cases he
    exact congrArg List.head? hunder
  · intro _ w' h
    cases h
    exact hunder

theorem mapM_balanced {f : α → Watched β} (h : ∀ a, Balanced under (f a)) (as : List α) :
    Balanced under (as.mapM f) := by
  induction as with
  | nil => exact pure_balanced []
  | cons a rest ih =>
    rw [List.mapM_cons]
    exact (h a).bind fun _ => ih.bind fun _ => pure_balanced _

section Call

variable {p : Param}

/-- The position that a parameter has in the arena. -/
def positionAt (id : ParamId) (p : Param) : Position := position { p with id }

theorem position_of_found {q : Param} (hq : w.now.progress.device.param? id = some q)
    (hP : w.now.ledger.position? id = some (positionAt id p)) :
    q.fqoid = p.fqoid ∧ q.realm = p.realm := by
  obtain ⟨q', hq', hposition⟩ := Ledger.position?_eq_some_iff.mp hP
  cases Option.some.inj (hq.symm.trans hq')
  exact ⟨congrArg Position.fqoid hposition, congrArg Position.realm hposition⟩

theorem addParam_goes (hw : w.now.ledger.Sound) (hunder : w.now.underway = under)
    (hcommand : p.isCommand = true → p.realm = .commands) :
    Goes w (perform (addParam p)) fun id v =>
      v.now.underway = under ∧ id ∉ v.now.ledger.begun ∧
        v.now.ledger.position? id = some (positionAt id p) := by
  refine marking_goes ?_ ?_
  · intro id s hrun m hm
    obtain ⟨rfl, rfl⟩ := addParam_ok.mp hrun
    subst hm
    refine ⟨.add { p with id := ⟨w.now.ledger.nodes.size⟩ } rfl hcommand, rfl, hunder,
      hw.not_begun, ?_⟩
    refine Ledger.position?_eq_some_iff.mpr ⟨_, ?_, rfl⟩
    exact (w.now.ledger.param?_push _ _).trans (if_pos rfl)
  · intro e s hrun
    cases hrun

theorem enter_goes (hunder : w.now.underway = under) (hnew : id ∉ w.now.ledger.begun)
    (hP : w.now.ledger.position? id = some (positionAt id p)) (hparent : p.parent = under.head?) :
    Goes w (enter id (claimIdent id)) fun _ v =>
      v.now.underway = id :: under ∧ v.now.ledger.position? id = some (positionAt id p) := by
  refine marking_goes ?_ fun _ _ => claimIdent_error
  intro _ s hrun m hm
  obtain ⟨q, hq, hfree, rfl⟩ := claimIdent_ok.mp hrun
  -- What is looked up has the oid and realm that were entered.
  obtain ⟨hfqoid, hrealm⟩ := position_of_found hq hP
  rw [Param.ident, hfqoid, hrealm] at hfree
  rw [hfqoid, hrealm] at hm
  subst hm hunder
  exact ⟨Ledger.Step.enter (P := positionAt id p) hP hparent hnew hfree, rfl, rfl, hP⟩

theorem finish_goes (hunder : w.now.underway = id :: under)
    (hP : w.now.ledger.position? id = some (positionAt id p)) :
    Goes w (finish id (register id)) fun _ v => v.now.underway = under := by
  refine marking_goes ?_ fun _ _ => register_error
  intro _ s hrun m hm
  obtain ⟨q, hq, rfl⟩ := register_ok.mp hrun
  obtain ⟨hfqoid, hrealm⟩ := position_of_found hq hP
  have hledger : m.ledger =
      { w.now.ledger with
        registry := w.now.ledger.registered (positionAt id p)
        underway := under
        finished := id :: w.now.finished } := by
    subst hm
    simp only [Moment.ledger, Moment.device, Moment.registry, withFinished, Ledger.registered,
      positionAt, position, hunder, List.tail_cons, hfqoid, hrealm]
    cases p.realm <;> rfl
  subst hm
  refine ⟨?_, rfl, congrArg List.tail hunder⟩
  rw [hledger]
  exact Ledger.Step.finish (P := positionAt id p) hunder hP

end Call

/-- A parameter that is called for in its place is begun and finished, whatever is begun and
finished meanwhile. -/
theorem call_balanced {p : Param} {body : ParamId → Watched Unit} (hparent : p.parent = under.head?)
    (hcommand : p.isCommand = true → p.realm = .commands)
    (hbody : ∀ id, Balanced (id :: under) (body id)) :
    Balanced under (call p body) := by
  intro w hw hunder
  refine (addParam_goes hw hunder hcommand).bind fun id v₁ honward₁ hv₁ => ?_
  have hsound₁ := honward₁.sound hw
  refine (enter_goes hv₁.1 hv₁.2.1 hv₁.2.2 hparent).bind fun _ v₂ honward₂ hv₂ => ?_
  have hsound₂ := honward₂.sound hsound₁
  -- the body may change the parameter, but not the oid and realm that it is registered under
  refine (hbody id v₂ hsound₂ hv₂.1).bind fun _ v₃ honward₃ hunder₃ => ?_
  refine (finish_goes hunder₃ (honward₃.position hv₂.2)).bind fun _ v₄ honward₄ hunder₄ => ?_
  exact pure_balanced id v₄ (honward₄.sound (honward₃.sound hsound₂)) hunder₄

end Rules

section Copies

theorem copyChild_balanced {below : ParamId → ParamId → Watched Unit} {target : ParamId}
    (htarget : some target = under.head?)
    (hbelow : ∀ id child, Balanced (id :: under) (below id child)) (child : ParamId) :
    Balanced under (copyChild below target child) := by
  refine param_balanced fun parent hid =>
    (perform_balanced (lookUp_still _ _)).bind fun source => ?_
  refine Balanced.bind (call_balanced ?_ ?_ fun id => hbelow id child) fun id => ?_
  · rw [← htarget, ← hid]
    rfl
  · intro hcommand
    cases hcommand
  · exact (perform_balanced (lookUp_still _ _)).bind fun _ => pure_balanced _

theorem copyChildren_balanced (depth : Nat) (target template : ParamId) (outer : List ParamId) :
    Balanced (target :: outer) (copyChildren depth target template) := by
  induction depth generalizing target template outer with
  | zero => exact throw_balanced _
  | succ depth ih =>
    refine (perform_balanced (lookUp_still _ _)).bind fun source => ?_
    have heach : ∀ e : String × ParamId,
        Balanced (target :: outer) (copyChild (copyChildren depth) target e.2) :=
      fun e => copyChild_balanced rfl (fun id child => ih id child _) e.2
    exact (mapM_balanced heach source.children).bind fun children =>
      updateParam_balanced _ fun _ => rfl

theorem inherit_balanced (site : Site) (oid : String) (bare : Bool) (b : Binding) :
    Balanced (id :: under) (inherit site oid id bare b) := by
  unfold inherit
  cases bare with
  | false => exact throw_bind_balanced _ _
  | true =>
    simp only [if_true]
    refine Balanced.bind
      ((perform_balanced device_still).bind fun d => copyChildren_balanced _ _ _ _) fun _ => ?_
    split
    · split
      · refine (perform_balanced (checkNested_still _ _ _)).bind fun _ => ?_
        exact (perform_balanced (addType_still _)).bind fun _ => pure_balanced _
      · exact pure_balanced _
    · exact (perform_balanced (lookUp_still _ _)).bind fun _ => pure_balanced _

end Copies

section Params

/-- Parameters that stand below the innermost one, or outermost where there is none. -/
def BlockBalanced (block : Block) : Prop :=
  ∀ (under : List ParamId) (slot : Slot), slot.parent = under.head? → Balanced under (block slot)

variable {block : Block} (hblock : BlockBalanced block)

include hblock

theorem resolveChildren_balanced (fqoid : String) {slot : Slot} (hslot : slot.parent = some id) :
    Balanced (id :: under) (resolveChildren block fqoid id slot) := by
  refine (hblock (id :: under) slot hslot).bind fun children => ?_
  refine Balanced.bind (updateParam_balanced _ ?_) fun _ => perform_balanced (lookUp_still _ _)
  exact fun _ => rfl

theorem declare_balanced (site : Site) (oid : String) (bare : Bool) (declared : TypeCode) :
    Balanced (id :: under) (declare block site oid id bare declared) := by
  refine (perform_balanced (checkNames_still _ _ _)).bind fun _ => ?_
  refine (resolveChildren_balanced hblock _ rfl).bind fun children => ?_
  refine (perform_balanced (checkAlternatives_still _ _ _)).bind fun _ => ?_
  refine (perform_balanced (addType_still _)).bind fun type => ?_
  dsimp only
  split
  · exact (perform_balanced (addType_still _)).bind fun _ => pure_balanced _
  · exact pure_balanced _

theorem undeclared_balanced (site : Site) (oid : String) (bare : Bool) (declared : TypeCode) :
    Balanced (id :: under) (undeclared block site oid id bare declared) := by
  unfold undeclared
  cases bare with
  | true => exact pure_balanced _
  | false =>
    simp only [Bool.false_eq_true, if_false]
    cases site.isCommand with
    | false => exact throw_bind_balanced _ _
    | true => exact (resolveChildren_balanced hblock _ rfl).bind fun _ => pure_balanced _

theorem settleType_balanced (bare : Bool) (site : Site) (oid : String) (declared : TypeCode)
    (binding : Option Binding) :
    Balanced (id :: under) (settleType block bare site oid id declared binding) := by
  cases binding with
  | some b => exact inherit_balanced site oid bare b
  | none =>
    simp only [settleType]
    split
    · exact declare_balanced hblock site oid bare declared
    · exact undeclared_balanced hblock site oid bare declared

theorem settle_balanced (bare : Bool) (site : Site) (oid : String) (declared : TypeCode)
    (d : Declaration) :
    Balanced (id :: under) (settle block bare site oid declared d id) := by
  refine (perform_balanced (option_mapM_still (ownConstraint_still _) _)).bind fun own => ?_
  refine (ask_balanced _).bind fun _ => ?_
  refine (perform_balanced (option_mapM_still (bindTemplate_still _ _) _)).bind fun binding => ?_
  refine (settleType_balanced hblock _ _ _ _ _).bind fun typing => ?_
  refine (perform_balanced (option_forM_still (checkConstraint_still _ _) _)).bind fun _ => ?_
  refine (perform_balanced (settleValue_still _ _ _ _)).bind fun value => ?_
  exact updateParam_balanced _ fun _ => rfl

theorem resolveDeclared_balanced (bare : Bool) {site : Site} (hsite : site.parent = under.head?)
    (oid : String) (d : Declaration) : Balanced under (resolveDeclared block bare site oid d) := by
  refine (perform_balanced (lift_still _)).bind fun declared =>
    (perform_balanced (note_still _ _ _)).bind fun _ => ?_
  refine call_balanced hsite ?_ fun id => settle_balanced hblock _ _ _ _ _
  intro hcommand
  simp only [blank, Slot.isCommand, Bool.and_eq_true, decide_eq_true_eq] at hcommand
  exact hcommand.1

end Params

/-- Imports that are balanced wherever a parameter stands. -/
def ImporterBalanced (importer : Importer) : Prop :=
  ∀ (under : List ParamId) (site : Site) (oid : String) (i : Import), site.parent = under.head? →
    Balanced under (importer site oid i)

mutual

theorem resolveParam_balanced {importer : Importer} (himporter : ImporterBalanced importer)
    (under : List ParamId) (site : Site) (hsite : site.parent = under.head?) (oid : String) :
    ∀ q : Description.Param, Balanced under (resolveParam importer site oid q)
  | ⟨d, params⟩ => by
    cases hsource : d.source with
    | some i =>
      simp only [resolveParam, hsource]
      exact himporter under site oid i hsite
    | none =>
      simp only [resolveParam, hsource]
      refine resolveDeclared_balanced ?_ _ hsite _ _
      intro inner slot hslot
      exact (perform_balanced (checkDistinct_still _ _)).bind fun _ =>
        resolveEach_balanced himporter inner slot hslot params

theorem resolveEach_balanced {importer : Importer} (himporter : ImporterBalanced importer)
    (under : List ParamId) (slot : Slot) (hslot : slot.parent = under.head?) :
    ∀ params : List (String × Description.Param), Balanced under (resolveEach importer slot params)
  | [] => pure_balanced []
  | (oid, q) :: rest => by
    refine locate_balanced fun site hsite => ?_
    have hparent : site.parent = under.head? := hsite ▸ hslot
    refine (resolveParam_balanced himporter under site hparent oid q).bind fun _ => ?_
    exact (resolveEach_balanced himporter under slot hslot rest).bind fun _ => pure_balanced _

end

theorem importer_balanced (source : Source) (room : Nat) (opened : List Path) :
    ImporterBalanced (importer source room opened) := by
  induction room generalizing opened with
  | zero => exact fun _ _ _ _ _ => throw_balanced _
  | succ room ih =>
    intro under site oid i hsite
    refine (perform_balanced (openImport_still _ _ _ _ _)).bind fun opens => ?_
    refine locate_balanced fun there hthere => ?_
    have hparent : there.parent = under.head? := hthere ▸ hsite
    exact resolveParam_balanced (ih _) under there hparent oid opens.2

theorem forest_balanced (source : Source) (importRoot : Path) (realm : Realm)
    (params : Entries Description.Param) :
    Balanced [] (forest source importRoot realm params) :=
  (perform_balanced (checkDistinct_still _ _)).bind fun _ =>
    resolveEach_balanced (importer_balanced source _ []) [] _ rfl params

theorem parts_balanced (source : Source) (importRoot : Path) (d : Description.Device) :
    Balanced [] (parts source importRoot d) := by
  have hupdate {f : Device → Device} (hf : ∀ d, (f d).nodes = d.nodes) :
      Balanced [] (perform (updateDevice f)) := perform_balanced (updateDevice_still hf)
  refine (perform_balanced (lift_still _)).bind fun _ =>
    (perform_balanced (languagePacks_still _)).bind fun _ => ?_
  refine (perform_balanced (sharedConstraints_still _)).bind fun _ => ?_
  refine (forest_balanced _ _ _ _).bind fun params => Balanced.bind (hupdate ?_) fun _ => ?_
  · exact fun _ => rfl
  refine (forest_balanced _ _ _ _).bind fun commands => Balanced.bind (hupdate ?_) fun _ => ?_
  · exact fun _ => rfl
  refine (perform_balanced (menuGroups_still _)).bind fun groups =>
    Balanced.bind (hupdate ?_) fun _ => ?_
  · exact fun _ => rfl
  exact (perform_balanced device_still).bind fun device => perform_balanced (note_still _ _ _)

end Watched

end Resolve

end DeviceModel
