import DeviceModel.Proofs.Faults

namespace DeviceModel.Resolve

open Description (Declaration Import)

variable {α β : Type}

/-- A moment of a resolution. Parameters under way are listed from the inside out, finished ones
from the last one on. `asked` is a parameter that looks for its template at this moment, and the oid
under which it does. -/
structure Moment where
  progress : Progress
  underway : List ParamId := []
  finished : List ParamId := []
  asked : Option (ParamId × String) := none

namespace Moment

def device (m : Moment) : Device := m.progress.device

def registry (m : Moment) : Registry := m.progress.registry

end Moment

/-- The present moment and those before it, the last one first. -/
structure Watch where
  now : Moment
  past : List Moment := []

namespace Watch

def next (w : Watch) (m : Moment) : Watch := ⟨m, w.now :: w.past⟩

/-- All moments, in order. -/
def moments (w : Watch) : List Moment := (w.now :: w.past).reverse

end Watch

/-- A resolution that is watched. -/
abbrev Watched := EStateM ResolveError Watch

namespace Watched

/-- A step of a resolution. Where it succeeds, the moment after it is marked. -/
def marking (mark : Moment → Moment) (x : Resolve α) : Watched α := fun w =>
  match x.run w.now.progress with
  | .ok a s => .ok a (w.next (mark { w.now with progress := s, asked := none }))
  | .error e s => .error e (w.next { w.now with progress := s, asked := none })

def perform (x : Resolve α) : Watched α := marking id x

/-- A step after which a parameter is under way. -/
def enter (id : ParamId) (x : Resolve α) : Watched α :=
  marking (fun m => { m with underway := id :: m.underway }) x

/-- The last step of a parameter, after which it is finished. -/
def finish (id : ParamId) (x : Resolve α) : Watched α :=
  marking (fun m => { m with underway := m.underway.tail, finished := id :: m.finished }) x

/-- A parameter is about to look for its template, if it has one. -/
def ask (id : ParamId) (template : Option String) : Watched Unit :=
  modify fun w => w.next { w.now with asked := template.map fun oid => (id, oid) }

/-- A call that resolves or copies one parameter: it is under way while `body` settles what it is,
and finished at the end. -/
def call (p : Param) (body : ParamId → Watched Unit) : Watched ParamId := do
  let id ← perform (addParam p)
  enter id (claimIdent id)
  body id
  finish id (register id)
  return id

def copyChild (below : ParamId → ParamId → Watched Unit) (target child : ParamId) :
    Watched (String × ParamId) := do
  let parent ← perform (param "" target)
  let source ← perform (param parent.fqoid child)
  let id ← call (placed source parent) fun id => below id child
  return ((← perform (param parent.fqoid id)).oid, id)

def copyChildren : Nat → ParamId → ParamId → Watched Unit
  | 0, _, _ => throw (.dangling "")
  | depth + 1, target, template => do
    let source ← perform (param "" template)
    let children ← source.children.mapM fun e => copyChild (copyChildren depth) target e.2
    perform (updateParam "" target fun p => { p with children })

def instantiate (target template : ParamId) : Watched Unit := do
  copyChildren (← perform device).nodes.size target template

def inherit (site : Site) (oid : String) (id : ParamId) (bare : Bool) (b : Binding) :
    Watched Typing := do
  unless bare do throw (.paramsBesideTemplate (site.fqoid oid))
  instantiate id b.template
  if b.overElements then
    if b.type.element.declared?.isSome then
      perform (checkNested site oid (Text.capitalize oid))
      return { type := b.type
               container := some (← perform (declareContainer site oid id b.type.element)) }
    else return { type := b.type }
  else
    return { type := b.type
             container := (← perform (param (site.fqoid oid) b.template)).container }

abbrev Block := Slot → Watched (Entries ParamId)

def resolveChildren (block : Block) (fqoid : String) (id : ParamId) (slot : Slot) :
    Watched (List Param) := do
  let children ← block slot
  perform (updateParam fqoid id fun p => { p with children })
  perform (childrenOf fqoid id)

def declare (block : Block) (site : Site) (oid : String) (id : ParamId) (bare : Bool)
    (declared : TypeCode) :
    Watched Typing := do
  let fqoid := site.fqoid oid
  perform (checkNames site oid declared)
  let children ← resolveChildren block fqoid id (site.inner oid id (innerName oid declared))
  perform (checkAlternatives fqoid declared bare)
  let type ← perform (addType
    { name := elementName oid declared
      scope := site.scope
      owner := id
      shape := elementShape declared children })
  let element := elementType declared type
  if declared.isArray then
    let container ← perform (declareContainer site oid id element)
    return { type := .array element, declares := some type, container := some container }
  else return { type := element, declares := some type }

def undeclared (block : Block) (site : Site) (oid : String) (id : ParamId) (bare : Bool)
    (declared : TypeCode) :
    Watched Typing := do
  let fqoid := site.fqoid oid
  unless bare do
    unless site.isCommand do throw (.unexpectedParams fqoid declared)
    let _ ← resolveChildren block fqoid id (site.inner oid id (holderName oid))
  return { type := (ValueType.ofCode? declared).getD .empty }

def settleType (block : Block) (bare : Bool) (site : Site) (oid : String) (id : ParamId)
    (declared : TypeCode) :
    Option Binding → Watched Typing
  | some b => inherit site oid id bare b
  | none =>
    if declared.declaresType then declare block site oid id bare declared
    else undeclared block site oid id bare declared

/-- What is done while a parameter that is written out is under way. -/
def settle (block : Block) (bare : Bool) (site : Site) (oid : String) (declared : TypeCode)
    (d : Declaration) (id : ParamId) : Watched Unit := do
  let fqoid := site.fqoid oid
  let own ← perform (d.constraint.mapM (ownConstraint id))
  ask id d.template
  let binding ← perform (d.template.mapM (bindTemplate fqoid declared))
  let typing ← settleType block bare site oid id declared binding
  let constraint := own <|> binding.bind Binding.constraint
  perform (constraint.forM (checkConstraint fqoid typing.type))
  let value ← perform (settleValue fqoid typing.type (binding.bind Binding.value) d.value)
  perform (updateParam fqoid id fun p =>
    { p with
      type := typing.type
      declares := typing.declares
      container := typing.container
      template := binding.map Binding.template
      constraint
      value })

def resolveDeclared (block : Block) (bare : Bool) (site : Site) (oid : String) (d : Declaration) :
    Watched ParamId := do
  let declared ← perform (lift (declaredType site oid d))
  perform
    (note .debug "catena_core::param"
    ("resolving " ++ site.fqoid oid ++ " (" ++ declared.text ++ ")"))
  call (blank site oid declared d) (settle block bare site oid declared d)

abbrev Importer := Site → String → Import → Watched ParamId

mutual

def resolveParam (importer : Importer) (site : Site) (oid : String) :
    Description.Param → Watched ParamId
  | ⟨d, params⟩ =>
    match d.source with
    | some source => importer site oid source
    | none =>
      resolveDeclared (fun inner => do
          perform (checkDistinct (site.fqoid oid) params)
          resolveEach importer inner params)
        params.isEmpty site oid d

def resolveEach (importer : Importer) (slot : Slot) :
    List (String × Description.Param) → Watched (Entries ParamId)
  | [] => pure []
  | (oid, p) :: rest => do
    let id ← resolveParam importer (← perform slot.locate) oid p
    return (oid, id) :: (← resolveEach importer slot rest)

end

def importer (source : Source) : Nat → List Path → Importer
  | 0, _, site, oid, _ => throw (.importDepth (site.fqoid oid))
  | room + 1, opened, site, oid, i => do
    let (identity, p) ← perform (openImport source opened site oid i)
    resolveParam (importer source room (identity :: opened)) (← perform site.locate) oid p

def forest (source : Source) (importRoot : Path) (realm : Realm)
    (params : Entries Description.Param) :
    Watched (Entries ParamId) := do
  perform (checkDistinct realm.name params)
  resolveEach (importer source (source.identities.length + 1) []) (.root realm importRoot) params

def parts (source : Source) (importRoot : Path) (d : Description.Device) : Watched Unit := do
  perform (lift (checkScope d.settings))
  perform (languagePacks d.languagePacks)
  perform (sharedConstraints d.constraints)
  let params ← forest source importRoot .params d.params
  perform (updateDevice fun device => { device with params })
  let commands ← forest source importRoot .commands d.commands
  perform (updateDevice fun device => { device with commands })
  let menuGroups ← perform (menuGroups d.menuGroups)
  perform (updateDevice fun device => { device with menuGroups })
  perform (note .info "catena_core::device" (resolved (← perform device)))

/-- What comes of a run, without the moments. -/
def forget : EStateM.Result ResolveError Watch α → Result α
  | .ok a w => .ok a w.now.progress
  | .error e w => .error e w.now.progress

/-- Without the moments, the first is the second. -/
def Shows (x : Watched α) (y : Resolve α) : Prop :=
  ∀ w : Watch, forget (x.run w) = y.run w.now.progress

section Steps

theorem pure_shows (a : α) : Shows (pure a) (pure a) := fun _ => rfl

theorem throw_shows (e : ResolveError) : Shows (throw e : Watched α) (throw e) := fun _ => rfl

/-- What comes after a failure does not matter. -/
theorem throw_bind_shows (e : ResolveError) (f : α → Watched β) (g : α → Resolve β) :
    Shows (throw e >>= f) (throw e >>= g) := fun _ => rfl

theorem Shows.bind {x : Watched α} {y : Resolve α} {f : α → Watched β} {g : α → Resolve β}
    (h : Shows x y) (hf : ∀ a, Shows (f a) (g a)) : Shows (x >>= f) (y >>= g) := by
  intro w
  rw [run_bind, ← h w]
  change forget (EStateM.bind x f w) = follow (forget (x w)) g
  unfold EStateM.bind
  cases x w with
  | ok a t => exact hf a t
  | error e t => rfl

theorem marking_shows (mark : Moment → Moment) (hmark : ∀ m, (mark m).progress = m.progress)
    (x : Resolve α) :
    Shows (marking mark x) x := by
  intro w
  change forget (marking mark x w) = _
  unfold marking
  cases x.run w.now.progress with
  | ok a s => exact congrArg (EStateM.Result.ok a) (hmark _)
  | error e s => rfl

theorem perform_shows (x : Resolve α) : Shows (perform x) x := marking_shows id (fun _ => rfl) x

theorem enter_shows (id : ParamId) (x : Resolve α) : Shows (enter id x) x := by
  refine marking_shows _ ?_ x
  intro m
  rfl

theorem finish_shows (id : ParamId) (x : Resolve α) : Shows (finish id x) x := by
  refine marking_shows _ ?_ x
  intro m
  rfl

theorem ask_shows {id : ParamId} {template : Option String} {f : Unit → Watched α} {y : Resolve α}
    (h : Shows (f ()) y) : Shows (ask id template >>= f) y :=
  fun w => h (w.next { w.now with asked := template.map fun oid => (id, oid) })

theorem mapM_shows {f : α → Watched β} {g : α → Resolve β} (h : ∀ a, Shows (f a) (g a))
    (as : List α) :
    Shows (as.mapM f) (as.mapM g) := by
  induction as with
  | nil => exact pure_shows []
  | cons a rest ih =>
    rw [List.mapM_cons, List.mapM_cons]
    exact (h a).bind fun _ => ih.bind fun _ => pure_shows _

/-- A call shows the steps that it starts with, and then what its body, its end and the rest
show. -/
theorem call_shows {p : Param} {body : ParamId → Watched Unit} {f : ParamId → Watched α}
    {rest : ParamId → Resolve α}
    (h : ∀ id, Shows (body id >>= fun _ => finish id (register id) >>= fun _ => f id) (rest id)) :
    Shows (call p body >>= f) (enterParam p >>= rest) := by
  simp only [call, enterParam, bind_assoc, pure_bind]
  exact (perform_shows _).bind fun id => (enter_shows id _).bind fun _ => h id

end Steps

section Copies

theorem copyChild_shows {below : ParamId → ParamId → Watched Unit}
    {below' : ParamId → ParamId → Resolve Unit}
    (h : ∀ target template, Shows (below target template) (below' target template))
    (target child : ParamId) :
    Shows (copyChild below target child) (Resolve.copyChild below' target child) := by
  refine (perform_shows _).bind fun parent => (perform_shows _).bind fun source => ?_
  refine call_shows fun id => ?_
  refine (h id child).bind fun _ => (finish_shows id _).bind fun _ => ?_
  exact (perform_shows _).bind fun _ => pure_shows _

theorem copyChildren_shows (depth : Nat) (target template : ParamId) :
    Shows (copyChildren depth target template) (Resolve.copyChildren depth target template) := by
  induction depth generalizing target template with
  | zero => exact throw_shows _
  | succ depth ih =>
    refine (perform_shows _).bind fun source => ?_
    have heach : ∀ e : String × ParamId, Shows (copyChild (copyChildren depth) target e.2)
        (Resolve.copyChild (Resolve.copyChildren depth) target e.2) := fun e =>
          copyChild_shows ih target e.2
    exact (mapM_shows heach source.children).bind fun children => perform_shows _

theorem inherit_shows (site : Site) (oid : String) (id : ParamId) (bare : Bool) (b : Binding) :
    Shows (inherit site oid id bare b) (Resolve.inherit site oid id bare b) := by
  unfold inherit Resolve.inherit
  cases bare with
  | false => exact throw_bind_shows _ _ _
  | true =>
    simp only [if_true]
    refine Shows.bind ((perform_shows _).bind fun d => copyChildren_shows _ _ _) fun _ => ?_
    split
    · split
      · exact (perform_shows _).bind fun _ => (perform_shows _).bind fun _ => pure_shows _
      · exact pure_shows _
    · exact (perform_shows _).bind fun _ => pure_shows _

end Copies

section Params

variable {block : Block} {block' : Resolve.Block}
  (hblock : ∀ slot, Shows (block slot) (block' slot))

include hblock

theorem resolveChildren_shows (fqoid : String) (id : ParamId) (slot : Slot) :
    Shows (resolveChildren block fqoid id slot) (Resolve.resolveChildren block' fqoid id slot) :=
  (hblock slot).bind fun _ => (perform_shows _).bind fun _ => perform_shows _

theorem declare_shows (site : Site) (oid : String) (id : ParamId) (bare : Bool)
    (declared : TypeCode) :
    Shows (declare block site oid id bare declared)
      (Resolve.declare block' site oid id bare declared) := by
  refine (perform_shows _).bind fun _ =>
    (resolveChildren_shows hblock _ _ _).bind fun children => ?_
  refine (perform_shows _).bind fun _ => (perform_shows _).bind fun type => ?_
  dsimp only
  split
  · exact (perform_shows _).bind fun _ => pure_shows _
  · exact pure_shows _

theorem undeclared_shows (site : Site) (oid : String) (id : ParamId) (bare : Bool)
    (declared : TypeCode) :
    Shows (undeclared block site oid id bare declared)
      (Resolve.undeclared block' site oid id bare declared) := by
  unfold undeclared Resolve.undeclared
  cases bare with
  | true => exact pure_shows _
  | false =>
    simp only [Bool.false_eq_true, if_false]
    cases site.isCommand with
    | false => exact throw_bind_shows _ _ _
    | true => exact (resolveChildren_shows hblock _ _ _).bind fun _ => pure_shows _

theorem settleType_shows (bare : Bool) (site : Site) (oid : String) (id : ParamId)
    (declared : TypeCode) (binding : Option Binding) :
    Shows (settleType block bare site oid id declared binding)
      (Resolve.settleType block' bare site oid id declared binding) := by
  cases binding with
  | some b => exact inherit_shows site oid id bare b
  | none =>
    simp only [settleType, Resolve.settleType]
    split
    · exact declare_shows hblock site oid id bare declared
    · exact undeclared_shows hblock site oid id bare declared

theorem resolveDeclared_shows (bare : Bool) (site : Site) (oid : String) (d : Declaration) :
    Shows (resolveDeclared block bare site oid d)
      (Resolve.resolveDeclared block' bare site oid d) := by
  refine (perform_shows _).bind fun declared => (perform_shows _).bind fun _ => ?_
  rw [← bind_pure (call _ _)]
  refine call_shows fun id => ?_
  simp only [settle, bind_assoc]
  refine (perform_shows _).bind fun own => ask_shows ?_
  refine (perform_shows _).bind fun binding =>
    (settleType_shows hblock _ _ _ _ _ _).bind fun typing => ?_
  refine (perform_shows _).bind fun _ => (perform_shows _).bind fun value => ?_
  exact (perform_shows _).bind fun _ => (finish_shows id _).bind fun _ => pure_shows id

end Params

mutual

/-- Resolving a parameter that is watched shows resolving it. -/
theorem resolveParam_shows {importer : Importer} {importer' : Resolve.Importer}
    (h : ∀ site oid i, Shows (importer site oid i) (importer' site oid i)) (site : Site)
    (oid : String) :
    ∀ q : Description.Param,
      Shows (resolveParam importer site oid q) (Resolve.resolveParam importer' site oid q)
  | ⟨d, params⟩ => by
    cases hsource : d.source with
    | some i =>
      simp only [resolveParam, Resolve.resolveParam, hsource]
      exact h site oid i
    | none =>
      simp only [resolveParam, Resolve.resolveParam, hsource]
      refine resolveDeclared_shows (fun inner => ?_) _ _ _ _
      exact (perform_shows _).bind fun _ => resolveEach_shows h inner params

theorem resolveEach_shows {importer : Importer} {importer' : Resolve.Importer}
    (h : ∀ site oid i, Shows (importer site oid i) (importer' site oid i)) (slot : Slot) :
    ∀ params : List (String × Description.Param),
      Shows (resolveEach importer slot params) (Resolve.resolveEach importer' slot params)
  | [] => pure_shows []
  | (oid, q) :: rest =>
    (perform_shows _).bind fun site => (resolveParam_shows h site oid q).bind fun _ =>
      (resolveEach_shows h slot rest).bind fun _ => pure_shows _

end

theorem importer_shows (source : Source) (room : Nat) (opened : List Path) (site : Site)
    (oid : String) (i : Import) :
    Shows (importer source room opened site oid i)
      (Resolve.importer source room opened site oid i) := by
  induction room generalizing opened site oid i with
  | zero => exact throw_shows _
  | succ room ih =>
    refine (perform_shows _).bind fun opens => (perform_shows _).bind fun there => ?_
    exact resolveParam_shows (ih _) there oid opens.2

theorem forest_shows (source : Source) (importRoot : Path) (realm : Realm)
    (params : Entries Description.Param) :
    Shows (forest source importRoot realm params) (Resolve.forest source importRoot realm params) :=
  (perform_shows _).bind fun _ => resolveEach_shows (importer_shows source _ []) _ params

/-- A resolution that is watched is the resolution, but for the moments. -/
theorem parts_shows (source : Source) (importRoot : Path) (d : Description.Device) :
    Shows (parts source importRoot d) (Resolve.parts source importRoot d) := by
  refine (perform_shows _).bind fun _ => (perform_shows _).bind fun _ =>
    (perform_shows _).bind fun _ => ?_
  refine (forest_shows _ _ _ _).bind fun params => (perform_shows _).bind fun _ => ?_
  refine (forest_shows _ _ _ _).bind fun commands => (perform_shows _).bind fun _ => ?_
  refine (perform_shows _).bind fun groups => (perform_shows _).bind fun _ => ?_
  exact (perform_shows _).bind fun device => perform_shows _

end Watched

end DeviceModel.Resolve
