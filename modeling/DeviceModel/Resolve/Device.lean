import DeviceModel.Resolve.Import
import DeviceModel.Resolve.Load

namespace DeviceModel.Resolve

/-- A default scope must be one of the access scopes, if there are any. -/
def checkScope (s : Settings) : Except ResolveError Unit :=
  match s.defaultScope with
  | some scope =>
    if !s.accessScopes.isEmpty && !s.accessScopes.contains scope then
      .error (.defaultScope scope s.accessScopes)
    else .ok ()
  | none => .ok ()

def languagePacks (packs : List LanguagePack) : Resolve Unit := do
  checkDistinct "language_packs" (packs.map fun p => (p.id, p))
  updateDevice fun d => { d with languagePacks := packs }

def sharedConstraint (oid : String) (c : Description.Constraint) : Resolve Unit := do
  if c.reference.isSome then throw (.invalidConstraint oid (c.type.getD "") .sharedReference)
  let rule ← lift (Rule.classify oid c)
  note .debug "catena_core::constraint" ("shared constraint '" ++ oid ++ "' (" ++ rule.code ++ ")")
  let id ← addConstraint { oid, ident := "_" ++ Text.flatten oid, owner := none, rule }
  updateDevice fun d => { d with sharedConstraints := d.sharedConstraints ++ [(oid, id)] }

def sharedConstraints (constraints : Entries Description.Constraint) : Resolve Unit := do
  checkDistinct "constraints" constraints
  constraints.forM fun (oid, c) => sharedConstraint oid c

/-- The outermost parameters or commands. -/
def forest (source : Source) (importRoot : Path) (realm : Realm)
    (params : Entries Description.Param) : Resolve (Entries ParamId) := do
  checkDistinct realm.name params
  resolveEach (importer source (source.identities.length + 1) []) (.root realm importRoot) params

/-- Full oids of menu entries; each must be that of something in the device. -/
def menuTargets (d : Device) (menu : String) (realm : Realm) (oids : List String) :
    Except ResolveError (List String) :=
  oids.mapM fun oid =>
    let oid := completeOid oid
    match d.locate? realm oid with
    | some (some _) => .ok oid
    | some none => .error (.missingMenuTarget menu realm oid)
    | none => .error (.dangling menu)

def menu (d : Device) (group : String) (m : Menu) : Except ResolveError Menu := do
  let label := group ++ "/" ++ m.oid
  let params ← menuTargets d label .params m.params
  let commands ← menuTargets d label .commands m.commands
  return { m with params, commands }

def menuGroup (g : MenuGroup) : Resolve MenuGroup := do
  checkDistinct ("menu group '" ++ g.oid ++ "'") (g.menus.map fun m => (m.oid, m))
  let menus ← lift (g.menus.mapM (menu (← device) g.oid))
  return { g with menus }

def menuGroups (groups : List MenuGroup) : Resolve (List MenuGroup) := do
  checkDistinct "menu_groups" (groups.map fun g => (g.oid, g))
  groups.mapM menuGroup

def resolved (d : Device) : String :=
  "resolved device '" ++ d.ns ++ "': " ++ toString d.params.length ++ " params, "
    ++ toString d.commands.length ++ " commands, " ++ toString d.types.size ++ " types, "
    ++ toString d.constraints.size ++ " constraints"

/-- All parts of a device, in order. The menus come last and point only at what is there. -/
def parts (source : Source) (importRoot : Path) (d : Description.Device) : Resolve Unit := do
  lift (checkScope d.settings)
  languagePacks d.languagePacks
  sharedConstraints d.constraints
  let params ← forest source importRoot .params d.params
  updateDevice fun device => { device with params }
  let commands ← forest source importRoot .commands d.commands
  updateDevice fun device => { device with commands }
  let menuGroups ← menuGroups d.menuGroups
  updateDevice fun device => { device with menuGroups }
  note .info "catena_core::device" (resolved (← device))

/-- What came of a resolution, and what happened on the way. -/
structure Outcome where
  result : Except ResolveError Device
  log : List Log.Record
  deriving Repr

/-- Resolves a description. Imports of outermost parameters are read from `importRoot`. -/
def resolveDevice (ns : String) (d : Description.Device) (importRoot : Path) (source : Source) :
    Outcome :=
  match (parts source importRoot d).run { device := { ns, settings := d.settings } } with
  | .ok _ s => ⟨.ok s.device, s.log.toList⟩
  | .error e s => ⟨.error e, s.log.toList⟩

def resolveDocument (doc : DeviceDocument) (source : Source) : Outcome :=
  let outcome := resolveDevice doc.ns doc.description doc.importRoot source
  { outcome with log := doc.loaded :: outcome.log }

/-- Reads and resolves the device at a path. -/
def resolveFile (p : Path) (source : Source) : Outcome :=
  match DeviceDocument.load source p with
  | .ok doc => resolveDocument doc source
  | .error e => ⟨.error e, []⟩

end DeviceModel.Resolve
