import DeviceModel.Proofs.Resolved
import DeviceModel.Proofs.Silence
import Mathlib.Data.List.Perm.Subperm

namespace DeviceModel.Resolve

open Description (Import)

/-- Finds what an import stands for, seen from a folder and below a path. -/
abbrev Expander := Path → String → String → Import → Except ResolveError Description.Param

mutual

/-- A description in which everything is written out. -/
def expandParam (finder : Expander) (folder : Path) (path oid : String) :
    Description.Param → Except ResolveError Description.Param
  | ⟨d, params⟩ =>
    match d.source with
    | some i => finder folder path oid i
    | none => do return ⟨d, ← expandEach finder (folder.join oid) (path ++ "/" ++ oid) params⟩

def expandEach (finder : Expander) (folder : Path) (path : String) :
    List (String × Description.Param) → Except ResolveError (List (String × Description.Param))
  | [] => pure []
  | (oid, q) :: rest => do
    let q ← expandParam finder folder path oid q
    return (oid, q) :: (← expandEach finder folder path rest)

end

/-- What an import stands for while `opened` are open; there is room for so many more. -/
def expander (source : Source) : Nat → List Path → Expander
  | 0, _, _, path, oid, _ => throw (.importDepth (path ++ "/" ++ oid))
  | room + 1, opened, folder, path, oid, i => do
    let fqoid := path ++ "/" ++ oid
    let document ← importPath source folder fqoid oid i
    let identity ← importIdentity source opened fqoid document
    let q ← importedParam source fqoid document
    expandParam (expander source room (identity :: opened)) folder path oid q

/-- A device with all its parameters and commands written out. -/
def expand (source : Source) (importRoot : Path) (d : Description.Device) :
    Except ResolveError Description.Device := do
  let room := source.identities.length + 1
  let params ← expandEach (expander source room []) importRoot "" d.params
  let commands ← expandEach (expander source room []) importRoot "" d.commands
  return { d with params, commands }

mutual

/-- Nothing is imported. -/
def writtenOut : Description.Param → Bool
  | ⟨d, params⟩ => d.source.isNone && allWrittenOut params

def allWrittenOut : List (String × Description.Param) → Bool
  | [] => true
  | (_, q) :: rest => writtenOut q && allWrittenOut rest

end

section Results

variable {source : Source} {finder : Expander} {folder : Path} {path : String}

theorem expandEach_keys {params params' : List (String × Description.Param)}
    (h : expandEach finder folder path params = .ok params') :
    params'.map Prod.fst = params.map Prod.fst := by
  induction params generalizing params' with
  | nil =>
    rw [← except_pure_ok.mp h]
  | cons e rest ih =>
    simp only [expandEach, except_bind_ok, except_pure_ok] at h
    obtain ⟨q, _, rest', hrest, rfl⟩ := h
    rw [List.map_cons, List.map_cons, ih hrest]

mutual

/-- Where imports are written out, so is everything. -/
theorem expandParam_writtenOut
    (he : ∀ folder path oid i q, finder folder path oid i = .ok q → writtenOut q = true) :
    ∀ (q q' : Description.Param) {folder : Path} {path oid : String},
      expandParam finder folder path oid q = .ok q' → writtenOut q' = true
  | ⟨d, params⟩, q', folder, path, oid, h => by
    cases hsource : d.source with
    | some i =>
      simp only [expandParam, hsource] at h
      exact he _ _ _ _ _ h
    | none =>
      simp only [expandParam, hsource, except_bind_ok, except_pure_ok] at h
      obtain ⟨params', hparams, rfl⟩ := h
      simp only [writtenOut, hsource, Option.isNone_none, Bool.true_and]
      exact expandEach_writtenOut he params params' hparams

theorem expandEach_writtenOut
    (he : ∀ folder path oid i q, finder folder path oid i = .ok q → writtenOut q = true) :
    ∀ (params params' : List (String × Description.Param)) {folder : Path} {path : String},
      expandEach finder folder path params = .ok params' → allWrittenOut params' = true
  | [], params', folder, path, h => by
    rw [← except_pure_ok.mp h]
    rfl
  | (oid, q) :: rest, params', folder, path, h => by
    simp only [expandEach, except_bind_ok, except_pure_ok] at h
    obtain ⟨q', hq, rest', hrest, rfl⟩ := h
    simp only [allWrittenOut, Bool.and_eq_true]
    exact ⟨expandParam_writtenOut he q q' hq, expandEach_writtenOut he rest rest' hrest⟩

end

theorem expander_ok {room : Nat} {opened : List Path} {oid : String} {i : Import}
    {q : Description.Param} (h : expander source (room + 1) opened folder path oid i = .ok q) :
    ∃ document identity q', importPath source folder (path ++ "/" ++ oid) oid i = .ok document ∧
      importIdentity source opened (path ++ "/" ++ oid) document = .ok identity ∧
      importedParam source (path ++ "/" ++ oid) document = .ok q' ∧
      expandParam (expander source room (identity :: opened)) folder path oid q' = .ok q := by
  simp only [expander, except_bind_ok] at h
  obtain ⟨document, hdocument, identity, hidentity, q', hq', h⟩ := h
  exact ⟨document, identity, q', hdocument, hidentity, hq', h⟩

/-- What an import names does not depend on the oid that an error would give. -/
theorem importPath_anywhere {fqoid fqoid' oid : String} {i : Import} {document : Path}
    (h : importPath source folder fqoid oid i = .ok document) :
    importPath source folder fqoid' oid i = .ok document := by
  unfold importPath at *
  split at h
  · exact h
  · exact h
  · cases h
  · cases h

theorem importIdentity_anywhere {opened : List Path} {fqoid fqoid' : String}
    {document identity : Path} (h : importIdentity source opened fqoid document = .ok identity) :
    importIdentity source opened fqoid' document = .ok identity := by
  unfold importIdentity at *
  split at h
  · cases h
  · split at h
    · cases h
    · next hopened =>
      rw [if_neg hopened]
      exact h

theorem importedParam_anywhere {fqoid fqoid' : String} {document : Path} {q : Description.Param}
    (h : importedParam source fqoid document = .ok q) :
    importedParam source fqoid' document = .ok q := by
  unfold importedParam at *
  split at h
  · cases h
  · split at h
    · exact h
    · cases h

theorem expander_writtenOut (room : Nat) (opened : List Path) :
    ∀ folder path oid i q, expander source room opened folder path oid i = .ok q →
      writtenOut q = true := by
  induction room generalizing opened with
  | zero =>
    intro folder path oid i q h
    cases h
  | succ room ih =>
    intro folder path oid i q h
    obtain ⟨document, identity, q', _, _, _, h⟩ := expander_ok h
    exact expandParam_writtenOut (ih (identity :: opened)) q' q h

end Results

/-- Two runs that differ only in what they note, from where a site is what it says. -/
def AlikeAt {α : Type} (site : Site) (x y : Resolve α) : Prop :=
  ∀ s t : Progress, SameButNotes s t → Located s site → SameResult (x.run s) (y.run t)

/-- Resolving an import is like resolving what it stands for, in whatever folder. The path is only
named in errors, so what is found does not depend on it. -/
def Replaces (importer : Importer) (finder : Expander) : Prop :=
  ∀ {site : Site} {path oid : String} {i : Import} {q : Description.Param} (folder : Path)
    (importer' : Importer), finder site.folder path oid i = .ok q →
    AlikeAt site (importer site oid i) (resolveParam importer' (site.moved folder) oid q)

section Runs

variable {importer : Importer} {finder : Expander}

theorem checkDistinct_keys {scope : String} {params params' : Entries Description.Param}
    (h : params'.map Prod.fst = params.map Prod.fst) :
    checkDistinct scope params' = checkDistinct scope params := by
  simp only [checkDistinct, Entries.duplicate?, Entries.keys, h]

/-- A place is found alike wherever its imports are. -/
theorem locate_alike {α : Type} {slot : Slot} {folder : Path} {f g : Site → Resolve α}
    (h : ∀ site : Site, site.toSlot = slot → AlikeAt site (f site) (g (site.moved folder))) :
    Alike (slot.locate >>= f) (Slot.locate { slot with folder } >>= g) := by
  intro s t hst
  obtain ⟨parent, realm, scope, old, outermost⟩ := slot
  cases parent with
  | none => exact h ⟨_, ""⟩ rfl s t hst rfl
  | some id =>
    simp only [Slot.locate, bind_assoc, pure_bind]
    apply (param_oblivious _ _ s t hst).bind
    intro p s' t' hrun same
    obtain ⟨hp, rfl⟩ := param_ok.mp hrun
    exact h ⟨_, p.fqoid⟩ rfl s t' same ⟨p, hp, rfl⟩

mutual

/-- A description and what it expands to are resolved alike. -/
theorem resolveParam_alike (hi : Replaces importer finder) (importer' : Importer) (site : Site)
    (folder : Path) (path oid : String) :
    ∀ (q q' : Description.Param), expandParam finder site.folder path oid q = .ok q' →
      AlikeAt site (resolveParam importer site oid q)
        (resolveParam importer' (site.moved folder) oid q')
  | ⟨d, params⟩, q', h => by
    cases hsource : d.source with
    | some i =>
      simp only [expandParam, hsource] at h
      simp only [resolveParam, hsource]
      exact hi folder importer' h
    | none =>
      simp only [expandParam, hsource, except_bind_ok, except_pure_ok] at h
      obtain ⟨params', hparams, rfl⟩ := h
      have hkeys := expandEach_keys hparams
      have hbare : params'.isEmpty = params.isEmpty := by
        have hlength := congrArg List.length hkeys
        rw [List.length_map, List.length_map] at hlength
        rw [Bool.eq_iff_iff, List.isEmpty_iff_length_eq_zero, List.isEmpty_iff_length_eq_zero,
          hlength]
      simp only [resolveParam, hsource, hbare]
      intro s t hst _
      refine resolveDeclared_alike ?_ _ _ s t hst
      intro id scope
      dsimp only
      rw [checkDistinct_keys hkeys]
      apply (checkDistinct_oblivious _ _).bind
      intro _
      exact resolveEach_alike hi importer' (site.inner oid id scope) (folder.join oid) _ params
        params' hparams

theorem resolveEach_alike (hi : Replaces importer finder) (importer' : Importer) (slot : Slot)
    (folder : Path) (path : String) :
    ∀ (params params' : List (String × Description.Param)),
      expandEach finder slot.folder path params = .ok params' →
      Alike (resolveEach importer slot params) (resolveEach importer' { slot with folder } params')
  | [], params', h => by
    rw [← except_pure_ok.mp h]
    exact pure_oblivious _
  | (oid, q) :: rest, params', h => by
    simp only [expandEach, except_bind_ok, except_pure_ok] at h
    obtain ⟨q', hq, rest', hrest, rfl⟩ := h
    apply locate_alike
    rintro site rfl s t hst hsite
    apply (resolveParam_alike hi importer' site folder path oid q q' hq s t hst hsite).bind
    intro id s' t' _ same
    have hrest := resolveEach_alike hi importer' site.toSlot folder path rest rest' hrest
    exact (hrest.bind fun _ => pure_oblivious _) s' t' same

end

/-- Opening a document only leaves a note. -/
theorem openImport_alike {α : Type} {source : Source} {opened : List Path} {site : Site}
    {fqoid oid : String} {i : Import} {document identity : Path} {q : Description.Param}
    {f : Path × Description.Param → Resolve α} {y : Resolve α}
    (hdocument : importPath source site.folder fqoid oid i = .ok document)
    (hidentity : importIdentity source opened fqoid document = .ok identity)
    (hparam : importedParam source fqoid document = .ok q) (h : AlikeAt site (f (identity, q)) y) :
    AlikeAt site (openImport source opened site oid i >>= f) y := by
  have hopen : openImport source opened site oid i =
      note .debug "catena_core::param" (site.fqoid oid ++ " imported from " ++ document.text) >>=
        fun _ => pure (identity, q) := by
    simp only [openImport, importPath_anywhere hdocument, lift, pure_bind,
      importIdentity_anywhere hidentity, importedParam_anywhere hparam]
  intro s t hst hsite
  rw [hopen]
  exact h _ _ { hst with } hsite

theorem importer_replaces (source : Source) (room : Nat) (opened : List Path) :
    Replaces (Resolve.importer source room opened) (expander source room opened) := by
  induction room generalizing opened with
  | zero =>
    intro site path oid i q folder importer' h
    cases h
  | succ room ih =>
    intro site path oid i q folder importer' h
    obtain ⟨document, identity, q', hdocument, hidentity, hparam, h⟩ := expander_ok h
    apply openImport_alike hdocument hidentity hparam
    intro s t hst hsite
    dsimp only
    rw [EStateM.run_bind, hsite.locate]
    exact resolveParam_alike (ih (identity :: opened)) importer' site folder path oid q' q h s t hst
      hsite

theorem forest_alike {source source' : Source} {importRoot importRoot' : Path} {realm : Realm}
    {params params' : Entries Description.Param}
    (h : expandEach (expander source (source.identities.length + 1) []) importRoot "" params =
      .ok params') :
    Alike (forest source importRoot realm params) (forest source' importRoot' realm params') := by
  unfold forest
  rw [checkDistinct_keys (expandEach_keys h)]
  apply (checkDistinct_oblivious _ _).bind
  intro _
  exact resolveEach_alike (importer_replaces source _ []) _ (.root realm importRoot) importRoot' ""
    params params' h

theorem expand_ok {source : Source} {importRoot : Path} {d expanded : Description.Device}
    (h : expand source importRoot d = .ok expanded) :
    ∃ params commands,
      expandEach (expander source (source.identities.length + 1) []) importRoot "" d.params =
        .ok params ∧
      expandEach (expander source (source.identities.length + 1) []) importRoot "" d.commands =
        .ok commands ∧
      expanded = { d with params, commands } := by
  simp only [expand, except_bind_ok, except_pure_ok] at h
  obtain ⟨params, hparams, commands, hcommands, rfl⟩ := h
  exact ⟨params, commands, hparams, hcommands, rfl⟩

theorem parts_alike {source source' : Source} {importRoot importRoot' : Path}
    {d expanded : Description.Device} (h : expand source importRoot d = .ok expanded) :
    Alike (parts source importRoot d) (parts source' importRoot' expanded) := by
  obtain ⟨params, commands, hparams, hcommands, rfl⟩ := expand_ok h
  apply (lift_oblivious _).bind
  intro _
  apply (languagePacks_oblivious _).bind
  intro _
  apply (sharedConstraints_oblivious _).bind
  intro _
  apply (forest_alike hparams).bind
  intro paramIds
  apply (updateDevice_oblivious _).bind
  intro _
  apply (forest_alike hcommands).bind
  intro commandIds
  apply (updateDevice_oblivious _).bind
  intro _
  apply (menuGroups_oblivious _).bind
  intro groups
  apply (updateDevice_oblivious _).bind
  intro _
  apply device_oblivious.bind
  intro device
  exact note_oblivious _ _ _

/-- A description and its expansion come to the same result. -/
theorem result_expand {source source' : Source} {importRoot importRoot' : Path}
    {d expanded : Description.Device} (ns : String)
    (h : expand source importRoot d = .ok expanded) :
    (resolveDevice ns d importRoot source).result =
      (resolveDevice ns expanded importRoot' source').result := by
  have hsettings : expanded.settings = d.settings := by
    obtain ⟨_, _, _, _, rfl⟩ := expand_ok h
    rfl
  have hparts : SameResult
      ((parts source importRoot d).run { device := { ns, settings := d.settings } })
      ((parts source' importRoot' expanded).run
          { device := { ns, settings := expanded.settings } }) := by
    rw [hsettings]
    exact parts_alike h _ _ ⟨rfl, rfl, rfl, rfl⟩
  unfold resolveDevice
  generalize (parts source importRoot d).run _ = r, (parts source' importRoot' expanded).run _ =
    r' at hparts ⊢
  cases hparts with
  | ok same => exact congrArg Except.ok same.device
  | error => rfl

end Runs

/-- The open documents are different ones of the source, and there is room for all others and one
more. -/
structure Roomy (source : Source) (room : Nat) (opened : List Path) : Prop where
  distinct : opened.Nodup
  among : opened ⊆ source.identities
  room : source.identities.length < room + opened.length

section Room

variable {source : Source} {room : Nat} {opened : List Path} {fqoid : String}
  {document identity : Path} {q : Description.Param}

theorem Roomy.start (source : Source) : Roomy source (source.identities.length + 1) [] where
  distinct := .nil
  among := by simp
  room := by simp

/-- There is room for an import. -/
theorem Roomy.pos (h : Roomy source room opened) : 0 < room := by
  have hlength := h.distinct.length_le_of_subset h.among
  have hroom := h.room
  omega

theorem importIdentity_ok (h : importIdentity source opened fqoid document = .ok identity) :
    source.identify document = .ok identity ∧ identity ∉ opened := by
  unfold importIdentity at h
  split at h
  · cases h
  · next identity' hidentity =>
    split at h
    · cases h
    · next hopened =>
      cases h
      exact ⟨hidentity, fun hm => hopened (List.contains_iff_mem.mpr hm)⟩

theorem importedParam_ok (h : importedParam source fqoid document = .ok q) :
    ∃ text, source.read document = .ok text := by
  unfold importedParam at h
  split at h
  · cases h
  · next text htext => exact ⟨text, htext⟩

/-- After an import is opened there is room for one less. -/
theorem Roomy.cons (h : Roomy source (room + 1) opened)
    (hidentity : importIdentity source opened fqoid document = .ok identity)
    (hparam : importedParam source fqoid document = .ok q) :
    Roomy source room (identity :: opened) := by
  obtain ⟨hidentify, hnew⟩ := importIdentity_ok hidentity
  obtain ⟨text, hread⟩ := importedParam_ok hparam
  refine ⟨List.nodup_cons.mpr ⟨hnew, h.distinct⟩, ?_, ?_⟩
  · intro other hm
    rcases List.mem_cons.mp hm with rfl | hm
    · exact source.identify_mem document other text hidentify hread
    · exact h.among hm
  · have hroom := h.room
    simp only [List.length_cons]
    omega

/-- Whatever grows can be expanded: every import in it has been opened. -/
theorem Grown.expands {g : Ground} {site : Site} {entries : List (String × Description.Param)}
    {f : Forest} (h : Grown source opened g site entries f) (hroom : Roomy source room opened) :
    ∃ entries', expandEach (expander source room opened) site.folder site.path entries =
      .ok entries' := by
  induction h generalizing room with
  | nil => exact ⟨[], rfl⟩
  | cons _ _ first next =>
    obtain ⟨first', hfirst⟩ := first hroom
    obtain ⟨rest', hrest⟩ := next hroom
    simp only [expandEach, except_bind_ok, except_pure_ok] at hfirst
    obtain ⟨q', hq, _⟩ := hfirst
    exact ⟨_, except_bind_ok.mpr ⟨q', hq, except_bind_ok.mpr ⟨rest', hrest, rfl⟩⟩⟩
  | @imported opened g site oid d params i identity q f elsewhere opens grown ih =>
    obtain ⟨document, hdocument, hidentity, hparam⟩ := opens
    obtain ⟨room, rfl⟩ := Nat.exists_eq_succ_of_ne_zero (Nat.ne_of_gt hroom.pos)
    obtain ⟨_, hexpanded⟩ := ih (hroom.cons hidentity hparam)
    simp only [expandEach, except_bind_ok, except_pure_ok] at hexpanded
    obtain ⟨q', hq, _⟩ := hexpanded
    have hfound : expander source (room + 1) opened site.folder site.path oid i = .ok q' :=
      except_bind_ok.mpr ⟨document, hdocument, except_bind_ok.mpr ⟨identity, hidentity,
        except_bind_ok.mpr ⟨q, hparam, hq⟩⟩⟩
    refine ⟨[(oid, q')], ?_⟩
    simp only [expandEach, expandParam, elsewhere, except_bind_ok, except_pure_ok]
    exact ⟨q', hfound, [], rfl, rfl⟩
  | @templated opened g site oid d templateOid template p type overElements below rule written =>
    refine ⟨[(oid, ⟨d, []⟩)], ?_⟩
    simp only [expandEach, expandParam, written, except_bind_ok, except_pure_ok]
    exact ⟨_, ⟨[], rfl, rfl⟩, [], rfl, rfl⟩
  | @composite opened g site oid d params p below rule written _ _ _ _ _ _ _ _ ih
  | @plain opened g site oid d params p below rule written _ _ _ _ _ _ ih =>
    obtain ⟨params', hparams⟩ := ih hroom
    refine ⟨[(oid, ⟨d, params'⟩)], ?_⟩
    simp only [expandEach, expandParam, written, except_bind_ok, except_pure_ok]
    exact ⟨_, ⟨params', hparams, rfl⟩, [], rfl, rfl⟩

end Room

/-- Nothing fails for lack of room. -/
def Unhindered (finder : Expander) : Prop :=
  ∀ folder path oid i fqoid, finder folder path oid i ≠ .error (.importDepth fqoid)

section Depth

theorem except_bind_error {ε α β : Type} {x : Except ε α} {f : α → Except ε β} {e : ε} :
    (x >>= f) = .error e ↔ x = .error e ∨ ∃ a, x = .ok a ∧ f a = .error e := by
  cases x <;> simp [bind, Except.bind]

variable {source : Source} {finder : Expander}

mutual

theorem expandParam_unhindered (hf : Unhindered finder) (fqoid : String) :
    ∀ (q : Description.Param) (folder : Path) (path oid : String),
      expandParam finder folder path oid q ≠ .error (.importDepth fqoid)
  | ⟨d, params⟩, folder, path, oid => by
    intro h
    cases hsource : d.source with
    | some i =>
      simp only [expandParam, hsource] at h
      exact hf _ _ _ _ _ h
    | none =>
      simp only [expandParam, hsource, except_bind_error] at h
      rcases h with h | ⟨_, _, h⟩
      · exact expandEach_unhindered hf fqoid params _ _ h
      · cases h

theorem expandEach_unhindered (hf : Unhindered finder) (fqoid : String) :
    ∀ (params : List (String × Description.Param)) (folder : Path) (path : String),
      expandEach finder folder path params ≠ .error (.importDepth fqoid)
  | [], folder, path => by
    intro h
    cases h
  | (oid, q) :: rest, folder, path => by
    intro h
    simp only [expandEach, except_bind_error] at h
    rcases h with h | ⟨_, _, h | ⟨_, _, h⟩⟩
    · exact expandParam_unhindered hf fqoid q _ _ _ h
    · exact expandEach_unhindered hf fqoid rest _ _ h
    · cases h

end

theorem importPath_error {folder : Path} {fqoid fqoid' oid : String} {i : Import} :
    importPath source folder fqoid oid i ≠ .error (.importDepth fqoid') := by
  unfold importPath
  intro h
  dsimp only at h
  split at h <;> cases h

theorem importIdentity_error {opened : List Path} {fqoid fqoid' : String} {document : Path} :
    importIdentity source opened fqoid document ≠ .error (.importDepth fqoid') := by
  unfold importIdentity
  intro h
  split at h
  · cases h
  · split at h <;> cases h

theorem importedParam_error {fqoid fqoid' : String} {document : Path} :
    importedParam source fqoid document ≠ .error (.importDepth fqoid') := by
  unfold importedParam
  intro h
  split at h
  · cases h
  · split at h <;> cases h

/-- The documents run out before the room does. -/
theorem expander_unhindered {room : Nat} {opened : List Path} (hroom : Roomy source room opened) :
    Unhindered (expander source room opened) := by
  induction room generalizing opened with
  | zero => exact absurd hroom.pos (Nat.lt_irrefl 0)
  | succ room ih =>
    intro folder path oid i fqoid h
    simp only [expander, except_bind_error] at h
    rcases h with h | ⟨document, _, h | ⟨identity, hidentity, h | ⟨q, hparam, h⟩⟩⟩
    · exact importPath_error h
    · exact importIdentity_error h
    · exact importedParam_error h
    · exact expandParam_unhindered (ih (hroom.cons hidentity hparam)) fqoid q _ _ _ h

theorem expand_unhindered (source : Source) (importRoot : Path) (d : Description.Device)
    (fqoid : String) :
    expand source importRoot d ≠ .error (.importDepth fqoid) := by
  intro h
  have hfinder := expander_unhindered (Roomy.start source)
  simp only [expand, except_bind_error] at h
  rcases h with h | ⟨_, _, h | ⟨_, _, h⟩⟩
  · exact expandEach_unhindered hfinder fqoid _ _ _ h
  · exact expandEach_unhindered hfinder fqoid _ _ _ h
  · cases h

end Depth

theorem imports_transparent (ns : String) (description : Description.Device) (importRoot : Path)
    (source : Source) :
    (∀ expanded, expand source importRoot description = .ok expanded →
      allWrittenOut expanded.params = true ∧ allWrittenOut expanded.commands = true ∧
        ∀ (importRoot' : Path) (source' : Source),
          (resolveDevice ns description importRoot source).result =
          (resolveDevice ns expanded importRoot' source').result) ∧
    (∀ d, (resolveDevice ns description importRoot source).result = .ok d →
      ∃ expanded, expand source importRoot description = .ok expanded) ∧
    ∀ fqoid, expand source importRoot description ≠ .error (.importDepth fqoid) := by
  refine ⟨?_, ?_, expand_unhindered source importRoot description⟩
  · intro expanded h
    obtain ⟨params, commands, hparams, hcommands, rfl⟩ := expand_ok h
    refine ⟨?_, ?_, fun importRoot' source' => result_expand ns h⟩
    · exact expandEach_writtenOut (expander_writtenOut _ []) _ _ hparams
    · exact expandEach_writtenOut (expander_writtenOut _ []) _ _ hcommands
  · intro d h
    obtain ⟨shared, params, commands, hr⟩ := resolveDevice_resolved h
    obtain ⟨params', hparams⟩ := hr.params_grown.expands (Roomy.start source)
    obtain ⟨commands', hcommands⟩ := hr.commands_grown.expands (Roomy.start source)
    exact ⟨_, except_bind_ok.mpr ⟨params', hparams, except_bind_ok.mpr ⟨commands', hcommands, rfl⟩⟩⟩

/-- A parameter that is described elsewhere. -/
def importedPair : Description.Device :=
  .small
    [("pair",
      ⟨{ Description.Declaration.ofType "STRING" with source := some ⟨none, some "pair.json"⟩ },
        []⟩)]
    []

/-- The struct is in one document; its field is in another, a folder below, which only leads to a
third. -/
def pairDocuments : Source :=
  (Documents.ofList
    [("params/pair.json",
        "\x7b\"type\": \"STRUCT\", \"params\": " ++
          "\x7b\"left\": \x7b\"import\": \x7b\"url\": \"include\"\x7d\x7d\x7d\x7d"),
      ("params/pair/param.left.json", "\x7b\"import\": \x7b\"file\": \"number.json\"\x7d\x7d"),
      ("params/pair/number.json", "\x7b\"type\": \"INT32\"\x7d")]).source

theorem importedPair_transparent :
    ∃ d expanded, (resolveDevice "m" importedPair ⟨"params"⟩ pairDocuments).result = .ok d ∧
      d.nodes.toList.map (fun p => (p.fqoid, p.type)) =
        [("/pair", .struct ⟨0⟩), ("/pair/left", .int32)] ∧
      expand pairDocuments ⟨"params"⟩ importedPair = .ok expanded ∧
        allWrittenOut expanded.params = true ∧
      (resolveDevice "m" expanded ⟨"elsewhere"⟩ (Documents.source {})).result = .ok d := by
  have hok : ((resolveDevice "m" importedPair ⟨"params"⟩ pairDocuments).result.toOption.map
      fun d => d.nodes.toList.map fun p => (p.fqoid, p.type)) = some
        [("/pair", .struct ⟨0⟩), ("/pair/left", .int32)] := by decide +kernel
  obtain ⟨d, hd, hnodes⟩ := ok_of_toOption hok
  obtain ⟨halike, hexpands, _⟩ := imports_transparent "m" importedPair ⟨"params"⟩ pairDocuments
  obtain ⟨expanded, hexpanded⟩ := hexpands d hd
  obtain ⟨hwritten, _, hresult⟩ := halike expanded hexpanded
  exact ⟨d, expanded, hd, hnodes, hexpanded, hwritten, (hresult _ _).symm.trans hd⟩

end DeviceModel.Resolve
