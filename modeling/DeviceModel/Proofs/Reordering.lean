import Mathlib.Data.List.Perm.Subperm
import DeviceModel.Proofs.NoDanglingIndex
import DeviceModel.Proofs.Likeness
import DeviceModel.Proofs.Variables

namespace DeviceModel

open Cpp (Twin)

/-- The parameter has a twin in the other device. -/
def Counterpart (d d' : Device) (p : Param) : Prop :=
  ∃ p', d'.param? p'.id = some p' ∧ Twin d d' p p'

namespace Resolve

section Growth

variable {source : Source} {site : Site} {d d' : Device}

/-- What grows from a list grows from the first descriptions and then from the others. -/
theorem Grown.split {opened : List Path} {g : Ground} (entries : List (String × Description.Param))
    {others : List (String × Description.Param)} {f : Forest}
    (h : Grown source opened g site (entries ++ others) f) :
    ∃ first rest, Grown source opened g site entries first ∧
      Grown source opened (g.after first) site others rest ∧ f = first.append rest := by
  induction entries generalizing g f with
  | nil => exact ⟨.nil, f, .nil, by rwa [Ground.after_nil], rfl⟩
  | cons e entries ih =>
    obtain ⟨tree, more, first, next, rfl⟩ := Grown.uncons h
    obtain ⟨f₁, f₂, hentries, hothers, rfl⟩ := ih next
    exact ⟨tree.append f₁, f₂, .cons first hentries, by rwa [Ground.after_append],
      (Forest.append_assoc ..).symm⟩

/-- The description grows somewhere in the device, on a ground with the given shared constraints. -/
def GrowsIn (source : Source) (site : Site) (d : Device) (shared : Entries ConstraintId)
    (e : String × Description.Param) : Prop :=
  ∃ g f, Grown source [] g site [e] f ∧ Holds d g f ∧ Sound g ∧
    (∀ p ∈ g.known, d.param? p.id = some p) ∧ g.shared = shared

theorem Grown.growsIn {g : Ground} {entries : List (String × Description.Param)} {f : Forest}
    (h : Grown source [] g site entries f) (hd : Holds d g f) (sound : Sound g)
    (found : ∀ p ∈ g.known, d.param? p.id = some p) :
    ∀ e ∈ entries, GrowsIn source site d g.shared e := by
  intro e he
  obtain ⟨before, after, rfl⟩ := List.append_of_mem he
  obtain ⟨f₁, rest, hbefore, hrest, rfl⟩ := h.split before
  obtain ⟨f₂, _, hself, _, rfl⟩ := hrest.uncons
  exact ⟨g.after f₁, f₂, hself, hd.right.left, hbefore.sound sound, hd.left.known_after found, rfl⟩

/-- Grounds are abreast where all that is finished on the first has a counterpart. -/
theorem Abreast.of_counterparts {g g' : Ground} (unique : d'.Unambiguous) (sound : Sound g)
    (sound' : Sound g') (found : ∀ p ∈ g.known, d.param? p.id = some p)
    (found' : ∀ p ∈ g'.known, d'.param? p.id = some p) (shared : g'.shared = g.shared)
    (same : ∀ e ∈ g.shared, d'.constraint? e.2 = d.constraint? e.2)
    (known : ∀ p ∈ g.known, Counterpart d d' p) : Abreast d d' g g' := by
  refine ⟨sound, sound', found, found', shared, same, ?_⟩
  intro p hp p' hp' haddress
  obtain ⟨q', hq', twins⟩ := known p hp
  rwa [unique p' q' hp' hq' (haddress.trans twins.address_eq.symm)]

/-- Descriptions that grow anywhere in another device have their counterparts there. -/
theorem Grown.counterparts (ns : d'.ns = d.ns) (unique : d'.Unambiguous)
    (sites : SiteTwin d d' site site) {g : Ground} {entries : List (String × Description.Param)}
    {f : Forest} (h : Grown source [] g site entries f) (hd : Holds d g f) (sound : Sound g)
    (found : ∀ p ∈ g.known, d.param? p.id = some p)
    (same : ∀ e ∈ g.shared, d'.constraint? e.2 = d.constraint? e.2)
    (known : ∀ p ∈ g.known, Counterpart d d' p)
    (elsewhere : ∀ e ∈ entries, GrowsIn source site d' g.shared e) :
    ∀ p ∈ f.params, Counterpart d d' p := by
  -- All that is finished before a tree has its counterparts, wherever they are: so the tree mirrors
  -- the one that grows elsewhere, and what is finished after it has its counterparts too.
  induction entries generalizing g f with
  | nil =>
    rw [h.eq_nil]
    simp
  | cons e entries ih =>
    obtain ⟨tree, rest, first, next, rfl⟩ := h.uncons
    obtain ⟨g', tree', first', hd', sound', found', shared⟩ := elsewhere e (List.mem_cons_self ..)
    have level := Abreast.of_counterparts unique sound sound' found found' shared same known
    have twins := first.mirror ns unique first' level sites hd.left hd'
    have htree : ∀ p ∈ tree.params, Counterpart d d' p := by
      intro p hp
      obtain ⟨p', hp', htwin⟩ := twins.mem hp
      exact ⟨p', hd'.found p' hp', htwin⟩
    have hknown : ∀ p ∈ (g.after tree).known, Counterpart d d' p := by
      intro p hp
      rcases List.mem_append.mp hp with hp | hp
      · exact known p hp
      · exact htree p hp
    have hrest := ih next hd.right (first.sound sound) (hd.left.known_after found) same hknown
      (fun e he => elsewhere e (List.mem_cons_of_mem _ he))
    intro p hp
    rw [Forest.params_append, List.mem_append] at hp
    rcases hp with hp | hp
    · exact htree p hp
    · exact hrest p hp

end Growth

/-- Where the outermost parameter of a name stands. -/
def rootPlace (realm : Realm) (name : String) : String × Option (Realm × String) :=
  (name, some (realm, "/" ++ name))

theorem Grown.root_places {source : Source} {opened : List Path} {g : Ground} {realm : Realm}
    {importRoot : Path} {entries : List (String × Description.Param)} {f : Forest} {d : Device}
    (h : Grown source opened g (.root realm importRoot) entries f) (hd : Holds d g f) :
    f.entries.map (placeIn d) = (entries.map Prod.fst).map (rootPlace realm) := by
  rw [← h.keys, Forest.entries, List.map_map, List.map_map]
  refine List.map_congr_left fun p hp => ?_
  have hseat := h.seated.root hp
  have hfound := hd.found p (Forest.mem_params_of_mem_roots hp)
  simp [placeIn, rootPlace, Device.spot, hfound, Param.address, hseat.fqoid, hseat.realm, Site.root,
    Slot.root]

/-- A name leads to its place if it is listed, wherever. -/
theorem lookup_rootPlace (realm : Realm) (names : List String) (name : String) :
    (names.map (rootPlace realm)).lookup name =
      if name ∈ names then some (some (realm, "/" ++ name)) else none := by
  split
  · next hname => exact List.lookup_graph (fun n => some (realm, "/" ++ n)) hname
  · next hname =>
    rw [List.lookup_eq_none_iff]
    intro e he
    obtain ⟨n, hn, rfl⟩ := List.mem_map.mp he
    exact bne_iff_ne.mpr fun heq => hname (heq ▸ hn)

section Devices

variable {source : Source} {importRoot : Path} {description description' : Description.Device}
  {d d' : Device} {shared : List Constraint} {params commands params' commands' : Forest}

/-- The shared constraints of a description are what they are, whatever else it has. -/
theorem shareable_unique {constraints : Entries Description.Constraint}
    {shared shared' : List Constraint}
    (h : constraints.map (fun (oid, c) => shareable oid c) = shared.map Except.ok)
    (h' : constraints.map (fun (oid, c) => shareable oid c) = shared'.map Except.ok) :
    shared' = shared :=
  (List.map_injective_iff.mpr fun _ _ => Except.ok.inj) (h'.symm.trans h)

theorem Resolved.addresses_nodup
    (h : Resolved source importRoot description d shared params commands) :
    (d.nodes.toList.map Param.address).Nodup := by
  have hstems := h.stems_nodup
  rw [Forest.params_append, ← h.nodes] at hstems
  refine List.Nodup.of_map (fun address => Param.identOf address.1 address.2) ?_
  rwa [List.map_map]

/-- A device has no more parameters than another that has counterparts of all of them. -/
theorem Resolved.size_le (h : Resolved source importRoot description d shared params commands)
    (counterparts : ∀ p ∈ d.nodes.toList, Counterpart d d' p) : d.nodes.size ≤ d'.nodes.size := by
  have hsubset : d.nodes.toList.map Param.address ⊆ d'.nodes.toList.map Param.address := by
    intro address ha
    obtain ⟨p, hp, rfl⟩ := List.mem_map.mp ha
    obtain ⟨p', hp', twins⟩ := counterparts p hp
    exact List.mem_map.mpr
      ⟨p', Array.mem_toList_iff.mpr (Array.mem_of_getElem? hp'), twins.address_eq⟩
  have hle := (h.addresses_nodup.subperm hsubset).length_le
  simpa using hle

/-- Devices with the same shared constraints are level before their first parameters. -/
theorem Resolved.abreast (h : Resolved source importRoot description d shared params commands)
    (h' : Resolved source importRoot description' d' shared params' commands') :
    Abreast d d' (start shared) (start shared) := by
  refine .start h.unowned ?_ ?_
  · rw [h.constraints]
    exact List.prefix_append _ _
  · rw [h'.constraints]
    exact List.prefix_append _ _

/-- Reordered parameters have their counterparts, and so have the commands after them. -/
theorem Resolved.counterparts (ns : d'.ns = d.ns)
    (h : Resolved source importRoot description d shared params commands)
    (h' : Resolved source importRoot description' d' shared params' commands')
    (perm : description'.params.Perm description.params)
    (same : description'.commands = description.commands) :
    ∀ p ∈ d.nodes.toList, Counterpart d d' p := by
  have level := h.abreast h'
  have hparams : ∀ p ∈ params.params, Counterpart d d' p := by
    refine h.params_grown.counterparts ns h'.unambiguous (.root .params importRoot) h.holds.left
      level.sound level.found level.same (by simp [start]) ?_
    intro e he
    exact h'.params_grown.growsIn h'.holds.left level.sound' level.found' e (perm.mem_iff.mpr he)
  have hcommands := h'.commands_grown
  rw [same] at hcommands
  -- Commands come in one order, but on grounds whose parameters do not.
  have after : Abreast d d' ((start shared).after params) ((start shared).after params') := by
    refine .of_counterparts h'.unambiguous h.sound h'.sound (h.holds.left.known_after level.found)
      (h'.holds.left.known_after level.found') rfl level.same ?_
    simpa [start] using hparams
  have twins := h.commands_grown.mirror ns h'.unambiguous hcommands after
    (.root .commands importRoot) h.holds.right h'.holds.right
  intro p hp
  rw [h.nodes, List.mem_append] at hp
  rcases hp with hp | hp
  · exact hparams p hp
  · obtain ⟨p', hp', htwin⟩ := twins.mem hp
    exact ⟨p', h'.holds.right.found p' hp', htwin⟩

/-- Devices of reordered parameters mirror each other. -/
theorem Resolved.mirrors (ns : d'.ns = d.ns)
    (h : Resolved source importRoot description d shared params commands)
    (h' : Resolved source importRoot description' d' shared params' commands')
    (perm : description'.params.Perm description.params)
    (same : description'.commands = description.commands) :
    Mirrors d d' := by
  have hcounterparts := h.counterparts ns h' perm same
  refine ⟨ns, ?_, ?_⟩
  -- Neither device can have more parameters than the other, as each has counterparts of all in the
  -- other.
  · exact Nat.le_antisymm (h'.size_le (h'.counterparts ns.symm h perm.symm same.symm))
      (h.size_le hcounterparts)
  · intro id id' p p' hp hp' haddress
    obtain ⟨q', hq', twins⟩ := hcounterparts p (Array.mem_toList_iff.mpr (Array.mem_of_getElem? hp))
    rw [← h'.id_eq hp'] at hp'
    rwa [h'.unambiguous p' q' hp' hq' (haddress.trans twins.address_eq.symm)]

/-- Outermost parameters stand at addresses that their names alone give. -/
theorem Resolved.root_places (h : Resolved source importRoot description d shared params commands)
    (realm : Realm) :
    (d.roots realm).map (placeIn d) = ((description.outermost realm).map Prod.fst).map
      (rootPlace realm) := by
  cases realm with
  | params =>
    rw [Device.roots, h.params_eq]
    exact h.params_grown.root_places h.holds.left
  | commands =>
    rw [Device.roots, h.commands_eq]
    exact h.commands_grown.root_places h.holds.right

end Devices

end Resolve

namespace Cpp

/-- The blocks of the outermost parameters, by their names and in their order. -/
def paramBlocks (d : Device) : List (String × List Line) :=
  d.params.map fun e => (e.1, blockLines d .params e.2)

/-- The body with the given blocks between what starts the body of the device and what ends it. -/
def bodyAround (d : Device) (blocks : List (String × List Line)) (headerName sourceName : String) :
    List Line :=
  preamble headerName sourceName ++ lines d (prologue d) ++ blocks.flatMap Prod.snd ++
    realmLines d .commands ++ menuLines d

theorem body_around {d : Device} (h : unrepeated [] (trees d) = trees d)
    (headerName sourceName : String) :
    body d headerName sourceName = bodyAround d (paramBlocks d) headerName sourceName := by
  rw [body_blocks h, bodyAround, paramBlocks, List.flatMap_map]
  simp only [realmLines, Device.roots]

end Cpp

/-- Parameters at the same places have the same blocks. -/
theorem Mirrors.paramBlocks_perm {d d' : Device} (m : Mirrors d d')
    (h : ((d'.roots .params).map (placeIn d')).Perm ((d.roots .params).map (placeIn d))) :
    (Cpp.paramBlocks d').Perm (Cpp.paramBlocks d) := by
  refine places_perm (fun e e' he => ?_) h
  obtain ⟨hname, hspot⟩ := Prod.mk.inj he
  rw [hname, m.blockLines_eq .params hspot]

namespace Resolve

open Cpp (paramBlocks bodyAround prologue_lines menuLines_eq)

theorem Resolved.paramBlocks_names {source : Source} {importRoot : Path}
    {description : Description.Device} {d : Device} {shared : List Constraint}
    {params commands : Forest}
    (h : Resolved source importRoot description d shared params commands) :
    (paramBlocks d).map Prod.fst = description.params.map Prod.fst := by
  rw [← h.params_grown.keys, paramBlocks, h.params_eq, Forest.entries, List.map_map, List.map_map]
  rfl

/-- Devices that differ only in the order of their outermost parameters. -/
structure Reordered (names names' : List String) (d d' : Device) : Prop where
  order : (paramBlocks d).map Prod.fst = names
  order' : (paramBlocks d').map Prod.fst = names'
  blocks : (paramBlocks d').Perm (paramBlocks d)
  body : ∀ headerName sourceName, Cpp.body d headerName sourceName =
    bodyAround d (paramBlocks d) headerName sourceName
  body' : ∀ headerName sourceName,
    Cpp.body d' headerName sourceName = bodyAround d (paramBlocks d') headerName sourceName
  summaries : ∀ realm fqoid,
    (d'.find? realm fqoid).map d'.paramSummary = (d.find? realm fqoid).map d.paramSummary

/-- The order in which a device declares its parameters shows only in the order of their blocks. -/
theorem order_immaterial {ns : String} {description : Description.Device} {importRoot : Path}
    {source : Source} {params' : Entries Description.Param} {d d' : Device}
    (perm : params'.Perm description.params)
    (h : (resolveDevice ns description importRoot source).result = .ok d)
    (h' : (resolveDevice ns { description with params := params' } importRoot source).result =
      .ok d') :
    Reordered (description.params.map Prod.fst) (params'.map Prod.fst) d d' := by
  obtain ⟨framed, shared, params, commands, r⟩ := resolveDevice_framed h
  obtain ⟨framed', shared', forest', commands', r'⟩ := resolveDevice_framed h'
  obtain rfl := shareable_unique r.shareable r'.shareable
  have hhead : d'.head = d.head := framed'.head.trans framed.head.symm
  have mirrors : Mirrors d d' := r.mirrors (congrArg Prod.fst hhead) r' perm rfl
  have hnames : ∀ realm,
      (({ description with params := params' }.outermost realm).map Prod.fst).Perm
      ((description.outermost realm).map Prod.fst) := by
    intro realm
    cases realm with
    | params => exact perm.map Prod.fst
    | commands => exact .refl _
  refine ⟨r.paramBlocks_names, r'.paramBlocks_names, ?_,
    Cpp.body_around (Cpp.unrepeated_trees r), ?_, ?_⟩
  · apply mirrors.paramBlocks_perm
    rw [r.root_places, r'.root_places]
    exact (hnames .params).map _
  · intro headerName sourceName
    have hsame : ∀ e ∈ d.sharedConstraints, d'.constraint? e.2 = d.constraint? e.2 := by
      rw [r.shared_eq]
      exact (r.abreast r').same
    have hprologue := prologue_lines hhead (r'.shared_eq.trans r.shared_eq.symm) hsame
    have hcommands :=
      mirrors.realmLines_eq ((r'.root_places .commands).trans (r.root_places .commands).symm)
    have hmenus := menuLines_eq (framed'.menuGroups.trans framed.menuGroups.symm)
    rw [Cpp.body_around (Cpp.unrepeated_trees r'), bodyAround, bodyAround, hprologue, hcommands,
      hmenus]
  · intro realm
    refine mirrors.find?_eq fun name => ?_
    rw [← lookup_placeIn, ← lookup_placeIn, r.root_places, r'.root_places, lookup_rootPlace,
      lookup_rootPlace]
    simp only [(hnames realm).mem_iff]

/-- The parameters of the furnished device in another order: the struct, its copy and then the
number. -/
def shiftedParams : Entries Description.Param :=
  Cpp.furnished.params.drop 1 ++ Cpp.furnished.params.take 1

theorem furnished_order_immaterial :
    ∃ d d', (resolveDevice "m" Cpp.furnished ⟨"params"⟩ (Documents.source {})).result = .ok d ∧
      (resolveDevice "m" { Cpp.furnished with params := shiftedParams } ⟨"params"⟩
        (Documents.source {})).result =
        .ok d' ∧
      d.params = [("gain", ⟨0⟩), ("point", ⟨1⟩), ("other", ⟨3⟩)] ∧
      d'.params = [("point", ⟨0⟩), ("other", ⟨2⟩), ("gain", ⟨4⟩)] ∧
      Reordered ["gain", "point", "other"] ["point", "other", "gain"] d d' := by
  have hok : ((resolveDevice "m" Cpp.furnished ⟨"params"⟩ (Documents.source {})).result.toOption.map
      fun d => d.params) = some [("gain", ⟨0⟩), ("point", ⟨1⟩), ("other", ⟨3⟩)] := by decide +kernel
  have hok' : ((resolveDevice "m" { Cpp.furnished with params := shiftedParams } ⟨"params"⟩
      (Documents.source {})).result.toOption.map fun d => d.params) =
        some [("point", ⟨0⟩), ("other", ⟨2⟩), ("gain", ⟨4⟩)] := by decide +kernel
  obtain ⟨d, hd, hparams⟩ := ok_of_toOption hok
  obtain ⟨d', hd', hparams'⟩ := ok_of_toOption hok'
  have perm : shiftedParams.Perm Cpp.furnished.params := by
    have hswap : shiftedParams.Perm (Cpp.furnished.params.take 1 ++ Cpp.furnished.params.drop 1) :=
      List.perm_append_comm
    rwa [List.take_append_drop] at hswap
  exact ⟨d, d', hd, hd', hparams, hparams', order_immaterial perm hd hd'⟩

end Resolve

end DeviceModel
