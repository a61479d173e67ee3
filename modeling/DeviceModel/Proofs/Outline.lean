import DeviceModel.Proofs.Expansion
import DeviceModel.Proofs.Replicas

namespace DeviceModel

/-- The names and type codes of a forest of parameters. -/
inductive Outline where
  | nil
  | cons (oid code : String) (below rest : Outline)
  deriving DecidableEq, Repr

namespace Outline

def append : Outline → Outline → Outline
  | nil, o => o
  | cons oid code below rest, o => cons oid code below (rest.append o)

/-- What is below each parameter, by its full oid. -/
def named (path : String) : Outline → Entries Outline
  | nil => []
  | cons oid _ below rest =>
    (path ++ "/" ++ oid, below) :: (below.named (path ++ "/" ++ oid) ++ rest.named path)

/-- What may be a template after an outline. Commands, and what is below them, may not. -/
def remember (realm : Realm) (path : String) (earlier : Entries Outline) (o : Outline) :
    Entries Outline :=
  match realm with
  | .params => earlier ++ o.named path
  | .commands => earlier

end Outline

namespace Description

/-- The code that a parameter is declared with. A command is always empty. -/
def Param.code? (isCommand : Bool) (q : Param) : Option String :=
  if isCommand then some "EMPTY" else q.type

mutual

/-- What is described below a parameter: what is below its template, or else its own parameters. -/
def outlineBelow (realm : Realm) (earlier : Entries Outline) (fqoid : String) :
    Param → Option Outline
  | ⟨d, params⟩ =>
    match d.template with
    | some template => earlier.get? (completeOid template)
    | none => outlineEach realm false earlier fqoid params

/-- The outline of parameters that are described at a path; `earlier` is what is below those before
them. -/
def outlineEach (realm : Realm) (isCommand : Bool) (earlier : Entries Outline) (path : String) :
    List (String × Param) → Option Outline
  | [] => some .nil
  | (oid, q) :: rest => do
    let code ← q.code? isCommand
    let below ← outlineBelow realm earlier (path ++ "/" ++ oid) q
    let remembered := Outline.remember realm path earlier (.cons oid code below .nil)
    return .cons oid code below (← outlineEach realm isCommand remembered path rest)

end

/-- The outlines of parameters and of commands. -/
def Device.outlines? (d : Device) : Option (Outline × Outline) := do
  let params ← outlineEach .params false [] "" d.params
  let commands ← outlineEach .commands true (params.named "") "" d.commands
  return (params, commands)

/-- A name is repeated among the parameters, or among those below one of them. -/
inductive Repeats : List (String × Param) → Prop where
  | here {entries : List (String × Param)} (repeated : ¬ (entries.map Prod.fst).Nodup) :
      Repeats entries
  | inside {entries : List (String × Param)} {oid : String} {q : Param}
      (described : (oid, q) ∈ entries) (inner : Repeats q.params) : Repeats entries

theorem not_repeats {entries : List (String × Param)} (distinct : (entries.map Prod.fst).Nodup)
    (inner : ∀ e ∈ entries, ¬ Repeats e.2.params) : ¬ Repeats entries := by
  intro h
  cases h with
  | here repeated => exact repeated distinct
  | inside described h => exact inner _ described h

theorem outlineEach_single (realm : Realm) (isCommand : Bool) (earlier : Entries Outline)
    (path oid : String) (q : Param) :
    outlineEach realm isCommand earlier path [(oid, q)] = do
      return .cons oid (← q.code? isCommand)
        (← outlineBelow realm earlier (path ++ "/" ++ oid) q) .nil := by
  simp only [outlineEach]
  rfl

/-- Those after the first see what is below it. -/
theorem outlineEach_cons (realm : Realm) (isCommand : Bool) (earlier : Entries Outline)
    (path oid : String) (q : Param) (rest : List (String × Param)) :
    outlineEach realm isCommand earlier path ((oid, q) :: rest) = do
      let first ← outlineEach realm isCommand earlier path [(oid, q)]
      return first.append
        (← outlineEach realm isCommand (Outline.remember realm path earlier first) path rest) := by
  rw [outlineEach_single, outlineEach]
  cases q.code? isCommand with
  | none => rfl
  | some code => cases outlineBelow realm earlier (path ++ "/" ++ oid) q <;> rfl

end Description

/-- The outline that is read off a device, from entry to entry. -/
inductive Device.Outlines (d : Device) : Entries ParamId → Outline → Prop where
  | nil : Outlines d [] .nil
  | cons {key : String} {id : ParamId} {p : Param} {entries : Entries ParamId}
      {below rest : Outline}
      (found : d.param? id = some p) (named : p.oid = key) (inner : Outlines d p.children below)
      (next : Outlines d entries rest) :
      Outlines d ((key, id) :: entries) (.cons key p.declared.text below rest)

theorem Device.Outlines.unique {d : Device} {entries : Entries ParamId} {o o' : Outline}
    (h : d.Outlines entries o) (h' : d.Outlines entries o') : o = o' := by
  induction h generalizing o' with
  | nil =>
    cases h'
    rfl
  | cons found _ _ _ ihInner ihNext =>
    cases h' with
    | cons found' _ inner' next' =>
      cases found.symm.trans found'
      rw [ihInner inner', ihNext next']

namespace Forest

def outline : Forest → Outline
  | nil => .nil
  | cons p _ below rest => .cons p.oid p.declared.text below.outline rest.outline

theorem outline_append (f g : Forest) : (f.append g).outline = f.outline.append g.outline := by
  induction f with
  | nil => rfl
  | cons p own below rest _ ih => rw [cons_append, outline, outline, Outline.append, ih]

/-- A device has the outline of a forest that it holds. -/
theorem outlines {d : Device} {f : Forest} (linked : f.Linked)
    (found : ∀ p ∈ f.params, d.param? p.id = some p) :
    d.Outlines f.entries f.outline := by
  induction f with
  | nil => exact .nil
  | cons p own below rest ihBelow ihRest =>
    refine .cons (found p (by simp)) rfl ?_ (ihRest linked.2.2 fun q hq => found q (by simp [hq]))
    rw [linked.1]
    exact ihBelow linked.2.1 fun q hq => found q (by simp [hq])

theorem outlines_iff {d : Device} {f : Forest} (linked : f.Linked)
    (found : ∀ p ∈ f.params, d.param? p.id = some p) (o : Outline) :
    d.Outlines f.entries o ↔ o = f.outline := by
  have hf := outlines linked found
  exact ⟨fun ho => ho.unique hf, fun ho => ho ▸ hf⟩

theorem Parallel.outline_eq {R : Param → Param → Prop} {f g : Forest} (h : Parallel R f g)
    (hR : ∀ x y, R x y → x.oid = y.oid ∧ x.declared = y.declared) : f.outline = g.outline := by
  induction h with
  | nil => rfl
  | cons node _ _ ihInner ihNext =>
    obtain ⟨hoid, hdeclared⟩ := hR _ _ node
    rw [outline, outline, hoid, hdeclared, ihInner, ihNext]

end Forest

/-- What is below a parameter has one outline. -/
theorem Under.outline_eq {d : Device} {p : Param} {f g : Forest} (hf : Under d p f)
    (hg : Under d p g) :
    f.outline = g.outline := by
  refine (hf.unique hg).outline_eq ?_
  rintro x y rfl
  exact ⟨rfl, rfl⟩

theorem TypeCode.text_of_ofText? {s : String} {t : TypeCode} (h : TypeCode.ofText? s = some t) :
    t.text = s := by
  unfold TypeCode.ofText? at h
  split at h
  case h_12 => cases h
  all_goals
    cases h
    rfl

namespace Resolve

/-- What is remembered is what is below the finished parameters, each under its full oid. -/
structure Noted (d : Device) (g : Ground) (earlier : Entries Outline) : Prop where
  sound : ∀ e ∈ earlier, ∃ p ∈ g.known, p.realm = .params ∧ p.fqoid = e.1 ∧ ∀ m, Under d p m →
    m.outline = e.2
  complete : ∀ p ∈ g.known, p.realm = .params → p.fqoid ∈ earlier.map Prod.fst

section Notes

variable {d : Device} {g : Ground} {f : Forest} {above : Option ParamId} {path : String}
  {earlier : Entries Outline}

theorem named_sound (linked : f.Linked) (found : ∀ p ∈ f.params, d.param? p.id = some p)
    {realm : Realm} (seated : f.Seated above path realm) : ∀ e ∈ f.outline.named path,
      ∃ p ∈ f.params, p.realm = realm ∧ p.fqoid = e.1 ∧ ∀ m, Under d p m → m.outline = e.2 := by
  induction f generalizing above path with
  | nil => simp [Forest.outline, Outline.named]
  | cons p own below rest ihBelow ihRest =>
    have hbelow : ∀ q ∈ below.params, d.param? q.id = some q := fun q hq => found q (by simp [hq])
    intro e he
    simp only [Forest.outline, Outline.named, List.mem_cons, List.mem_append] at he
    rcases he with rfl | he | he
    · refine ⟨p, by simp, seated.1.realm, seated.1.fqoid, fun m hm => ?_⟩
      exact hm.outline_eq ⟨linked.1, linked.2.1, hbelow⟩
    · rw [← seated.1.fqoid] at he
      obtain ⟨q, hq, hnoted⟩ := ihBelow linked.2.1 hbelow seated.2.1 e he
      exact ⟨q, by simp [hq], hnoted⟩
    · obtain ⟨q, hq, hnoted⟩ :=
        ihRest linked.2.2 (fun q hq => found q (by simp [hq])) seated.2.2 e he
      exact ⟨q, by simp [hq], hnoted⟩

theorem named_complete {realm : Realm} (seated : f.Seated above path realm) :
    ∀ p ∈ f.params, p.fqoid ∈ (f.outline.named path).map Prod.fst := by
  induction f generalizing above path with
  | nil => simp
  | cons p own below rest ihBelow ihRest =>
    intro q hq
    simp only [Forest.params_cons, List.mem_cons, List.mem_append] at hq
    simp only [Forest.outline, Outline.named, List.map_cons, List.map_append, List.mem_cons,
      List.mem_append, ← seated.1.fqoid]
    rcases hq with rfl | hq | hq
    · exact .inl rfl
    · exact .inr (.inl (ihBelow seated.2.1 q hq))
    · exact .inr (.inr (ihRest seated.2.2 q hq))

theorem Noted.start (d : Device) (shared : List Constraint) : Noted d (start shared) [] where
  sound := by simp
  complete := by simp [Resolve.start]

theorem Noted.enter (h : Noted d g earlier) (realm : Realm) (fqoid : String)
    (rule : Option Constraint) :
    Noted d (g.enter realm fqoid rule) earlier :=
  ⟨h.sound, h.complete⟩

/-- What is finished after a forest is remembered after it. -/
theorem Noted.after (h : Noted d g earlier) (linked : f.Linked)
    (found : ∀ p ∈ f.params, d.param? p.id = some p) {realm : Realm}
    (seated : f.Seated above path realm) :
    Noted d (g.after f) (Outline.remember realm path earlier f.outline) := by
  cases realm with
  | params =>
    constructor
    case sound =>
      intro e he
      rcases List.mem_append.mp he with he | he
      · obtain ⟨p, hp, hnoted⟩ := h.sound e he
        exact ⟨p, List.mem_append_left _ hp, hnoted⟩
      · obtain ⟨p, hp, hnoted⟩ := named_sound linked found seated e he
        exact ⟨p, List.mem_append_right _ hp, hnoted⟩
    case complete =>
      intro p hp hrealm
      change p.fqoid ∈ (earlier ++ f.outline.named path).map Prod.fst
      rw [List.map_append, List.mem_append]
      rcases List.mem_append.mp hp with hp | hp
      · exact .inl (h.complete p hp hrealm)
      · exact .inr (named_complete seated p hp)
  | commands =>
    constructor
    case sound =>
      intro e he
      obtain ⟨p, hp, hnoted⟩ := h.sound e he
      exact ⟨p, List.mem_append_left _ hp, hnoted⟩
    case complete =>
      intro p hp hrealm
      rcases List.mem_append.mp hp with hp | hp
      · exact h.complete p hp hrealm
      · cases (seated.realm_eq hp).symm.trans hrealm

/-- What is remembered under the full oid of a template is what is below it. -/
theorem Noted.get? (h : Noted d g earlier) (orderly : Orderly d)
    (known : ∀ p ∈ g.known, d.param? p.id = some p) {template : Param} (ht : template ∈ g.known)
    (hrealm : template.realm = .params) {m : Forest} (hm : Under d template m) :
    earlier.get? template.fqoid = some m.outline := by
  cases hget : earlier.get? template.fqoid with
  | none =>
    obtain ⟨e, he, hkey⟩ := List.mem_map.mp (h.complete template ht hrealm)
    have hne := List.lookup_eq_none_iff.mp hget e he
    rw [hkey] at hne
    simp at hne
  | some o =>
    obtain ⟨before, after, heq, _⟩ := List.lookup_eq_some_iff.mp hget
    obtain ⟨p, hp, hrealm', hfqoid, houtline⟩ := h.sound (template.fqoid, o) (by simp [heq])
    have hsame : p = template := by
      apply orderly.stems p (Array.mem_of_getElem? (known p hp)) template
        (Array.mem_of_getElem? (known template ht))
      rw [Param.ident, Param.ident, hrealm', hfqoid, hrealm]
    subst hsame
    rw [houtline m hm]

end Notes

section Growth

variable {d : Device} {source : Source} {opened : List Path} {g : Ground} {site : Site} {f : Forest}
  {entries : List (String × Description.Param)}

theorem code?_of_declaredType {oid : String} {declaration : Description.Declaration} {t : TypeCode}
    (h : declaredType site oid declaration = .ok t) (params : List (String × Description.Param)) :
    Description.Param.code? site.isCommand ⟨declaration, params⟩ = some t.text := by
  unfold declaredType at h
  unfold Description.Param.code?
  cases hcommand : site.isCommand with
  | true =>
    simp only [hcommand, if_true] at h
    split at h
    · cases h
    · split at h
      · cases h
      · cases h
        rfl
  | false =>
    simp only [hcommand, Bool.false_eq_true, if_false] at h
    split at h
    · next t' hcode =>
      cases h
      have htext := TypeCode.text_of_ofText? hcode
      cases htype : declaration.type with
      | none =>
        rw [htype] at hcode
        cases hcode
      | some code =>
        rw [htype] at htext
        exact congrArg some htext.symm
    · cases h

/-- What grows has the outline that is described. -/
theorem Grown.outline (h : Grown source opened g site entries f)
    (written : allWrittenOut entries = true) (hunder : ∀ p ∈ d.nodes, ∃ m, Under d p m)
    (orderly : Orderly d) (known : ∀ p ∈ g.known, d.param? p.id = some p)
    (found : ∀ p ∈ f.params, d.param? p.id = some p) {earlier : Entries Outline}
    (noted : Noted d g earlier) :
    Description.outlineEach site.realm site.isCommand earlier site.path entries =
      some f.outline := by
  induction h generalizing earlier with
  | nil =>
    rw [Description.outlineEach]
    rfl
  | @cons opened g site oid q others f rest first next ihFirst ihNext =>
    rw [allWrittenOut, Bool.and_eq_true] at written
    have hfound : ∀ p ∈ f.params, d.param? p.id = some p := fun p hp => found p (by simp [hp])
    have hfirst := ihFirst (by simp [allWrittenOut, written.1]) known hfound noted
    have hnext := ihNext written.2 (Ground.forall_after known hfound)
      (fun p hp => found p (by simp [hp])) (noted.after first.linked hfound first.seated)
    rw [Description.outlineEach_cons, hfirst, Forest.outline_append]
    simp only [Option.bind_eq_bind, Option.bind_some, hnext]
    rfl
  | imported elsewhere =>
    simp [allWrittenOut, writtenOut, elsewhere] at written
  | @templated _ g site oid declaration templateOid template p type overElements below rule here
      referred hknown hfqoid inParams _ copied _ settled =>
    have hbelow : ∀ q ∈ below.params, d.param? q.id = some q := fun q hq => found q (by simp [hq])
    obtain ⟨m, hm⟩ := hunder template (Array.mem_of_getElem? (known template hknown))
    have hcopy := copied.parallel known hbelow hm.linked hm.found hm.children
    have houtline : earlier.get? (completeOid templateOid) = some below.outline := by
      rw [← hfqoid, noted.get? orderly known hknown inParams hm, hcopy.outline_eq]
      exact fun x y h => ⟨h.oid_eq, h.declared_eq⟩
    rw [Description.outlineEach_single, code?_of_declaredType settled.declared,
      Description.outlineBelow, referred]
    simp only [houtline, Forest.tree, Forest.outline, settled.oid]
    rfl
  | @composite _ g site oid declaration params p below rule here untemplated _ _ _ _ _
    grown settled ih
  | @plain _ g site oid declaration params p below rule here untemplated _ _ _ grown settled ih =>
    have hparams : allWrittenOut params = true := by
      simpa [allWrittenOut, writtenOut, here] using written
    have hbelow := ih hparams known (fun q hq => found q (by simp [hq])) (noted.enter _ _ _)
    rw [Site.below_isCommand] at hbelow
    change Description.outlineEach site.realm false earlier
      (site.path ++ "/" ++ oid) params = _ at hbelow
    rw [Description.outlineEach_single, code?_of_declaredType settled.declared,
      Description.outlineBelow, untemplated]
    simp only [hbelow, Forest.tree, Forest.outline, settled.oid]
    rfl

/-- Where something grows, no name is repeated below. -/
theorem Grown.not_repeats (h : Grown source opened g site entries f)
    (written : allWrittenOut entries = true) :
    ∀ e ∈ entries, ¬ Description.Repeats e.2.params := by
  induction h with
  | nil => simp
  | cons _ _ ihFirst ihNext =>
    rw [allWrittenOut, Bool.and_eq_true] at written
    intro e he
    rcases List.mem_cons.mp he with rfl | he
    · exact ihFirst (by simp [allWrittenOut, written.1]) _ (List.mem_singleton.mpr rfl)
    · exact ihNext written.2 e he
  | imported elsewhere => simp [allWrittenOut, writtenOut, elsewhere] at written
  | templated =>
    intro e he
    rw [List.mem_singleton.mp he]
    exact Description.not_repeats (by simp) (by simp)
  | composite here _ _ distinct _ _ _ _ _ ih | plain here _ _ distinct _ _ _ ih =>
    intro e he
    rw [List.mem_singleton.mp he]
    exact Description.not_repeats (Entries.keys_nodup distinct)
      (ih (by simpa [allWrittenOut, writtenOut, here] using written))

end Growth

end Resolve

open Resolve

/-- Nothing in the description is written elsewhere. -/
def Description.Device.ImportFree (d : Description.Device) : Prop :=
  allWrittenOut d.params = true ∧ allWrittenOut d.commands = true

/-- A device that is resolved has the outline that is described, and where a name is repeated there
is none. -/
structure Shaped (ns : String) (description : Description.Device) (importRoot : Path)
    (source : Source) : Prop where
  outlined : ∀ d, (resolveDevice ns description importRoot source).result = .ok d →
    ∃ params commands, description.outlines? = some (params, commands) ∧
      (∀ o, d.Outlines d.params o ↔ o = params) ∧ ∀ o, d.Outlines d.commands o ↔ o = commands
  rejected : Description.Repeats description.params ∨ Description.Repeats description.commands →
    ∃ e, (resolveDevice ns description importRoot source).result = .error e

theorem importFree_shaped {description : Description.Device} (h : description.ImportFree)
    (ns : String) (importRoot : Path) (source : Source) :
    Shaped ns description importRoot source where
  outlined := by
    intro d hd
    obtain ⟨shared, params, commands, hr⟩ := resolveDevice_resolved hd
    have hnoted :=
      (Noted.start d shared).after hr.params_grown.linked hr.holds.left.found hr.params_grown.seated
    have hparams := hr.params_grown.outline h.1 hr.exists_under hr.orderly
      (by simp [start]) hr.holds.left.found (.start d shared)
    have hcommands := hr.commands_grown.outline h.2 hr.exists_under hr.orderly
      (hr.holds.left.known_after (by simp [start])) hr.holds.right.found hnoted
    refine ⟨params.outline, commands.outline, ?_, ?_, ?_⟩
    · change Description.outlineEach .params false [] "" description.params = _ at hparams
      change Description.outlineEach .commands true
        (params.outline.named "") "" description.commands = _ at hcommands
      rw [Description.Device.outlines?, hparams]
      simp only [Option.bind_eq_bind, Option.bind_some, hcommands]
      rfl
    · rw [hr.params_eq]
      exact Forest.outlines_iff hr.params_grown.linked hr.holds.left.found
    · rw [hr.commands_eq]
      exact Forest.outlines_iff hr.commands_grown.linked hr.holds.right.found
  rejected := by
    intro hrepeats
    cases hresult : (resolveDevice ns description importRoot source).result with
    | error e => exact ⟨e, rfl⟩
    | ok d =>
      obtain ⟨shared, params, commands, hr⟩ := resolveDevice_resolved hresult
      rcases hrepeats with hrepeats | hrepeats
      · exact absurd hrepeats
          (Description.not_repeats (Entries.keys_nodup hr.distinctParams)
            (hr.params_grown.not_repeats h.1))
      · exact absurd hrepeats
          (Description.not_repeats (Entries.keys_nodup hr.distinctCommands)
            (hr.commands_grown.not_repeats h.2))

/-- Templates below other parameters, one of which is a copy itself, and a command with an argument
made after one. -/
def pathsAndGo : Description.Device :=
  .small
    [("point", ⟨.ofType "STRUCT", [("x", ⟨.ofType "INT32", []⟩), ("y", ⟨.ofType "FLOAT32", []⟩)]⟩),
      ("path", ⟨.ofType "STRUCT",
        [("from", ⟨{ Description.Declaration.ofType "STRUCT" with template := some "point" }, []⟩),
          ("to",
            ⟨{ Description.Declaration.ofType "STRUCT" with template := some "/path/from" },
            []⟩)]⟩)]
    [("go", ⟨.ofType "STRUCT",
      [("along",
        ⟨{ Description.Declaration.ofType "STRUCT_ARRAY" with template := some "path" }, []⟩)]⟩)]

/-- A command with two arguments of the same name. -/
def goTwice : Description.Device :=
  .small []
    [("go", ⟨.ofType "EMPTY", [("x", ⟨.ofType "INT32", []⟩), ("x", ⟨.ofType "STRING", []⟩)]⟩)]

def pointOutline : Outline := .cons "x" "INT32" .nil (.cons "y" "FLOAT32" .nil .nil)

def pathOutline : Outline :=
  .cons "from" "STRUCT" pointOutline (.cons "to" "STRUCT" pointOutline .nil)

theorem pathsAndGo_shaped :
    pathsAndGo.ImportFree ∧
      (∃ d, (resolveDevice "m" pathsAndGo ⟨"params"⟩ (Documents.source {})).result = .ok d ∧
        (∀ o, d.Outlines d.params o ↔
          o = .cons "point" "STRUCT" pointOutline (.cons "path" "STRUCT" pathOutline .nil)) ∧
        ∀ o, d.Outlines d.commands o ↔
          o = .cons "go" "EMPTY" (.cons "along" "STRUCT_ARRAY" pathOutline .nil) .nil) ∧
      goTwice.ImportFree ∧ Description.Repeats goTwice.commands ∧
      ∃ e, (resolveDevice "m" goTwice ⟨"params"⟩ (Documents.source {})).result = .error e := by
  have hfree : pathsAndGo.ImportFree := ⟨by decide, by decide⟩
  have htwice : goTwice.ImportFree := ⟨by decide, by decide⟩
  have hrepeats : Description.Repeats goTwice.commands :=
    .inside (List.mem_singleton.mpr rfl) (.here (by decide))
  refine ⟨hfree, ?_, htwice, hrepeats,
    (importFree_shaped htwice "m" ⟨"params"⟩ _).rejected (.inr hrepeats)⟩
  have hok :
      ((resolveDevice "m" pathsAndGo ⟨"params"⟩ (Documents.source {})).result.toOption.map fun d =>
      d.nodes.size) = some 18 := by
    decide +kernel
  obtain ⟨d, hd, _⟩ := ok_of_toOption hok
  obtain ⟨params, commands, houtlines, hparams, hcommands⟩ :=
    (importFree_shaped hfree "m" ⟨"params"⟩ (Documents.source {})).outlined d hd
  have hdescribed : pathsAndGo.outlines? =
      some (.cons "point" "STRUCT" pointOutline (.cons "path" "STRUCT" pathOutline .nil),
        .cons "go" "EMPTY" (.cons "along" "STRUCT_ARRAY" pathOutline .nil) .nil) := by
    decide +kernel
  cases houtlines.symm.trans hdescribed
  exact ⟨d, hd, hparams, hcommands⟩

end DeviceModel
