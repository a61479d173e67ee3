import DeviceModel.Proofs.CodeNames
import DeviceModel.Proofs.Runs
import DeviceModel.Proofs.SchemaNames

namespace DeviceModel

open Document Resolve

namespace DeviceDocument

theorem namespaceInStem_ok {stem ns : String} (h : namespaceInStem stem = .ok ns) :
    Text.isIdentifier ns = true := by
  unfold namespaceInStem at h
  split at h
  · split at h
    · cases h
    · split at h
      · next hns =>
        cases h
        exact hns
      · cases h
  · cases h

theorem namespaceOf_ok {p : Path} {ns : String} (h : namespaceOf p = .ok ns) :
    Text.isIdentifier ns = true := by
  unfold namespaceOf at h
  split at h
  · cases h
  · exact namespaceInStem_ok (except_mapError_ok.mp h)

theorem load_ok {source : Source} {p : Path} {doc : DeviceDocument} (h : load source p = .ok doc) :
    Text.isIdentifier doc.ns = true ∧ ∃ format text, Format.ofPath? p = some format ∧
      source.read p = .ok text ∧
      Description.read? Description.Decode.device format text = some doc.description := by
  unfold load at h
  split at h
  · next format hformat =>
    obtain ⟨ns, hns, h⟩ := except_bind_ok.mp h
    split at h
    · cases h
    · next text hread =>
      split at h
      · cases h
      · next description hdescription =>
        obtain rfl := except_pure_ok.mp h
        exact ⟨namespaceOf_ok hns, format, text, hformat, hread, hdescription⟩
  · cases h

end DeviceDocument

theorem Resolve.resolveFile_ok {p : Path} {source : Source} {d : Device}
    (h : (Resolve.resolveFile p source).result = .ok d) :
    ∃ doc, DeviceDocument.load source p = .ok doc ∧
      (resolveDevice doc.ns doc.description doc.importRoot source).result = .ok d := by
  unfold Resolve.resolveFile at h
  split at h
  · next doc hload => exact ⟨doc, hload, h⟩
  · cases h

namespace CommandLine

theorem readDocument_ok {files : FileTree} {p : Path} {v : Json}
    (h : readDocument files p = .ok v) :
    ∃ format text, Format.ofPath? p = some format ∧ files.read p = .ok text ∧
      format.toJson? text = some v := by
  unfold readDocument at h
  split at h
  · cases h
  · next format hformat =>
    split at h
    · cases h
    · next text htext =>
      split at h
      · next hv =>
        cases h
        exact ⟨format, text, hformat, htext, hv⟩
      · cases h

/-- A model with nothing against it is a document whose JSON value the schema of device documents
accepts. -/
theorem Accepts.violations {compile : Compiler} {files : FileTree} {p : Path}
    (h : Accepts compile files p none) :
    ∃ format text v, Format.ofPath? p = some format ∧ files.read p = .ok text ∧
      format.toJson? text = some v ∧
      Schema.violations Schema.deviceDefinitions Schema.device v = [] := by
  obtain ⟨v, hread, haccepted⟩ := h
  obtain ⟨format, text, hformat, htext, hv⟩ := readDocument_ok hread
  have hnone : deviceErrors v = [] := Except.ok.inj haccepted
  exact ⟨format, text, v, hformat, htext, hv, List.map_eq_nil_iff.mp hnone⟩

/-- What the schema accepts and what is described are read from one tree. -/
theorem load_wellNamed {compile : Compiler} {files : FileTree} {p : Path} {doc : DeviceDocument}
    (hchecked : Accepts compile files p none)
    (hload : DeviceDocument.load files.source p = .ok doc) :
    ∀ es ∈ [doc.description.params, doc.description.commands],
      (∀ e ∈ es, Text.isIdentifier e.1 = true) ∧
      ((es.map Prod.fst).Nodup → ∀ e ∈ es, Description.WellNamed e.2) := by
  obtain ⟨format, text, v, hformat, htext, hv, haccepted⟩ := hchecked.violations
  obtain ⟨_, format', text', hformat', htext', hdescription⟩ := DeviceDocument.load_ok hload
  obtain rfl : format = format' := Option.some.inj (hformat.symm.trans hformat')
  obtain rfl : text = text' := Except.ok.inj (htext.symm.trans (except_mapError_ok.mp htext'))
  obtain ⟨t, ht, hv⟩ := Option.bind_eq_some_iff.mp hv
  obtain ⟨t', ht', hdescription⟩ := Option.bind_eq_some_iff.mp hdescription
  obtain rfl : t = t' := Option.some.inj (ht.symm.trans ht')
  exact Description.device_wellNamed (p := .top t) ⟨t.levels, gives_of_run' hv⟩ haccepted
    (gives_of_run' hdescription)

/-- A run checks its model against the schema of device documents: nothing asks for another schema,
or for none. -/
structure ChecksModel (files : FileTree) (args : GenerateArgs) : Prop where
  schema : args.schema = none
  skipSchema : args.skipSchema = false
  config : ∀ config, Config.load files args.config = .ok config → config.schema = none ∧
    config.skipSchema = false

/-- Without a word about it, the model is checked. -/
theorem ChecksModel.of_default {files : FileTree} (h : Config.load files none = .ok {})
    (model : Path) :
    ChecksModel files { model } := by
  refine ⟨rfl, rfl, ?_⟩
  intro config hload
  obtain rfl : {} = config := Except.ok.inj (h.symm.trans hload)
  exact ⟨rfl, rfl⟩

/-- The names in the code for a device: those in its text, for everything that it declares, and
which of them are no identifiers. -/
structure NamesTold (files : FileTree) (doc : DeviceDocument) (d : Device) (sourceName : String) :
    Prop where
  header : (Cpp.generate d sourceName).header = Cpp.render (Cpp.Marked.header d sourceName).spelled
  body : (Cpp.generate d sourceName).body =
    Cpp.render (Cpp.Marked.body d (sourceName ++ ".h") sourceName).spelled
  covers : Cpp.Covers d (Cpp.identifiers d sourceName)
  strays : ∀ name ∈ Cpp.identifiers d sourceName,
    Text.isIdentifier name = false ↔
      Cpp.Stray d (ForeignTo files.source doc.importRoot doc.description) name

/-- Nothing that a device is made of depends on its namespace. -/
theorem renamed_resolved {source : Source} {importRoot : Path} {description : Description.Device}
    {m : Device} {shared : List Constraint} {params commands : Forest}
    (h : Resolved source importRoot description m shared params commands) (asked : Option String) :
    Resolved source importRoot description (renamed m asked) shared params commands := { h with }

/-- The code that a run writes has names for what the device declares. Those that are no identifiers
are of language packs and menus with such oids, or made of oids that imported documents give. -/
theorem run_generate_names {line : List String} {files : FileTree} {compile : Compiler}
    {options : Options} {args : GenerateArgs}
    (hparse : parse? line = some (.run options (.generate args))) (hchecks : ChecksModel files args)
    (hexit : (run line files compile).exit = 0) :
    ∃ config doc m d paths, Prepares compile files args config m d ∧
      DeviceDocument.load files.source args.model = .ok doc ∧
      ((Cpp.generate d (sourceNameOf args d)).write (directoryOf args config)).run files =
        .ok paths (run line files compile).files ∧
      NamesTold files doc d (sourceNameOf args d) := by
  obtain ⟨config, m, d, paths, hprepares, hwritten⟩ := run_generate_ok hparse hexit
  obtain ⟨doc, hload, hm⟩ := Resolve.resolveFile_ok hprepares.resolved
  obtain ⟨hschema, hskip⟩ := hchecks.config config hprepares.configured
  have hchecked : Accepts compile files args.model none := by
    simpa [hchecks.schema, hschema] using hprepares.checked hchecks.skipSchema hskip
  obtain ⟨framed, shared, params, commands, hresolved⟩ := resolveDevice_framed hm
  have hns : Text.isIdentifier d.ns = true := by
    rw [hprepares.named, renamed]
    cases hasked : (args.ns <|> config.ns) with
    | none =>
      have hdoc : m.ns = doc.ns := congrArg Prod.fst framed.head
      simpa [hdoc] using (DeviceDocument.load_ok hload).1
    | some ns => exact hprepares.identifier ns hasked
  have hresolved' := renamed_resolved hresolved (args.ns <|> config.ns)
  rw [← hprepares.named] at hresolved'
  have hoids := hresolved'.native (load_wellNamed hchecked hload)
  refine ⟨config, doc, m, d, paths, hprepares, hload, hwritten, ?_⟩
  exact
    { header := by rw [Cpp.generate_spelled]
      body := by rw [Cpp.generate_spelled]
      covers := Cpp.identifiers_cover hresolved' _
      strays := fun name hname => Cpp.stray_iff hresolved' hns hoids hname }

/-- A model with a hyphen in the oid of a language pack and in that of a parameter that it
imports. -/
def hyphenated : FileTree :=
  .ofFiles [
    ("device.m.json",
      "\x7b\"params\": \x7b\"panel\": \x7b\"import\": \x7b\"file\": \"panel.json\"\x7d\x7d\x7d, " ++
      "\"language_packs\": \x7b\"packs\": \x7b\"en-US\": \x7b\"name\": \"English\"\x7d\x7d\x7d, " ++
      "\"menu_groups\": \x7b\"main\": \x7b\"menus\": " ++
        "\x7b\"status\": \x7b\"param_oids\": [\"panel\"]\x7d\x7d\x7d\x7d\x7d"),
    ("params/panel.json",
      "\x7b\"type\": \"STRUCT\", \"params\": \x7b\"x-y\": \x7b\"type\": \"INT32\"\x7d\x7d\x7d")]

theorem hyphenated_names :
    parse? ["generate", "device.m.json"] =
      some (.run {} (.generate { model := ⟨"device.m.json"⟩ })) ∧
      (run ["generate", "device.m.json"] hyphenated).exit = 0 ∧
      ∃ doc d, NamesTold hyphenated doc d "device.m.json" ∧
        (Cpp.identifiers d "device.m.json").filter (fun name => !Text.isIdentifier name) =
          ["x-y", "x-y", "_en-USLanguagePack"] := by
  have hparse : parse? ["generate", "device.m.json"] =
      some (.run {} (.generate { model := ⟨"device.m.json"⟩ })) := by
    decide +kernel
  have hexit : (run ["generate", "device.m.json"] hyphenated).exit = 0 := by decide +kernel
  have hconfig : Config.load hyphenated none = .ok {} := by decide +kernel
  have hodd :
      ((Resolve.resolveFile ⟨"device.m.json"⟩ hyphenated.source).result.toOption.map fun d =>
        (Cpp.identifiers d "device.m.json").filter fun name => !Text.isIdentifier name) =
      some ["x-y", "x-y", "_en-USLanguagePack"] := by decide +kernel
  obtain ⟨config, doc, m, d, _, hprepares, _, _, hnames⟩ :=
    run_generate_names hparse (.of_default hconfig _) hexit
  obtain rfl : {} = config := Except.ok.inj (hconfig.symm.trans hprepares.configured)
  obtain rfl : d = m := hprepares.named
  rw [hprepares.resolved] at hodd
  exact ⟨hparse, hexit, doc, d, hnames, Option.some.inj hodd⟩

/-- A model with nothing but a language pack. -/
def spoken : FileTree :=
  .ofFiles [
    ("device.m.json",
      "\x7b\"language_packs\": \x7b\"packs\": " ++
        "\x7b\"en-US\": \x7b\"name\": \"English\"\x7d\x7d\x7d\x7d")]

/-- The schema accepts it, and the variable of the pack in the code that is written has no
identifier for a name. -/
theorem spoken_not_identifier :
    parse? ["generate", "device.m.json"] =
      some (.run {} (.generate { model := ⟨"device.m.json"⟩ })) ∧
      ChecksModel spoken { model := ⟨"device.m.json"⟩ } ∧
        (run ["generate", "device.m.json"] spoken).exit = 0 ∧
      ∃ d, (Resolve.resolveFile ⟨"device.m.json"⟩ spoken.source).result = .ok d ∧
        (run ["generate", "device.m.json"] spoken).files.read ⟨"device.m.json.cpp"⟩ =
          .ok (Cpp.generate d "device.m.json").body ∧
        "_en-USLanguagePack" ∈ Cpp.identifiers d "device.m.json" ∧
          Text.isIdentifier "_en-USLanguagePack" = false := by
  have hok : ((Resolve.resolveFile ⟨"device.m.json"⟩ spoken.source).result.toOption.map fun d =>
      (decide ((run ["generate", "device.m.json"] spoken).files.read ⟨"device.m.json.cpp"⟩ =
        .ok (Cpp.generate d "device.m.json").body),
          decide ("_en-USLanguagePack" ∈ Cpp.identifiers d "device.m.json"))) =
          some (true, true) := by decide +kernel
  have hconfig : Config.load spoken none = .ok {} := by decide +kernel
  obtain ⟨d, hd, h⟩ := ok_of_toOption hok
  obtain ⟨hwritten, hname⟩ := Prod.mk.inj h
  refine ⟨by decide +kernel, .of_default hconfig _, by decide +kernel, d, hd, ?_⟩
  exact ⟨of_decide_eq_true hwritten, of_decide_eq_true hname, by decide⟩

end CommandLine

end DeviceModel
