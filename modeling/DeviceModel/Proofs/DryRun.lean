import DeviceModel.Proofs.FailedRuns

namespace DeviceModel.CommandLine

/-- Code is asked for in the usual language, with nothing to change what is done with the model: no
configuration, no other namespace, and the schema is not skipped. -/
structure Unconfigured (files : FileTree) (args : GenerateArgs) : Prop where
  config : args.config = none
  absent : files.isFile Config.defaultPath = false
  language : Language.ofText (args.language.getD "cpp") = .ok .cpp
  ns : args.ns = none
  skipSchema : args.skipSchema = false

variable {compile : Compiler} {files : FileTree} {options options' : Options} {args : GenerateArgs}

theorem loadConfig_absent (h : files.isFile Config.defaultPath = false) :
    (loadConfig none).run { files } = .ok (.ok {}) { files } := by
  simp [loadConfig, h, Config.load, Config.pathIn]

/-- The code of a device that was examined. -/
def emit (args : GenerateArgs) (d : Device) : Action (Cpp.Generated × Path) := do
  note (Cpp.generating d)
  return (Cpp.generate d (sourceNameOf args d), directoryOf args {})

/-- Up to the code, generating is examining. -/
theorem prepare_unconfigured (h : Unconfigured files args) :
    (prepare compile options args).run { files } =
      (examine compile options args.model args.schema >>= emit args).run { files } := by
  have hor : ∀ {α : Type} (a : Option α), (a <|> none) = a := by
    intro α a
    cases a <;> rfl
  have hlanguage : Language.ofText ((args.language <|> none).getD "cpp") = .ok .cpp := by
    rw [hor, h.language]
  have hschema : (args.schema <|> Option.map Path.mk none) = args.schema := hor _
  have hbuild : build options args {} = resolveOrHalt options args.model >>= emit args := by
    rw [build, h.ns]
    exact bind_congr fun m => pure_bind m _
  unfold prepare
  rw [EStateM.run_bind, h.config, loadConfig_absent h.absent]
  simp only [pure_bind, hlanguage]
  rw [h.skipSchema, if_neg (by simp), hschema, examine, bind_assoc, ← hbuild]
  rfl

theorem approve_ok (options : Options) (model : Path) (d : Device) (w : World) :
    ∃ printed said, (approve options model d).run w = .ok printed { w with said } := ⟨_, _, rfl⟩

theorem examine_ok {model : Path} {schema : Option Path} {d : Device} {w w' : World}
    (h : (examine compile options model schema).run w = .ok d w') :
    (Resolve.resolveFile model w.files.source).result = .ok d ∧ w'.files = w.files := by
  rw [examine, Resolve.bind_ok] at h
  obtain ⟨_, w₁, hcheck, hresolve⟩ := h
  obtain ⟨-, hfiles⟩ := checkSchema_ok hcheck
  obtain ⟨hresult, hfiles'⟩ := resolveOrHalt_ok hresolve
  rw [hfiles] at hresult hfiles'
  exact ⟨hresult, hfiles'⟩

theorem inspect_of_result {model : Path} {d : Device} {w : World}
    (h : (Resolve.resolveFile model w.files.source).result = .ok d) :
    ∃ printed w', (inspect options model).run w = .ok printed w' := by
  have hresolve : ∃ w', (resolveOrHalt options model).run w = .ok d w' := by
    unfold resolveOrHalt resolveFile
    simp only [bind_assoc, pure_bind]
    rw [get_bind, h]
    exact ⟨_, rfl⟩
  obtain ⟨w', hresolve⟩ := hresolve
  refine ⟨[d.summary.pretty], w', ?_⟩
  exact Resolve.bind_ok.mpr ⟨d, w', hresolve, Resolve.pure_ok.mpr ⟨rfl, rfl⟩⟩

/-- What writing comes to after code was prepared. -/
theorem generate_files {code : Cpp.Generated} {out : Path} {w : World}
    (h : (prepare compile options args).run { files } = .ok (code, out) w)
    (hfiles : w.files = files) :
    (endState ((generate compile options args).run { files })).files =
      endState ((code.write out).run files) := by
  unfold generate
  rw [EStateM.run_bind, h]
  dsimp only
  rw [EStateM.run_bind, write_run, hfiles]
  cases (code.write out).run files <;> rfl

/-- The two ways to check a model come to the same. A model that is refused is refused by both,
before anything is written and in the same words; of any other the code is written, as far as that
goes, and it can be inspected. -/
structure Agree (compile : Compiler) (options : Options) (files : FileTree) (args : GenerateArgs)
    (validated generated inspected : Outcome) : Prop where
  exits : validated.exit = 0 ∨ validated.exit = 1
  refused : validated.exit = 1 ↔
    ∃ failure w, (prepare compile options args).run { files } = .error failure w
  alike : validated.exit = 1 →
    generated.exit = 1 ∧ generated.stderr = validated.stderr ∧ generated.files = files
  emitted : validated.exit = 0 →
    ∃ d w, (Resolve.resolveFile args.model files.source).result = .ok d ∧
      (prepare compile options args).run { files } =
        .ok (Cpp.generate d (sourceNameOf args d), directoryOf args {}) w ∧
      generated.files =
        endState (((Cpp.generate d (sourceNameOf args d)).write (directoryOf args {})).run files)
  inspected : validated.exit = 0 → inspected.exit = 0

theorem runRequest_ok {command : Command} {printed : List String} {w : World}
    (h : (perform compile options command).run { files } = .ok printed w) :
    runRequest compile files (.run options command) =
      ⟨0, lines printed, lines (w.said.filterMap (shown? options)), w.files⟩ := by
  rw [runRequest, h]

theorem runRequest_error {command : Command} {w : World}
    (h : (perform compile options command).run { files } = .error .failed w) :
    runRequest compile files (.run options command) =
      ⟨1, "", lines (w.said.filterMap (shown? options)), w.files⟩ := by
  rw [runRequest, h]

theorem runRequest_files (compile : Compiler) (files : FileTree) (options : Options)
    (command : Command) : (runRequest compile files (.run options command)).files =
      (endState ((perform compile options command).run { files })).files := by
  rw [runRequest]
  cases (perform compile options command).run { files } <;> rfl

theorem requests_agree (h : Unconfigured files args) :
    Agree compile options files args
      (runRequest compile files (.run options (.validate args.model args.schema)))
      (runRequest compile files (.run options (.generate args)))
      (runRequest compile files (.run options' (.inspect args.model))) := by
  have hvalidate := validate_eq compile options args.model args.schema
  have hprepare : (prepare compile options args).run { files } =
      (examine compile options args.model args.schema >>= emit args).run { files } :=
    prepare_unconfigured h
  cases hexamine : (examine compile options args.model args.schema).run { files } with
  | error failure w =>
    cases failure
    have hvalidated : (perform compile options (.validate args.model args.schema)).run { files } =
        .error .failed w := by
      rw [perform, hvalidate, EStateM.run_bind, hexamine]
    rw [EStateM.run_bind, hexamine] at hprepare
    have hgenerated : (perform compile options (.generate args)).run { files } =
        .error .failed w := by
      rw [perform, generate, EStateM.run_bind, hprepare]
    have hfiles : w.files = files :=
      (examine_keepsFiles compile args.model args.schema).of_error hexamine
    rw [runRequest_error hvalidated, runRequest_error hgenerated]
    exact
      { exits := .inr rfl
        refused := ⟨fun _ => ⟨.failed, w, hprepare⟩, fun _ => rfl⟩
        alike := fun _ => ⟨rfl, rfl, hfiles⟩
        emitted := fun hexit => absurd hexit Nat.one_ne_zero
        inspected := fun hexit => absurd hexit Nat.one_ne_zero }
  | ok d w =>
    obtain ⟨printed, said, happroved⟩ := approve_ok options args.model d w
    have hvalidated : (perform compile options (.validate args.model args.schema)).run { files } =
        .ok printed { w with said } := by
      rw [perform, hvalidate, EStateM.run_bind, hexamine]
      exact happroved
    obtain ⟨hresult, hfiles⟩ := examine_ok hexamine
    have hinspected : ∃ summary w',
        (perform compile options' (.inspect args.model)).run { files } = .ok summary w' :=
      inspect_of_result hresult
    obtain ⟨summary, w', hinspected⟩ := hinspected
    rw [EStateM.run_bind, hexamine] at hprepare
    rw [runRequest_ok hvalidated, runRequest_ok hinspected]
    exact
      { exits := .inl rfl
        refused := by
          refine ⟨fun hexit => absurd hexit Nat.zero_ne_one, ?_⟩
          rintro ⟨failure, w', hfails⟩
          cases hprepare.symm.trans hfails
        alike := fun hexit => absurd hexit Nat.zero_ne_one
        emitted := by
          intro _
          refine ⟨d, _, hresult, hprepare, ?_⟩
          rw [runRequest_files]
          exact generate_files hprepare hfiles
        inspected := fun _ => rfl }

theorem run_of_parse {line : List String} {request : Request} (h : parse? line = some request)
    (files : FileTree) : run line files compile = runRequest compile files request := by
  rw [run, h]

/-- Whatever lines ask for it, and however a schema that is given is read: validating a model and
generating its code agree on it. -/
theorem validate_generate_agree {validateLine generateLine inspectLine : List String}
    (hvalidate : parse? validateLine = some (.run options (.validate args.model args.schema)))
    (hgenerate : parse? generateLine = some (.run options (.generate args)))
    (hinspect : parse? inspectLine = some (.run options' (.inspect args.model)))
    (h : Unconfigured files args) :
    Agree compile options files args (run validateLine files compile)
      (run generateLine files compile) (run inspectLine files compile) := by
  rw [run_of_parse hvalidate, run_of_parse hgenerate, run_of_parse hinspect]
  exact requests_agree h

/-- A model that the schema accepts, but whose parameter has a template that is not there. -/
def lostTemplate : FileTree :=
  .ofFiles [("device.m.json",
    "\x7b\"params\": \x7b\"b\": \x7b\"type\": \"STRUCT\", \"template_oid\": \"/a\"\x7d\x7d\x7d")]

theorem lostTemplate_agree :
    (run ["validate", "device.m.json", "--output", "json"] lostTemplate).exit = 1 ∧
      (run ["validate", "device.m.json", "--output", "json"] lostTemplate).stderr ≠ "" ∧
      Agree Schema.compile { output := .json } lostTemplate
        { model := ⟨"device.m.json"⟩, out := some ⟨"code"⟩ }
        (run ["validate", "device.m.json", "--output", "json"] lostTemplate)
        (run ["--output=json", "generate", "--out", "code", "device.m.json"] lostTemplate)
        (run ["inspect", "--quiet", "--", "device.m.json"] lostTemplate) := by
  have hvalidate : parse? ["validate", "device.m.json", "--output", "json"] =
      some (.run { output := .json } (.validate ⟨"device.m.json"⟩ none)) := by decide +kernel
  have hgenerate : parse? ["--output=json", "generate", "--out", "code", "device.m.json"] =
      some (.run { output := .json }
          (.generate { model := ⟨"device.m.json"⟩, out := some ⟨"code"⟩ })) := by
    decide +kernel
  have hinspect : parse? ["inspect", "--quiet", "--", "device.m.json"] =
      some (.run { quiet := true } (.inspect ⟨"device.m.json"⟩)) := by decide +kernel
  refine ⟨by decide +kernel, by decide +kernel,
    validate_generate_agree hvalidate hgenerate hinspect ?_⟩
  exact
    { config := rfl
      absent := by decide +kernel
      language := rfl
      ns := rfl
      skipSchema := rfl }

end DeviceModel.CommandLine
