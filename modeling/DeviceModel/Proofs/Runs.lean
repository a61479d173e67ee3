import DeviceModel.CommandLine.Run
import DeviceModel.Proofs.Steps

namespace DeviceModel.CommandLine

open Resolve (bind_ok except_bind_ok pure_ok get_ok modify_ok)

section Steps

variable {α : Type} {compile : Compiler} {options : Options} {w w' : World} {u : Unit}

theorem get_bind {f : World → Action α} : (get >>= f).run w = (f w).run w := rfl

/-- Nothing follows on a failure. -/
theorem halt_bind {β : Type} {f : α → Action β} : halt >>= f = halt := rfl

theorem fail_bind {β : Type} {message : String} {f : α → Action β} :
    fail options message >>= f = fail options message := by
  rw [fail, bind_assoc, halt_bind, fail]

theorem fail_ok {message : String} {a : α} : ¬ (fail options message).run w = .ok a w' := by
  rw [fail, bind_ok]
  rintro ⟨_, _, _, h⟩
  cases h

theorem say_ok {remarks : List Remark} (h : (say remarks).run w = .ok u w') :
    w' = { w with said := w.said ++ remarks } := (modify_ok.mp h).symm

theorem note_files {r : Log.Record} (h : (note r).run w = .ok u w') : w'.files = w.files := by
  rw [say_ok h]

/-- The schema has nothing against a document: the one that is given, or else the one for
devices. -/
def Accepts (compile : Compiler) (files : FileTree) (p : Path) (schema : Option Path) : Prop :=
  ∃ v, readDocument files p = .ok v ∧ validateDocument compile files v schema = .ok []

theorem checkSchema_ok {p : Path} {schema : Option Path}
    (h : (checkSchema compile options p schema).run w = .ok u w') :
    Accepts compile w.files p schema ∧ w'.files = w.files := by
  simp only [checkSchema, bind_ok, get_ok] at h
  obtain ⟨_, _, ⟨rfl, rfl⟩, h⟩ := h
  split at h
  · next haccepted =>
    obtain ⟨_, rfl⟩ := pure_ok.mp h
    exact ⟨except_bind_ok.mp haccepted, rfl⟩
  · obtain ⟨_, _, _, h⟩ := bind_ok.mp h
    cases h
  · exact (fail_ok h).elim

theorem resolveFile_run {p : Path} {outcome : Except ResolveError Device}
    (h : (resolveFile p).run w = .ok outcome w') :
    (Resolve.resolveFile p w.files.source).result = outcome ∧ w'.files = w.files := by
  simp only [resolveFile, bind_ok, get_ok, pure_ok] at h
  obtain ⟨_, _, ⟨rfl, rfl⟩, _, _, hsay, houtcome, rfl⟩ := h
  rw [say_ok hsay]
  exact ⟨houtcome, rfl⟩

theorem resolveOrHalt_ok {p : Path} {d : Device} (h : (resolveOrHalt options p).run w = .ok d w') :
    (Resolve.resolveFile p w.files.source).result = .ok d ∧ w'.files = w.files := by
  rw [resolveOrHalt, bind_ok] at h
  obtain ⟨outcome, w₁, hresolve, h⟩ := h
  obtain ⟨hresult, hfiles⟩ := resolveFile_run hresolve
  cases outcome with
  | ok d' =>
    obtain ⟨rfl, rfl⟩ := pure_ok.mp h
    exact ⟨hresult, hfiles⟩
  | error e =>
    obtain ⟨_, _, _, h⟩ := bind_ok.mp h
    cases h

theorem loadConfig_ok {explicit : Option Path} {outcome : Except ConfigError Config}
    (h : (loadConfig explicit).run w = .ok outcome w') :
    Config.load w.files explicit = outcome ∧ w'.files = w.files := by
  simp only [loadConfig, bind_ok, get_ok] at h
  obtain ⟨_, _, ⟨rfl, rfl⟩, h⟩ := h
  split at h
  · obtain ⟨_, _, hnote, h⟩ := bind_ok.mp h
    obtain ⟨hload, rfl⟩ := pure_ok.mp h
    exact ⟨hload, note_files hnote⟩
  · obtain ⟨hload, rfl⟩ := pure_ok.mp h
    exact ⟨hload, rfl⟩

/-- The device under another namespace, if one is asked for. -/
def renamed (d : Device) (asked : Option String) : Device := { d with ns := asked.getD d.ns }

theorem overrideNamespace_ok {d d' : Device} {asked : Option String}
    (h : (overrideNamespace options d asked).run w = .ok d' w') :
    d' = renamed d asked ∧ (∀ ns ∈ asked, Text.isIdentifier ns = true) ∧ w'.files = w.files := by
  cases asked with
  | none =>
    obtain ⟨rfl, rfl⟩ := pure_ok.mp h
    exact ⟨rfl, by simp, rfl⟩
  | some ns =>
    simp only [overrideNamespace] at h
    split at h
    · next hns =>
      simp only [bind_ok, pure_ok] at h
      obtain ⟨_, _, hnote, rfl, rfl⟩ := h
      exact ⟨rfl, by simpa using hns, note_files hnote⟩
    · obtain ⟨_, _, h, _⟩ := bind_ok.mp h
      exact (fail_ok h).elim

end Steps

section Validate

variable (compile : Compiler) (options : Options) (model : Path) (schema : Option Path)

/-- What a model is put through on the way to its code: it is held against a schema, then
resolved. -/
def examine : Action Device := do
  checkSchema compile options model schema
  resolveOrHalt options model

theorem resolveOrHalt_bind {α : Type} (f : Device → Action α) :
    (do
      match ← resolveFile model with
      | .ok d => f d
      | .error e =>
        reportResolveError options e
        halt) = resolveOrHalt options model >>= f := by
  rw [resolveOrHalt, bind_assoc]
  refine bind_congr fun outcome => ?_
  cases outcome with
  | ok d => exact (pure_bind d f).symm
  | error e => rw [bind_assoc, halt_bind]

/-- Validation goes through a model by steps of its own, and refuses it at each of them as on the
way to its code. -/
theorem validate_eq : validate compile options model schema =
    examine compile options model schema >>= approve options model := by
  have hrun : ∀ w, (validate compile options model schema).run w =
      (examine compile options model schema >>= approve options model).run w := by
    intro w
    rw [examine, bind_assoc, ← resolveOrHalt_bind, checkSchema, bind_assoc, validate, get_bind,
      get_bind]
    simp only [pure_bind, fail_bind, halt_bind]
    cases readDocument w.files model with
    | error e => exact congrArg (EStateM.run · w) fail_bind.symm
    | ok v =>
      have hread : (.ok v >>= (validateDocument compile w.files · schema)) =
          validateDocument compile w.files v schema := rfl
      dsimp only
      rw [get_bind, hread]
      cases validateDocument compile w.files v schema with
      | error e => exact congrArg (EStateM.run · w) fail_bind.symm
      | ok errors =>
        cases errors with
        | nil => rfl
        | cons error errors => rfl
  exact funext hrun

end Validate

section Generate

/-- What the code says it was generated from. -/
def sourceNameOf (args : GenerateArgs) (d : Device) : String :=
  args.model.fileName?.getD ("device." ++ d.ns ++ ".json")

/-- The directory that code goes to. -/
def directoryOf (args : GenerateArgs) (config : Config) : Path :=
  (args.out <|> config.out.map Path.mk).getD ⟨"."⟩

/-- How a run comes to a device to generate code for: `m` is what the model describes, and `d` has
the namespace that is asked for. -/
structure Prepares (compile : Compiler) (files : FileTree) (args : GenerateArgs) (config : Config)
    (m d : Device) : Prop where
  configured : Config.load files args.config = .ok config
  checked : args.skipSchema = false → config.skipSchema = false →
    Accepts compile files args.model (args.schema <|> config.schema.map Path.mk)
  resolved : (Resolve.resolveFile args.model files.source).result = .ok m
  named : d = renamed m (args.ns <|> config.ns)
  identifier : ∀ ns ∈ (args.ns <|> config.ns), Text.isIdentifier ns = true

variable {compile : Compiler} {options : Options} {w w' : World} {args : GenerateArgs}

/-- What follows on the check of a model, whether it was made or skipped. -/
def build (options : Options) (args : GenerateArgs) (config : Config) :
    Action (Cpp.Generated × Path) := do
  let d ← overrideNamespace options (← resolveOrHalt options args.model) (args.ns <|> config.ns)
  note (Cpp.generating d)
  return (Cpp.generate d (sourceNameOf args d), directoryOf args config)

theorem build_ok {config : Config} {code : Cpp.Generated} {out : Path}
    (h : (build options args config).run w = .ok (code, out) w') :
    ∃ m d, (Resolve.resolveFile args.model w.files.source).result = .ok m ∧
      d = renamed m (args.ns <|> config.ns) ∧
      (∀ ns ∈ (args.ns <|> config.ns), Text.isIdentifier ns = true) ∧
      code = Cpp.generate d (sourceNameOf args d) ∧ out = directoryOf args config ∧
      w'.files = w.files := by
  simp only [build, bind_ok, pure_ok] at h
  obtain ⟨m, w₁, hresolve, d, w₂, hoverride, _, w₃, hnote, hcode, rfl⟩ := h
  obtain ⟨hresult, hfiles₁⟩ := resolveOrHalt_ok hresolve
  obtain ⟨hnamed, hidentifier, hfiles₂⟩ := overrideNamespace_ok hoverride
  obtain ⟨rfl, rfl⟩ := Prod.mk.inj hcode
  have hfiles₃ := note_files hnote
  exact ⟨m, d, hresult, hnamed, hidentifier, rfl, rfl, hfiles₃.trans (hfiles₂.trans hfiles₁)⟩

theorem prepare_ok {code : Cpp.Generated} {out : Path}
    (h : (prepare compile options args).run w = .ok (code, out) w') :
    ∃ config m d, Prepares compile w.files args config m d ∧
      code = Cpp.generate d (sourceNameOf args d) ∧ out = directoryOf args config ∧
      w'.files = w.files := by
  rw [prepare, bind_ok] at h
  obtain ⟨outcome, w₁, hconfig, h⟩ := h
  obtain ⟨hconfig, hfiles₁⟩ := loadConfig_ok hconfig
  cases outcome with
  | error e =>
    simp only [fail_bind] at h
    exact (fail_ok h).elim
  | ok config =>
    simp only [pure_bind] at h
    split at h
    · split at h
      · next hskip =>
        obtain ⟨_, w₂, hnote, h⟩ := bind_ok.mp h
        obtain ⟨m, d, hresult, hnamed, hidentifier, hcode, hout, hfiles⟩ := build_ok h
        have hfiles₂ : w₂.files = w.files := (note_files hnote).trans hfiles₁
        rw [hfiles₂] at hresult hfiles
        refine ⟨config, m, d, ⟨hconfig, ?_, hresult, hnamed, hidentifier⟩, hcode, hout, hfiles⟩
        intro hargs hconfig
        simp [hargs, hconfig] at hskip
      · obtain ⟨_, w₂, hcheck, h⟩ := bind_ok.mp h
        obtain ⟨m, d, hresult, hnamed, hidentifier, hcode, hout, hfiles⟩ := build_ok h
        obtain ⟨haccepts, hfiles₂⟩ := checkSchema_ok hcheck
        rw [hfiles₁] at haccepts hfiles₂
        rw [hfiles₂] at hresult hfiles
        exact ⟨config, m, d, ⟨hconfig, fun _ _ => haccepts, hresult, hnamed, hidentifier⟩, hcode,
          hout, hfiles⟩
    · rw [fail_bind] at h
      exact (fail_ok h).elim

theorem write_ok {code : Cpp.Generated} {out : Path} {paths : Path × Path}
    (h : (write options code out).run w = .ok paths w') :
    (code.write out).run w.files = .ok paths w'.files := by
  simp only [write, bind_ok, get_ok] at h
  obtain ⟨_, _, ⟨rfl, rfl⟩, h⟩ := h
  split at h
  · next written files hwrite =>
    simp only [bind_ok, modify_ok, pure_ok] at h
    obtain ⟨_, _, rfl, _, _, hnote, rfl, rfl⟩ := h
    rw [note_files hnote]
    exact hwrite
  · obtain ⟨_, _, _, h⟩ := bind_ok.mp h
    exact (fail_ok h).elim

/-- A run that generates code and succeeds writes the code of one device, and changes nothing
else. -/
theorem run_generate_ok {line : List String} {files : FileTree}
    (hparse : parse? line = some (.run options (.generate args)))
    (hexit : (run line files compile).exit = 0) :
    ∃ config m d paths, Prepares compile files args config m d ∧
      ((Cpp.generate d (sourceNameOf args d)).write (directoryOf args config)).run files =
        .ok paths (run line files compile).files := by
  have hrun : run line files compile =
      runRequest compile files (.run options (.generate args)) := by
    simp only [run, hparse]
  rw [hrun] at hexit ⊢
  simp only [runRequest, perform] at hexit ⊢
  cases hresult : (generate compile options args).run { files } with
  | error failure w => simp [hresult] at hexit
  | ok printed w =>
    simp only [generate, bind_ok] at hresult
    obtain ⟨⟨code, out⟩, w₁, hprepare, paths, w₂, hwrite, hprinted⟩ := hresult
    obtain ⟨config, m, d, hprepares, rfl, rfl, hfiles⟩ := prepare_ok hprepare
    obtain ⟨_, rfl⟩ := pure_ok.mp hprinted
    have hwritten := write_ok hwrite
    rw [hfiles] at hwritten
    exact ⟨config, m, d, paths, hprepares, hwritten⟩

end Generate

end DeviceModel.CommandLine
