import DeviceModel.Proofs.Runs
import DeviceModel.Proofs.Siblings

namespace DeviceModel

open FileTree (SameFiles makeDirectories)

namespace Cpp

/-- How the writing of code ends, with the tree that it leaves. -/
inductive WriteEnds (g : Generated) (dir : Path) (t : FileTree) :
    EStateM.Result GenerateError FileTree (Path × Path) → Prop where
  | directory {e : SystemError} {t₁ : FileTree}
      (refused : (makeDirectories (dir.components.length + 2) dir).run t = .error e t₁) :
      WriteEnds g dir t (.error (.unwritable dir e) t₁)
  | header {e : SystemError} {t₁ : FileTree}
      (made : (makeDirectories (dir.components.length + 2) dir).run t = .ok () t₁)
      (refused : t₁.write (dir.join g.headerName) g.header = .error e) :
      WriteEnds g dir t (.error (.unwritable (dir.join g.headerName) e) t₁)
  | body {e : SystemError} {t₁ t₂ : FileTree}
      (made : (makeDirectories (dir.components.length + 2) dir).run t = .ok () t₁)
      (header : t₁.write (dir.join g.headerName) g.header = .ok t₂)
      (refused : t₂.write (dir.join g.bodyName) g.body = .error e) :
      WriteEnds g dir t (.error (.unwritable (dir.join g.bodyName) e) t₂)
  | both {t₁ t₂ t₃ : FileTree}
      (made : (makeDirectories (dir.components.length + 2) dir).run t = .ok () t₁)
      (header : t₁.write (dir.join g.headerName) g.header = .ok t₂)
      (body : t₂.write (dir.join g.bodyName) g.body = .ok t₃) :
      WriteEnds g dir t (.ok (dir.join g.headerName, dir.join g.bodyName) t₃)

theorem writeFile_run (path : Path) (text : String) (t : FileTree) :
    (writeFile path text).run t = match t.write path text with
      | .ok t' => .ok () t'
      | .error e => .error (.unwritable path e) t := by
  unfold writeFile
  simp only [EStateM.run_bind, EStateM.run_get]
  cases t.write path text <;> rfl

theorem write_ends (g : Generated) (dir : Path) (t : FileTree) :
    WriteEnds g dir t ((g.write dir).run t) := by
  unfold Generated.write
  simp only [EStateM.run_bind, EStateM.run_get]
  cases hmade : (makeDirectories (dir.components.length + 2) dir).run t with
  | error e t₁ => exact .directory hmade
  | ok _ t₁ =>
    simp only [EStateM.run_set, EStateM.run_bind, writeFile_run]
    cases hheader : t₁.write (dir.join g.headerName) g.header with
    | error e => exact .header hmade hheader
    | ok t₂ =>
      dsimp only
      cases hbody : t₂.write (dir.join g.bodyName) g.body with
      | error e => exact .body hmade hheader hbody
      | ok t₃ => exact .both hmade hheader hbody

end Cpp

namespace CommandLine

section Steps

variable {α β : Type} {options : Options}

/-- A step that leaves all files as they are, well or not. -/
def KeepsFiles (x : Action α) : Prop := ∀ w, Relates (fun w w' : World => w'.files = w.files) w x

theorem KeepsFiles.bind {x : Action α} {f : α → Action β} (hx : KeepsFiles x)
    (hf : ∀ a, KeepsFiles (f a)) : KeepsFiles (x >>= f) :=
  fun w => Relates.bind (fun _ _ _ h h' => h'.trans h) (hx w) fun a t _ => hf a t

theorem KeepsFiles.of_error {x : Action α} {failure : Halt} {w w' : World} (hx : KeepsFiles x)
    (h : x.run w = .error failure w') : w'.files = w.files := by
  have hkeeps := hx w
  rwa [Relates, h] at hkeeps

theorem pure_keepsFiles (a : α) : KeepsFiles (pure a) := fun _ => rfl

theorem get_keepsFiles : KeepsFiles get := fun _ => rfl

theorem halt_keepsFiles : KeepsFiles (halt : Action α) := fun _ => rfl

theorem say_keepsFiles (remarks : List Remark) : KeepsFiles (say remarks) := fun _ => rfl

theorem note_keepsFiles (r : Log.Record) : KeepsFiles (note r) := say_keepsFiles _

theorem fail_keepsFiles (message : String) : KeepsFiles (fail options message : Action α) :=
  (say_keepsFiles _).bind fun _ => halt_keepsFiles

theorem checkSchema_keepsFiles (compile : Compiler) (p : Path) (schema : Option Path) :
    KeepsFiles (checkSchema compile options p schema) := by
  refine get_keepsFiles.bind fun w => ?_
  dsimp only
  split
  · exact pure_keepsFiles ()
  · exact (say_keepsFiles _).bind fun _ => halt_keepsFiles
  · exact fail_keepsFiles _

theorem resolveFile_keepsFiles (p : Path) : KeepsFiles (resolveFile p) :=
  get_keepsFiles.bind fun _ => (say_keepsFiles _).bind fun _ => pure_keepsFiles _

theorem resolveOrHalt_keepsFiles (p : Path) : KeepsFiles (resolveOrHalt options p) := by
  refine (resolveFile_keepsFiles p).bind fun outcome => ?_
  cases outcome with
  | ok d => exact pure_keepsFiles d
  | error e => exact (say_keepsFiles _).bind fun _ => halt_keepsFiles

theorem loadConfig_keepsFiles (explicit : Option Path) : KeepsFiles (loadConfig explicit) := by
  refine get_keepsFiles.bind fun w => ?_
  dsimp only
  split
  · exact (note_keepsFiles _).bind fun _ => pure_keepsFiles _
  · exact pure_keepsFiles _

theorem overrideNamespace_keepsFiles (d : Device) (asked : Option String) :
    KeepsFiles (overrideNamespace options d asked) := by
  cases asked with
  | none => exact pure_keepsFiles d
  | some ns =>
    unfold overrideNamespace
    dsimp only
    split
    · exact (note_keepsFiles _).bind fun _ => pure_keepsFiles _
    · rw [fail_bind]
      exact fail_keepsFiles _

theorem build_keepsFiles (args : GenerateArgs) (config : Config) :
    KeepsFiles (build options args config) :=
  (resolveOrHalt_keepsFiles _).bind fun m => (overrideNamespace_keepsFiles m _).bind fun _ =>
    (note_keepsFiles _).bind fun _ => pure_keepsFiles _

theorem prepare_keepsFiles (compile : Compiler) (args : GenerateArgs) :
    KeepsFiles (prepare compile options args) := by
  refine (loadConfig_keepsFiles _).bind fun outcome => ?_
  cases outcome with
  | error e =>
    simp only [fail_bind]
    exact fail_keepsFiles _
  | ok config =>
    simp only [pure_bind]
    split
    · split
      · exact (note_keepsFiles _).bind fun _ => build_keepsFiles args config
      · exact (checkSchema_keepsFiles _ _ _).bind fun _ => build_keepsFiles args config
    · rw [fail_bind]
      exact fail_keepsFiles _

theorem examine_keepsFiles (compile : Compiler) (model : Path) (schema : Option Path) :
    KeepsFiles (examine compile options model schema) :=
  (checkSchema_keepsFiles _ _ _).bind fun _ => resolveOrHalt_keepsFiles _

theorem approve_keepsFiles (model : Path) (d : Device) : KeepsFiles (approve options model d) :=
  (note_keepsFiles _).bind fun _ => pure_keepsFiles _

theorem validate_keepsFiles (compile : Compiler) (options : Options) (model : Path)
    (schema : Option Path) : KeepsFiles (validate compile options model schema) := by
  rw [validate_eq]
  exact (examine_keepsFiles compile model schema).bind fun d => approve_keepsFiles model d

theorem inspect_keepsFiles (model : Path) : KeepsFiles (inspect options model) :=
  (resolveOrHalt_keepsFiles _).bind fun _ => pure_keepsFiles _

end Steps

section Generate

variable {line : List String} {files : FileTree} {compile : Compiler} {options : Options}
  {args : GenerateArgs}

theorem write_run (options : Options) (code : Cpp.Generated) (out : Path) (w : World) :
    (write options code out).run w = match (code.write out).run w.files with
      | .ok paths files =>
        .ok paths { files, said := w.said ++ [.log (Cpp.wrote paths.1 paths.2)] }
      | .error e files => (fail options e.message).run { w with files } := by
  unfold write
  simp only [EStateM.run_bind, EStateM.run_get]
  cases (code.write out).run w.files <;> rfl

/-- A run that fails to generate code fails before any code is written, or while it is written. -/
theorem generate_error {failure : Halt} {w : World}
    (h : (generate compile options args).run { files } = .error failure w) :
    w.files = files ∨ ∃ config m d e, Prepares compile files args config m d ∧
      ((Cpp.generate d (sourceNameOf args d)).write (directoryOf args config)).run files =
        .error e w.files := by
  unfold generate at h
  simp only [EStateM.run_bind, write_run] at h
  cases hprepare : (prepare compile options args).run { files } with
  | error failure' w' =>
    rw [hprepare] at h
    cases h
    exact .inl ((prepare_keepsFiles compile args).of_error hprepare)
  | ok prepared w' =>
    rw [hprepare] at h
    obtain ⟨code, out⟩ := prepared
    obtain ⟨config, m, d, hprepares, rfl, rfl, hfiles⟩ := prepare_ok hprepare
    dsimp only at h
    rw [hfiles] at h
    cases hwrite :
        ((Cpp.generate d (sourceNameOf args d)).write (directoryOf args config)).run files with
    | ok paths t =>
      rw [hwrite] at h
      cases h
    | error e t =>
      rw [hwrite] at h
      cases h
      exact .inr ⟨config, m, d, e, hprepares, hwrite⟩

/-- What is left where only the body could not be written: the header, and nothing else that is new
or changed. The body is refused by a directory that has its name, or since its name or path is too
long. -/
structure HeaderAlone (files after : FileTree) (code : Cpp.Generated) (out : Path)
    (e : SystemError) : Prop where
  header : ∃ place, after.walk (out.join code.headerName) = .ok place ∧
    after.content? place = some (.text code.header) ∧
    ∀ q, q ≠ place → after.content? q = files.content? q
  refused : after.write (out.join code.bodyName) code.body = .error e
  reason : e = .isADirectory ∨ e = .nameTooLong

/-- The code is named after the model, whose name is that of a file. -/
theorem Prepares.slash_not_mem {config : Config} {m d : Device}
    (h : Prepares compile files args config m d) : '/' ∉ (sourceNameOf args d).toList := by
  cases hfile : args.model.fileName? with
  | some name =>
    rw [sourceNameOf, hfile]
    exact Path.slash_not_mem_fileName hfile
  | none =>
    -- A model without a name has no format.
    have hformat : Document.Format.ofPath? args.model = none := by
      rw [Document.Format.ofPath?, Path.extension?, hfile]
      rfl
    have hresolved := h.resolved
    rw [Resolve.resolveFile, DeviceDocument.load, hformat] at hresolved
    cases hresolved

theorem write_error {files t : FileTree} {d : Device} {sourceName : String} {out : Path}
    {e : GenerateError} (hname : '/' ∉ sourceName.toList)
    (h : ((Cpp.generate d sourceName).write out).run files = .error e t) :
    SameFiles files t ∨ ∃ e, HeaderAlone files t (Cpp.generate d sourceName) out e := by
  have hends := Cpp.write_ends (Cpp.generate d sourceName) out files
  have hmakes := FileTree.makeDirectories_sameFiles (out.components.length + 2) out files
  rw [h] at hends
  rw [Relates] at hmakes
  cases hends with
  | directory refused =>
    rw [refused] at hmakes
    exact .inl hmakes
  | header made refused =>
    rw [made] at hmakes
    exact .inl hmakes
  | @body e t₁ _ made header refused =>
    rw [made] at hmakes
    obtain ⟨place, hplace, rfl, hwalk⟩ := FileTree.write_ok header
    refine .inr ⟨e, ⟨place, hwalk, ?_, fun q hq => ?_⟩, refused, ?_⟩
    · rw [FileTree.content?, FileTree.get?_put_self (FileTree.not_ground hplace)]
    · rw [FileTree.content?_put_of_ne hq]
      exact hmakes q
    · refine FileTree.write_sibling_error ?_ ?_ ?_ ?_ header refused
      · simpa [Cpp.generate] using hname
      · simpa [Cpp.generate] using hname
      · have hne : ∀ {n : String}, n.toList.getLast? ≠ some 'p' →
            (Cpp.generate d sourceName).bodyName ≠ n := by
          rintro n hn rfl
          exact hn (by simp [Cpp.generate])
        exact ⟨hne (by decide), hne (by decide), hne (by decide)⟩
      · simp [Cpp.generate]

/-- A run that fails leaves all files as they were, and adds none, unless it is the body of the code
that it could not write. -/
theorem run_failed_files (hexit : (run line files compile).exit ≠ 0) :
    SameFiles files (run line files compile).files ∨ ∃ options args config m d e,
      parse? line = some (.run options (.generate args)) ∧
      Prepares compile files args config m d ∧
      HeaderAlone files (run line files compile).files (Cpp.generate d (sourceNameOf args d))
        (directoryOf args config) e := by
  unfold run at hexit ⊢
  split
  · next request hparse =>
    rw [hparse] at hexit
    cases request with
    | version => exact absurd rfl hexit
    | help => exact absurd rfl hexit
    | run options command =>
      simp only [runRequest] at hexit ⊢
      cases hperform : (perform compile options command).run { files } with
      | ok printed w =>
        rw [hperform] at hexit
        exact absurd rfl hexit
      | error failure w =>
        dsimp only
        cases command with
        | validate model schema =>
          rw [(validate_keepsFiles compile options model schema).of_error hperform]
          exact .inl (.refl files)
        | inspect model =>
          rw [(inspect_keepsFiles model).of_error hperform]
          exact .inl (.refl files)
        | generate args =>
          rcases generate_error hperform with hfiles | ⟨config, m, d, e, hprepares, hwrite⟩
          · rw [hfiles]
            exact .inl (.refl files)
          · rcases write_error hprepares.slash_not_mem hwrite with hsame | ⟨e, halone⟩
            · exact .inl hsame
            · exact .inr ⟨options, args, config, m, d, e, hparse, hprepares, halone⟩
  · exact .inl (.refl files)

/-- A model, and a directory that has the name of the body. -/
def blockedBody : FileTree := .ofFiles [("device.m.json", "\x7b\x7d"), ("device.m.json.cpp/", "")]

theorem blockedBody_header : (run ["generate", "device.m.json"] blockedBody).exit = 1 ∧
    blockedBody.content? ["device.m.json.h"] = none ∧
    (run ["generate", "device.m.json"] blockedBody).files.content? ["device.m.json.h"] ≠ none := by
  decide +kernel

/-- The run fails, and the header is there all the same. -/
theorem blockedBody_not_sameFiles : (run ["generate", "device.m.json"] blockedBody).exit ≠ 0 ∧
    ¬ SameFiles blockedBody (run ["generate", "device.m.json"] blockedBody).files := by
  obtain ⟨hexit, hbefore, hafter⟩ := blockedBody_header
  refine ⟨by simp [hexit], fun hsame => hafter ?_⟩
  rw [hsame, hbefore]

theorem blockedBody_headerAlone : (run ["generate", "device.m.json"] blockedBody).exit ≠ 0 ∧
    ∃ options args config m d e, parse? ["generate", "device.m.json"] =
      some (.run options (.generate args)) ∧
      Prepares Schema.compile blockedBody args config m d ∧
      HeaderAlone blockedBody (run ["generate", "device.m.json"] blockedBody).files
        (Cpp.generate d (sourceNameOf args d)) (directoryOf args config) e := by
  obtain ⟨hexit, hbefore, hafter⟩ := blockedBody_header
  have hfails : (run ["generate", "device.m.json"] blockedBody).exit ≠ 0 := by simp [hexit]
  refine ⟨hfails, (run_failed_files hfails).resolve_left fun hsame => hafter ?_⟩
  rw [hsame, hbefore]

end Generate

end CommandLine

end DeviceModel
