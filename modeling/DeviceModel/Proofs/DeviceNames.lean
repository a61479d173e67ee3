import DeviceModel.Proofs.CodeNames
import DeviceModel.Proofs.PathIdentities
import DeviceModel.Resolve.Load

namespace DeviceModel

open Document (Format)

namespace Text

variable {sep : Char}

theorem join_split (s : String) : join (String.singleton sep) (split sep s) = s := by
  have hjoin : ∀ fs : List (List Char),
      (join (String.singleton sep) (fs.map String.ofList)).toList =
        (fs.flatMap (sep :: ·)).tail := by
    intro fs
    induction fs with
    | nil => rfl
    | cons f rest ih =>
      cases rest with
      | nil => simp [join]
      | cons next rest =>
        simp only [List.map_cons, join, List.flatMap_cons, List.cons_append, List.tail_cons] at ih ⊢
        rw [String.intercalate_cons_cons]
        simp [ih]
  apply String.toList_inj.mp
  rw [split, hjoin, flatMap_fields, List.tail_cons]

/-- The last separator is the one that no other comes after. -/
theorem splitLast?_append {b : String} (a : String) (hb : sep ∉ b.toList) :
    splitLast? sep (a ++ String.singleton sep ++ b) = some (a, b) := by
  have hfields : fields sep (a ++ String.singleton sep ++ b).toList = fields sep a.toList ++
      [b.toList] := by
    simp [fields_append_sep, fields_of_not_mem hb]
  rw [splitLast?, hfields, List.reverse_concat]
  cases hbefore : (fields sep a.toList).reverse with
  | nil => exact absurd (List.reverse_eq_nil_iff.mp hbefore) (fields_ne_nil _)
  | cons before rest =>
    dsimp only
    rw [← hbefore, List.reverse_reverse, String.ofList_toList]
    exact congrArg (fun text => some (text, b)) (join_split a)

theorem splitLast?_of_not_mem {s : String} (h : sep ∉ s.toList) : splitLast? sep s = none := by
  rw [splitLast?, fields_of_not_mem h]
  rfl

theorem exists_last {s : String} (h : sep ∈ s.toList) :
    ∃ a b : String, s = a ++ String.singleton sep ++ b ∧ sep ∉ b.toList := by
  obtain ⟨after, before, hs, hafter⟩ := List.eq_append_cons_of_mem (List.mem_reverse.mpr h)
  refine ⟨String.ofList before.reverse, String.ofList after.reverse, ?_, by simpa using hafter⟩
  apply String.toList_inj.mp
  rw [← List.reverse_reverse s.toList, hs]
  simp

/-- A dot ends every identifier. -/
theorem dot_not_mem_of_isIdentifier {s : String} (h : isIdentifier s = true) : '.' ∉ s.toList := by
  intro hdot
  have hword := (isIdentifier_iff.mp h).1
  rw [isWord, List.all_eq_true] at hword
  exact absurd (hword '.' hdot) (by decide)

end Text

namespace Path

variable {p : Path} {s name stem extension : String}

/-- The path has the name that is the last of its segments but for those that say nothing. -/
theorem fileName?_eq_some_iff : p.fileName? = some s ↔
    ∃ before after, p.segments = before ++ s :: after ∧ IsName s ∧ ∀ x ∈ after, x = "" ∨
      x = "." := by
  have hvoid : ∀ x, component? x = none ↔ x = "" ∨ x = "." := by
    intro x
    rw [component?]
    split
    · next h => simpa using h
    · next h => split <;> simpa using h
  -- what comes before the first segment is no name
  have hlast : p.fileName? = some s ↔
      (p.segments.filterMap component?).getLast? = some (.name s) := by
    have hname : p.fileName? = some s ↔ p.components.getLast? = some (.name s) := by
      rw [fileName?]
      split
      · next hlast => simp [hlast]
      · next hlast => simpa using hlast s
    have hlead : p.lead.getLast? ≠ some (.name s) := by
      rw [lead]
      split
      · simp
      · split <;> simp
    rw [hname, components_eq, List.getLast?_append]
    cases hc : (p.segments.filterMap component?).getLast? with
    | none => simpa using hlead
    | some c => simp
  rw [hlast, List.getLast?_filterMap, List.findSome?_eq_some_iff]
  constructor
  · rintro ⟨after, x, before, hsegments, hx, hafter⟩
    have hmem : x ∈ p.segments := List.mem_reverse.mp (by simp [hsegments])
    rcases component?_cases (slash_not_mem_segments x hmem) with hx' | hx' | ⟨hname, hx'⟩
    · cases hx.symm.trans hx'
    · cases hx.symm.trans hx'
    · cases hx.symm.trans hx'
      refine ⟨before.reverse, after.reverse, ?_, hname, ?_⟩
      · rw [← List.reverse_reverse p.segments, hsegments]
        simp
      · intro y hy
        exact (hvoid y).mp (hafter y (List.mem_reverse.mp hy))
  · rintro ⟨before, after, hsegments, hname, hafter⟩
    refine ⟨after.reverse, s, before.reverse, by simp [hsegments], component?_of_isName hname, ?_⟩
    intro y hy
    exact (hvoid y).mpr (hafter y (List.mem_reverse.mp hy))

/-- A name has the same path in every directory. -/
theorem fileName?_join (dir : Path) (h : IsName s) : (dir.join s).fileName? = some s := by
  obtain ⟨_, before, _, hsiblings⟩ := join_siblings dir
  exact fileName?_eq_some_iff.mpr ⟨before, [], (hsiblings s h.2.2.2).2.1, h, by simp⟩

theorem isName_of_fileName? (h : p.fileName? = some s) : IsName s := by
  obtain ⟨_, _, _, hname, _⟩ := fileName?_eq_some_iff.mp h
  exact hname

theorem splitName_append (h : '.' ∉ extension.toList) : splitName (stem ++ "." ++ extension) =
    if stem = "" then (stem ++ "." ++ extension, none) else (stem, some extension) := by
  have hsplit : Text.splitLast? '.' (stem ++ "." ++ extension) = some (stem, extension) :=
    Text.splitLast?_append stem h
  rw [splitName, hsplit]
  by_cases hstem : stem = ""
  · simp [hstem]
  · simp [hstem]

/-- A name is split at its last dot, unless that is its first character. -/
theorem splitName_eq_iff : splitName name = (stem, some extension) ↔
    name = stem ++ "." ++ extension ∧ stem ≠ "" ∧ '.' ∉ extension.toList := by
  constructor
  · intro h
    by_cases hdot : '.' ∈ name.toList
    · obtain ⟨a, b, hname, hb⟩ := Text.exists_last hdot
      change name = a ++ "." ++ b at hname
      rw [hname, splitName_append hb] at h
      split at h
      · cases h
      · next ha =>
        cases h
        exact ⟨hname, ha, hb⟩
    · rw [splitName, Text.splitLast?_of_not_mem hdot] at h
      cases h
  · rintro ⟨rfl, hstem, hextension⟩
    rw [splitName_append hextension, if_neg hstem]

end Path

/-- The extensions of a format. -/
def Document.Format.extensions : Format → List String
  | .json => ["json"]
  | .yaml => ["yaml", "yml"]

theorem Document.Format.ofPath?_eq_some_iff {p : Path} {f : Format} :
    Format.ofPath? p = some f ↔ ∃ extension ∈ f.extensions, p.extension? = some extension := by
  rw [ofPath?]
  split
  · next h => cases f <;> simp [extensions, h]
  · next h => cases f <;> simp [extensions, h]
  · next h => cases f <;> simp [extensions, h]
  · next hjson hyaml hyml =>
    cases f with
    | json => simpa [extensions] using hjson
    | yaml => simpa [extensions] using ⟨hyaml, hyml⟩

namespace DeviceDocument

theorem namespaceInStem_eq_ok_iff {stem ns : String} :
    namespaceInStem stem = .ok ns ↔ stem = "device." ++ ns ∧ Text.isIdentifier ns = true := by
  have hjoin : ∀ ns, Text.join (String.singleton '.') ["device", ns] = "device." ++ ns :=
    fun _ => rfl
  constructor
  · intro h
    unfold namespaceInStem at h
    split at h
    · next ns' hsplit =>
      split at h
      · cases h
      · split at h
        · next hidentifier =>
          cases h
          exact ⟨by rw [← hjoin, ← hsplit, Text.join_split], hidentifier⟩
        · cases h
    · cases h
  · rintro ⟨rfl, hidentifier⟩
    have hdot := Text.dot_not_mem_of_isIdentifier hidentifier
    have hsplit : Text.split '.' ("device." ++ ns) = ["device", ns] := by
      rw [← hjoin]
      exact Text.split_join (by simp) (by simpa using hdot)
    have hne : ns ≠ "" := by
      rintro rfl
      cases hidentifier
    simp [namespaceInStem, hsplit, hne, hidentifier]

theorem namespaceOf_eq_ok_iff {p : Path} {ns : String} :
    namespaceOf p = .ok ns ↔ p.stem? = some ("device." ++ ns) ∧ Text.isIdentifier ns = true := by
  rw [namespaceOf]
  cases hstem : p.stem? with
  | none => simp
  | some stem => simp [Resolve.except_mapError_ok, namespaceInStem_eq_ok_iff]

/-- The name of the file that holds a device. -/
def fileName (ns extension : String) : String := "device." ++ ns ++ "." ++ extension

/-- Format and namespace are read off the file name, and only off names of this form. -/
theorem accepted_iff {p : Path} {f : Format} {ns : String} :
    Format.ofPath? p = some f ∧ namespaceOf p = .ok ns ↔
      ∃ extension ∈ f.extensions, p.fileName? = some (fileName ns extension) ∧
        Text.isIdentifier ns = true := by
  have hdot : ∀ extension ∈ f.extensions, '.' ∉ extension.toList := by cases f <;> decide
  have hstem : "device." ++ ns ≠ "" := by simp
  rw [Format.ofPath?_eq_some_iff, namespaceOf_eq_ok_iff]
  constructor
  · rintro ⟨⟨extension, hmem, hextension⟩, hns, hidentifier⟩
    refine ⟨extension, hmem, ?_, hidentifier⟩
    cases hname : p.fileName? with
    | none => simp [Path.extension?, hname] at hextension
    | some name =>
      simp only [Path.extension?, Path.stem?, hname, Option.bind_some, Option.map_some,
        Option.some.injEq] at hextension hns
      rw [(Path.splitName_eq_iff.mp (Prod.ext hns hextension)).1]
      rfl
  · rintro ⟨extension, hmem, hname, hidentifier⟩
    have hsplit : Path.splitName (fileName ns extension) = ("device." ++ ns, some extension) :=
      Path.splitName_eq_iff.mpr ⟨rfl, hstem, hdot extension hmem⟩
    refine ⟨⟨extension, hmem, ?_⟩, ?_, hidentifier⟩
    · rw [Path.extension?, hname, Option.bind_some, hsplit]
    · rw [Path.stem?, hname, Option.map_some, hsplit]

/-- Only the file name matters to what a path says about a device. -/
theorem same_of_fileName? {p q : Path} (h : p.fileName? = q.fileName?) :
    Format.ofPath? p = Format.ofPath? q ∧
      ∀ ns, namespaceOf p = .ok ns ↔ namespaceOf q = .ok ns := by
  have hextension : p.extension? = q.extension? := by rw [Path.extension?, Path.extension?, h]
  have hstem : p.stem? = q.stem? := by rw [Path.stem?, Path.stem?, h]
  refine ⟨by rw [Format.ofPath?, Format.ofPath?, hextension], fun ns => ?_⟩
  rw [namespaceOf_eq_ok_iff, namespaceOf_eq_ok_iff, hstem]

end DeviceDocument

open DeviceDocument (namespaceOf fileName)

/-- What is said about a device by the path of its file. -/
structure ToldByName (p : Path) : Prop where
  /-- The file name is the last segment that says anything, if it is a name. -/
  named : ∀ name, p.fileName? = some name ↔
    ∃ before after, p.segments = before ++ name :: after ∧ Path.IsName name ∧ ∀ s ∈ after,
      s = "" ∨ s = "."
  accepted : (∃ f ns, Format.ofPath? p = some f ∧ namespaceOf p = .ok ns) ↔
    ∃ ns extension, p.fileName? = some (fileName ns extension) ∧ Text.isIdentifier ns = true ∧
      extension ∈ ["json", "yaml", "yml"]
  told : ∀ ns extension, p.fileName? = some (fileName ns extension) → Text.isIdentifier ns = true →
    extension ∈ ["json", "yaml", "yml"] →
      namespaceOf p = .ok ns ∧ Format.ofPath? p = some (if extension = "json" then .json else .yaml)
  /-- The directory does not matter. -/
  anywhere : ∀ name, p.fileName? = some name → ∀ dir : Path,
    Format.ofPath? (dir.join name) = Format.ofPath? p ∧
      ∀ ns, namespaceOf (dir.join name) = .ok ns ↔ namespaceOf p = .ok ns

theorem deviceFiles_toldByName (p : Path) : ToldByName p := by
  have hformat : ∀ extension : String, extension ∈ ["json", "yaml", "yml"] ↔
      extension ∈ Format.extensions (if extension = "json" then .json else .yaml) := by
    intro extension
    by_cases h : extension = "json"
    · simp [h, Format.extensions]
    · simp [h, Format.extensions]
  constructor
  case named => exact fun name => Path.fileName?_eq_some_iff
  case accepted =>
    constructor
    · rintro ⟨f, ns, haccepted⟩
      obtain ⟨extension, hmem, hname, hidentifier⟩ := DeviceDocument.accepted_iff.mp haccepted
      refine ⟨ns, extension, hname, hidentifier, ?_⟩
      cases f <;> simp_all [Format.extensions]
    · rintro ⟨ns, extension, hname, hidentifier, hmem⟩
      exact ⟨_, ns, DeviceDocument.accepted_iff.mpr
        ⟨extension, (hformat extension).mp hmem, hname, hidentifier⟩⟩
  case told =>
    intro ns extension hname hidentifier hmem
    exact (DeviceDocument.accepted_iff.mpr
      ⟨extension, (hformat extension).mp hmem, hname, hidentifier⟩).symm
  case anywhere =>
    intro name hname dir
    refine DeviceDocument.same_of_fileName? ?_
    rw [Path.fileName?_join dir (Path.isName_of_fileName? hname), hname]

/-- Segments that say nothing may come behind the name. -/
theorem structsFile_toldByName :
    namespaceOf ⟨"../models//device.use_structs.yml/."⟩ = .ok "use_structs" ∧
      Format.ofPath? ⟨"../models//device.use_structs.yml/."⟩ = some .yaml :=
  (deviceFiles_toldByName ⟨"../models//device.use_structs.yml/."⟩).told "use_structs" "yml"
    (by decide +kernel) (by decide +kernel) (by decide)

end DeviceModel
