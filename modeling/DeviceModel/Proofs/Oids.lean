import DeviceModel.Proofs.Layout
import DeviceModel.Text.Split

namespace DeviceModel

namespace Text

/-- The first colon of a text ends what is before it. -/
theorem append_colon_inj {p q a b : List Char} (hp : ':' ∉ p) (hq : ':' ∉ q)
    (h : p ++ ':' :: a = q ++ ':' :: b) :
    p = q ∧ a = b := by
  induction p generalizing q with
  | nil =>
    cases q with
    | nil => exact ⟨rfl, (List.cons.inj h).2⟩
    | cons c q =>
      obtain ⟨rfl, _⟩ := List.cons.inj h
      exact absurd (List.mem_cons_self ..) hq
  | cons c p ih =>
    cases q with
    | nil =>
      obtain ⟨rfl, _⟩ := List.cons.inj h
      exact absurd (List.mem_cons_self ..) hp
    | cons c' q =>
      simp only [List.mem_cons, not_or] at hp hq
      obtain ⟨rfl, hrest⟩ := List.cons.inj h
      obtain ⟨rfl, hafter⟩ := ih hp.2 hq.2 hrest
      exact ⟨rfl, hafter⟩

theorem toList_join_cons (first next : String) (rest : List String) :
    (join "::" (first :: next :: rest)).toList = first.toList ++ ':' :: ':' ::
      (join "::" (next :: rest)).toList := by
  simp [join, String.intercalate_cons_cons, String.toList_append]

theorem ne_join_cons {s : String} (hs : ':' ∉ s.toList) (first next : String) (rest : List String) :
    s ≠ join "::" (first :: next :: rest) := by
  rintro rfl
  rw [toList_join_cons] at hs
  simp at hs

/-- Parts without a colon are read off their joined text. -/
theorem join_colons_inj {parts others : List String} (hparts : ∀ s ∈ parts, ':' ∉ s.toList)
    (hothers : ∀ s ∈ others, ':' ∉ s.toList) (hne : parts ≠ []) (hne' : others ≠ [])
    (h : join "::" parts = join "::" others) : parts = others := by
  have hone : ∀ first : String, join "::" [first] = first := by
    intro first
    simp [join]
  induction parts generalizing others with
  | nil => exact absurd rfl hne
  | cons first parts ih =>
    obtain ⟨first', others, rfl⟩ := List.exists_cons_of_ne_nil hne'
    simp only [List.mem_cons, forall_eq_or_imp] at hparts hothers
    rcases parts with _ | ⟨next, parts⟩ <;> rcases others with _ | ⟨next', others⟩
    · rw [hone, hone] at h
      rw [h]
    · rw [hone] at h
      exact absurd h (ne_join_cons hparts.1 _ _ _)
    · rw [hone] at h
      exact absurd h.symm (ne_join_cons hothers.1 _ _ _)
    · have htext := congrArg String.toList h
      rw [toList_join_cons, toList_join_cons] at htext
      obtain ⟨hfirst, hrest⟩ := append_colon_inj hparts.1 hothers.1 htext
      have hnext := String.toList_inj.mp (List.cons.inj hrest).2
      rw [String.toList_inj.mp hfirst,
        ih (by simpa using hparts.2) (by simpa using hothers.2) (by simp) (by simp) hnext]

theorem isIdentifierStart_ascii {c : Char} (h : isIdentifierStart c = true) : c.toNat < 128 := by
  change (decide ('A'.val ≤ c.val ∧ c.val ≤ 'Z'.val) ||
    decide ('a'.val ≤ c.val) && decide (c.val ≤ 'z'.val) || c == '_') = true at h
  simp only [Bool.or_eq_true, Bool.and_eq_true, decide_eq_true_eq, beq_iff_eq,
    UInt32.le_iff_toNat_le] at h
  rcases h with (⟨_, h⟩ | ⟨_, h⟩) | rfl
  · exact Nat.lt_of_le_of_lt h (by decide)
  · exact Nat.lt_of_le_of_lt h (by decide)
  · decide

theorem toUpper_ne_colon {c : Char} (h : isIdentifierStart c = true) : c.toUpper ≠ ':' := by
  have hall : ∀ n < 128, isIdentifierStart (Char.ofNat n) = true →
      (Char.ofNat n).toUpper ≠ ':' := by decide
  have hc := hall c.toNat (isIdentifierStart_ascii h)
  rw [Char.ofNat_toNat] at hc
  exact hc h

section Identifiers

variable {s : String} (h : isIdentifier s = true)

include h

theorem isIdentifier_eq :
    ∃ c rest, s.toList = c :: rest ∧ isIdentifierStart c = true ∧ ':' ∉ rest := by
  unfold isIdentifier at h
  split at h
  · cases h
  · next c rest hs =>
    rw [Bool.and_eq_true, List.all_eq_true] at h
    refine ⟨c, rest, hs, h.1, fun hm => ?_⟩
    have hcolon := h.2 ':' hm
    revert hcolon
    decide

theorem isIdentifier_colon : ':' ∉ s.toList := by
  obtain ⟨c, rest, hs, hstart, hrest⟩ := isIdentifier_eq h
  rw [hs, List.mem_cons, not_or]
  refine ⟨?_, hrest⟩
  rintro rfl
  revert hstart
  decide

/-- An identifier holds nothing that would become an underscore. -/
theorem flatten_eq : flatten s = s := by
  have hkept : ∀ c : Char, isIdentifierRest c = true → (if c.isAlphanum then c else '_') = c := by
    intro c hc
    simp only [isIdentifierRest, Bool.or_eq_true, beq_iff_eq] at hc
    rcases hc with hc | rfl
    · rw [if_pos hc]
    · rfl
  have hall : ∀ c ∈ s.toList, isIdentifierRest c = true := by
    unfold isIdentifier at h
    split at h
    · cases h
    · next c rest hs =>
      rw [Bool.and_eq_true, List.all_eq_true] at h
      intro c' hc'
      rw [hs] at hc'
      rcases List.mem_cons.mp hc' with rfl | hc'
      · have hstart := h.1
        simp only [isIdentifierStart, isIdentifierRest, Char.isAlphanum,
          Bool.or_eq_true] at hstart ⊢
        rcases hstart with hstart | hstart
        · exact .inl (.inl hstart)
        · exact .inr hstart
      · exact h.2 c' hc'
  apply String.toList_inj.mp
  rw [flatten, String.toList_map]
  calc s.toList.map (fun c => if c.isAlphanum then c else '_')
      = s.toList.map id := List.map_congr_left fun c hc => hkept c (hall c hc)
    _ = s.toList := List.map_id _

/-- Only the case of the first letter changes. -/
theorem toList_capitalize :
    ∃ c rest, s.toList = c :: rest ∧ isIdentifierStart c = true ∧ ':' ∉ rest ∧
    (capitalize s).toList = c.toUpper :: rest := by
  obtain ⟨c, rest, hs, hstart, hrest⟩ := isIdentifier_eq h
  have hupper : upper c = [c.toUpper] := by rw [upper, if_pos (isIdentifierStart_ascii hstart)]
  exact ⟨c, rest, hs, hstart, hrest, by simp [capitalize, hs, hupper]⟩

theorem capitalize_colon : ':' ∉ (capitalize s).toList := by
  obtain ⟨c, rest, _, hstart, hrest, htext⟩ := toList_capitalize h
  rw [htext, List.mem_cons, not_or]
  exact ⟨(toUpper_ne_colon hstart).symm, hrest⟩

theorem length_capitalize : (capitalize s).toList.length = s.toList.length := by
  obtain ⟨c, rest, hs, _, _, htext⟩ := toList_capitalize h
  rw [htext, hs]
  rfl

end Identifiers

end Text

namespace Resolve

/-- The oid stands among these parameters, below them or in what they import, seen from a folder. -/
inductive Occurs (source : Source) : Path → List (String × Description.Param) → String → Prop where
  | here {folder : Path} {entries : List (String × Description.Param)} {oid : String}
      {q : Description.Param} (listed : (oid, q) ∈ entries) : Occurs source folder entries oid
  | inside {folder : Path} {entries : List (String × Description.Param)} {key oid : String}
      {q : Description.Param} (listed : (key, q) ∈ entries) (own : q.source = none)
      (inner : Occurs source (folder.join key) q.params oid) : Occurs source folder entries oid
  | imported {folder path : Path} {entries : List (String × Description.Param)}
      {key fqoid oid : String}
      {q q' : Description.Param} {i : Description.Import}
      (listed : (key, q) ∈ entries) (elsewhere : q.source = some i)
      (named : importPath source folder fqoid key i = .ok path)
      (read : importedParam source fqoid path = .ok q')
      (inner : Occurs source folder [(key, q')] oid) : Occurs source folder entries oid

/-- The oid is one of the description, with its imports. -/
def OidOf (source : Source) (importRoot : Path) (description : Description.Device) (oid : String) :
    Prop :=
  Occurs source importRoot description.params oid ∨
    Occurs source importRoot description.commands oid

mutual

/-- Nothing is imported, and all oids below the parameter are identifiers. -/
def namedWithin : Description.Param → Bool
  | ⟨declaration, params⟩ => declaration.source.isNone && allNamed params

def allNamed : List (String × Description.Param) → Bool
  | [] => true
  | (oid, q) :: rest => Text.isIdentifier oid && namedWithin q && allNamed rest

end

section Occurs

variable {source : Source} {folder : Path} {entries others : List (String × Description.Param)}

theorem Occurs.mono {oid : String} (h : Occurs source folder entries oid)
    (hsub : entries ⊆ others) :
    Occurs source folder others oid := by
  cases h with
  | here listed => exact .here (hsub listed)
  | inside listed own inner => exact .inside (hsub listed) own inner
  | imported listed elsewhere named read inner =>
    exact .imported (hsub listed) elsewhere named read inner

theorem allNamed_mem {q : Description.Param} {oid : String} (h : allNamed entries = true)
    (hm : (oid, q) ∈ entries) :
    Text.isIdentifier oid = true ∧ q.source = none ∧ allNamed q.params = true := by
  induction entries with
  | nil => cases hm
  | cons entry rest ih =>
    simp only [allNamed, Bool.and_eq_true] at h
    rcases List.mem_cons.mp hm with rfl | hm
    · obtain ⟨declaration, params⟩ := q
      simp only [namedWithin, Bool.and_eq_true, Option.isNone_iff_eq_none] at h
      exact ⟨h.1.1, h.1.2⟩
    · exact ih h.2 hm

theorem Occurs.isIdentifier {oid : String} (h : Occurs source folder entries oid)
    (hn : allNamed entries = true) :
    Text.isIdentifier oid = true := by
  induction h with
  | here listed => exact (allNamed_mem hn listed).1
  | inside listed _ _ ih => exact ih (allNamed_mem hn listed).2.2
  | imported listed elsewhere => cases (allNamed_mem hn listed).2.1.symm.trans elsewhere

theorem oidOf_isIdentifier {importRoot : Path} {description : Description.Device}
    (hn : allNamed (description.params ++ description.commands) = true) {oid : String}
    (h : OidOf source importRoot description oid) : Text.isIdentifier oid = true := by
  rcases h with h | h
  · exact (h.mono (List.subset_append_left ..)).isIdentifier hn
  · exact (h.mono (List.subset_append_right ..)).isIdentifier hn

/-- Copies keep their oids. -/
theorem Copied.oid {realm : Realm} {g : Ground} {parent : ParamId} {path : String}
    {entries : Entries ParamId} {f : Forest} (h : Copied realm g parent path entries f) :
    ∀ p ∈ f.params, ∃ q ∈ g.known, q.oid = p.oid := by
  induction h with
  | nil => simp
  | @cons g parent path key entries source p below rest known node fresh inner next ihInner
      ihNext =>
    have hoid : source.oid = p.oid := by rw [node]; rfl
    intro q hq
    simp only [Forest.params_cons, List.mem_cons, List.mem_append] at hq
    rcases hq with rfl | hq | hq
    · exact ⟨source, known, hoid⟩
    · exact ihInner q hq
    · obtain ⟨r, hr, he⟩ := ihNext q hq
      simp only [Ground.after_known, Forest.params_tree, List.mem_append, List.mem_cons] at hr
      rcases hr with hr | rfl | hr
      · exact ⟨r, hr, he⟩
      · exact ⟨source, known, hoid.trans he⟩
      · obtain ⟨r', hr', he'⟩ := ihInner r hr
        exact ⟨r', hr', he'.trans he⟩

/-- What grows has oids of the description, or of parameters that were there. -/
theorem Grown.occurs {opened : List Path} {g : Ground} {site : Site} {f : Forest}
    (h : Grown source opened g site entries f) :
    ∀ p ∈ f.params, Occurs source site.folder entries p.oid ∨ ∃ q ∈ g.known, q.oid = p.oid := by
  induction h with
  | nil => simp
  | @cons opened g site oid q others f rest first next ihFirst ihNext =>
    intro p hp
    rw [Forest.params_append, List.mem_append] at hp
    rcases hp with hp | hp
    · exact (ihFirst p hp).imp_left fun hoccurs => hoccurs.mono (by simp)
    · rcases ihNext p hp with hoccurs | ⟨q, hq, he⟩
      · exact .inl (hoccurs.mono (by simp))
      · rw [Ground.after_known, List.mem_append] at hq
        rcases hq with hq | hq
        · exact .inr ⟨q, hq, he⟩
        · rw [← he]
          exact (ihFirst q hq).imp_left fun hoccurs => hoccurs.mono (by simp)
  | imported elsewhere opens _ ih =>
    obtain ⟨path, named, _, read⟩ := opens
    intro p hp
    exact (ih p hp).imp_left fun hoccurs =>
      .imported (List.mem_singleton.mpr rfl) elsewhere named read hoccurs
  | templated here _ _ _ _ _ copied _ settled =>
    intro p hp
    rw [Forest.params_tree, List.mem_cons] at hp
    rcases hp with rfl | hp
    · rw [settled.oid]
      exact .inl (.here (List.mem_singleton.mpr rfl))
    · exact .inr (copied.oid p hp)
  | composite here _ _ _ _ _ _ _ settled ih | plain here _ _ _ _ _ settled ih =>
    intro p hp
    rw [Forest.params_tree, List.mem_cons] at hp
    rcases hp with rfl | hp
    · rw [settled.oid]
      exact .inl (.here (List.mem_singleton.mpr rfl))
    · exact (ih p hp).imp_left fun hoccurs => .inside (List.mem_singleton.mpr rfl) here hoccurs

end Occurs

/-- Every oid of a device is one of its description. -/
theorem Resolved.oidOf {source : Source} {importRoot : Path} {description : Description.Device}
    {d : Device} {shared : List Constraint} {params commands : Forest}
    (h : Resolved source importRoot description d shared params commands) :
    ∀ p ∈ (params.append commands).params, OidOf source importRoot description p.oid := by
  have hparams : ∀ p ∈ params.params, OidOf source importRoot description p.oid := by
    intro p hp
    rcases h.params_grown.occurs p hp with hoccurs | ⟨q, hq, _⟩
    · exact .inl hoccurs
    · simp [start] at hq
  intro p hp
  rw [Forest.params_append, List.mem_append] at hp
  rcases hp with hp | hp
  · exact hparams p hp
  · rcases h.commands_grown.occurs p hp with hoccurs | ⟨q, hq, he⟩
    · exact .inr hoccurs
    · rw [← he]
      exact hparams q (by simpa [start] using hq)

/-- Names made of an identifier hold no colon. -/
theorem elementName_colon {oid : String} (h : Text.isIdentifier oid = true) (declared : TypeCode) :
    ':' ∉ (elementName oid declared).toList := by
  have hname := Text.capitalize_colon h
  unfold elementName
  split
  · rw [String.toList_append, List.mem_append, not_or]
    exact ⟨hname, by decide⟩
  · exact hname

theorem holderName_colon {oid : String} (h : Text.isIdentifier oid = true) :
    ':' ∉ (holderName oid).toList := by
  rw [holderName, String.toList_append, List.mem_append, not_or]
  exact ⟨by decide, Text.isIdentifier_colon h⟩

theorem innerName_colon {oid : String} (h : Text.isIdentifier oid = true) (declared : TypeCode) :
    ':' ∉ (innerName oid declared).toList := by
  unfold innerName
  split
  · exact elementName_colon h declared
  · exact holderName_colon h

/-- A holder is never named like a type of its own parameter. -/
theorem capitalize_ne_holderName {oid : String} (h : Text.isIdentifier oid = true) :
    Text.capitalize oid ≠ holderName oid := by
  intro he
  have hlength := congrArg (fun s => s.toList.length) he
  simp [holderName, String.toList_append, Text.length_capitalize h] at hlength

theorem elementName_ne_holderName {oid : String} (h : Text.isIdentifier oid = true)
    (declared : TypeCode) :
    elementName oid declared ≠ holderName oid := by
  intro he
  unfold elementName at he
  split at he
  · have hlength := congrArg (fun s => s.toList.length) he
    simp [holderName, String.toList_append, Text.length_capitalize h] at hlength
  · exact capitalize_ne_holderName h he

end Resolve

end DeviceModel
