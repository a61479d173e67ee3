import DeviceModel.Proofs.FileTrees
import DeviceModel.Proofs.Finding

namespace DeviceModel

theorem Text.fields_append_sep {sep : Char} (cs rest : List Char) :
    fields sep (cs ++ sep :: rest) = fields sep cs ++ fields sep rest := by
  induction cs with
  | nil =>
    cases hfields : fields sep rest with
    | nil => exact absurd hfields (fields_ne_nil rest)
    | cons f fs => simp [fields, hfields]
  | cons c cs ih =>
    rw [List.cons_append, fields, ih, fields]
    cases hfields : fields sep cs with
    | nil => exact absurd hfields (fields_ne_nil cs)
    | cons f fs =>
      dsimp only [List.cons_append]
      split <;> rfl

theorem Text.sep_not_mem_fields {sep : Char} {cs : List Char} : ∀ f ∈ fields sep cs, sep ∉ f := by
  induction cs with
  | nil => simp [fields]
  | cons c cs ih =>
    rw [fields]
    cases hfields : fields sep cs with
    | nil => exact absurd hfields (fields_ne_nil cs)
    | cons f fs =>
      rw [hfields] at ih
      simp only [List.mem_cons, forall_eq_or_imp] at ih
      dsimp only
      split
      · simpa using ih
      · next hne => simpa [Ne.symm hne] using ih

namespace Path

theorem name_mem_segments {p : Path} {s : String} (h : .name s ∈ p.components) :
    s ∈ p.segments := by
  have hcomponent : ∀ {segment : String}, component? segment = some (.name s) → segment = s := by
    intro segment hsegment
    unfold component? at hsegment
    split at hsegment
    · cases hsegment
    · split at hsegment
      · cases hsegment
      · simpa using hsegment
  unfold components at h
  split at h
  · cases h
  · next first rest hsegments =>
    rw [hsegments]
    rcases List.mem_append.mp h with h | h
    · rw [Option.mem_toList] at h
      split at h
      · cases h
      · split at h
        · cases h
        · rw [hcomponent h]
          exact List.mem_cons_self
    · obtain ⟨segment, hmem, hsegment⟩ := List.mem_filterMap.mp h
      rw [← hcomponent hsegment]
      exact List.mem_cons_of_mem _ hmem

theorem slash_not_mem_fileName {p : Path} {s : String} (h : p.fileName? = some s) :
    '/' ∉ s.toList := by
  have hlast : .name s ∈ p.components := by
    unfold fileName? at h
    split at h
    · next s' hlast =>
      cases h
      exact List.mem_of_getLast? hlast
    · cases h
  obtain ⟨f, hf, rfl⟩ := List.mem_map.mp (name_mem_segments hlast)
  simpa using Text.sep_not_mem_fields f hf

/-- What a path to a name in a directory is made of: all but the name is the same for every name. -/
theorem join_siblings (dir : Path) : ∃ front before start, ∀ n : String, '/' ∉ n.toList →
    (dir.join n).text.toList = front ++ n.toList ∧ (dir.join n).segments = before ++ [n] ∧
      FileTree.startOf (dir.join n) = start := by
  -- The name stands alone, or behind a slash.
  suffices h : ∃ front : List Char, (front = [] ∨ ∃ cs, front = cs ++ ['/']) ∧
      ∀ n : String, '/' ∉ n.toList → (dir.join n).text.toList = front ++ n.toList by
    obtain ⟨front, hfront, htext⟩ := h
    rcases hfront with rfl | ⟨cs, rfl⟩
    · refine ⟨[], [], [], fun n hn => ⟨htext n hn, ?_, ?_⟩⟩
      · rw [segments, Text.split, htext n hn, List.nil_append, Text.fields_of_not_mem hn]
        simp
      · rw [FileTree.startOf, isAbsolute, startsAtRoot, htext n hn, if_neg]
        intro habsolute
        exact hn (List.mem_of_mem_head? (by simpa using habsolute))
    · refine ⟨cs ++ ['/'], (Text.fields '/' cs).map String.ofList,
        if (cs ++ ['/']).head? == some '/' then ["/"] else [], fun n hn => ⟨htext n hn, ?_, ?_⟩⟩
      · rw [segments, Text.split, htext n hn, List.append_assoc, List.singleton_append,
          Text.fields_append_sep, Text.fields_of_not_mem hn]
        simp
      · rw [FileTree.startOf, isAbsolute, startsAtRoot, htext n hn,
          List.head?_append_of_ne_nil _ (by simp)]
  have hroot : ∀ {n : String}, '/' ∉ n.toList → startsAtRoot n = false := by
    intro n hn
    rw [startsAtRoot, beq_eq_false_iff_ne]
    exact fun hhead => hn (List.mem_of_mem_head? hhead)
  by_cases hempty : dir.text = ""
  · exact ⟨[], .inl rfl, fun n hn => by simp [join, hempty]⟩
  · by_cases hlast : dir.text.toList.getLast? = some '/'
    · refine ⟨dir.text.toList, .inr (List.getLast?_eq_some_iff.mp hlast), fun n hn => ?_⟩
      simp [join, hempty, hlast, hroot hn]
    · refine ⟨dir.text.toList ++ ['/'], .inr ⟨_, rfl⟩, fun n hn => ?_⟩
      simp [join, hempty, hlast, hroot hn]

end Path

namespace FileTree

variable {t : FileTree} {p : Path} {before : List String} {n text : String} {parent : Place}
  {e : SystemError}

theorem splitEnd_concat (hne : n ≠ "") : splitEnd (before ++ [n]) = some (before, n) := by
  rw [splitEnd, List.reverse_concat, List.dropWhile_cons_of_neg (by simpa using hne)]
  simp

theorem entry_error (h : t.walk p = .error e) : t.entry p = .error e := by
  rw [entry, h]
  rfl

/-- In a directory that is there a file cannot be written for two reasons: its place is a directory,
or its name or path is too long. -/
theorem write_error (hsegments : p.segments = before ++ [n])
    (hparent : before.foldlM t.step (startOf p) = .ok parent)
    (hdirectory : t.get? parent = some .directory) (hn : n ≠ "" ∧ n ≠ "." ∧ n ≠ "..")
    (hspelled : checkSpelling p = .ok () ∨ checkSpelling p = .error .nameTooLong)
    (h : t.write p text = .error e) :
    e = .isADirectory ∨ e = .nameTooLong := by
  have hlong : t.entry p = .error .nameTooLong → e = .nameTooLong := by
    intro hentry
    rw [write, hentry] at h
    exact (Except.error.inj h).symm
  rcases hspelled with hspelled | hspelled
  · have hwalk := walk_concat hspelled hsegments hparent
    rw [step_directory hdirectory] at hwalk
    split at hwalk
    · split at hwalk
      · -- Nothing is there: the file is new.
        simp [write, entry_error hwalk, hspelled, hsegments, splitEnd_concat hn.1, hparent,
          hdirectory, hn.1, bind, Except.bind] at h
      · next hsome =>
        obtain ⟨old, hold⟩ := Option.ne_none_iff_exists'.mp hsome
        rw [write, entry_ok.mpr ⟨hwalk, hold⟩] at h
        cases old with
        | file => cases h
        | directory => exact .inl (Except.error.inj h).symm
    · have haside : aside parent n = .error .nameTooLong := by
        rw [aside, if_neg (by simp [hn.1, hn.2.1]), if_neg hn.2.2]
      exact .inr (hlong (entry_error (hwalk.trans haside)))
  · refine .inr (hlong (entry_error ?_))
    rw [walk, hspelled]
    rfl

theorem nul_not_mem_of_spelled (h : checkSpelling p = .ok ()) : '\x00' ∉ p.text.toList := by
  unfold checkSpelling at h
  split at h
  · cases h
  · next hnul => simpa using hnul

theorem checkSpelling_cases (hnul : '\x00' ∉ p.text.toList) (hne : p.text ≠ "") :
    checkSpelling p = .ok () ∨ checkSpelling p = .error .nameTooLong := by
  rw [checkSpelling, if_neg (by simpa using hnul), if_neg hne]
  split
  · exact .inr rfl
  · exact .inl rfl

/-- Where one file can be written, another in the same directory is refused only if its place is a
directory, or its name or path too long. -/
theorem write_sibling_error {t t' : FileTree} {dir : Path} {n n' text text' : String}
    {e : SystemError} (hn : '/' ∉ n.toList) (hn' : '/' ∉ n'.toList)
    (hname : n' ≠ "" ∧ n' ≠ "." ∧ n' ≠ "..") (hnul : '\x00' ∉ n.toList → '\x00' ∉ n'.toList)
    (hok : t.write (dir.join n) text = .ok t') (h : t'.write (dir.join n') text' = .error e) :
    e = .isADirectory ∨ e = .nameTooLong := by
  obtain ⟨front, before, start, hsiblings⟩ := Path.join_siblings dir
  obtain ⟨htext, hsegments, hstart⟩ := hsiblings n hn
  obtain ⟨htext', hsegments', hstart'⟩ := hsiblings n' hn'
  obtain ⟨place, -, -, hwalk⟩ := write_ok hok
  obtain ⟨hspelled, hfold⟩ := walk_ok.mp hwalk
  rw [hsegments, hstart, List.foldlM_append, Resolve.except_bind_ok] at hfold
  obtain ⟨parent, hparent, hlast⟩ := hfold
  rw [List.foldlM_cons, Resolve.except_bind_ok] at hlast
  obtain ⟨_, hstep, -⟩ := hlast
  have hnul' : '\x00' ∉ (dir.join n').text.toList := by
    have hfront := nul_not_mem_of_spelled hspelled
    rw [htext, List.mem_append, not_or] at hfront
    rw [htext', List.mem_append, not_or]
    exact ⟨hfront.1, hnul hfront.2⟩
  have htextne : (dir.join n').text ≠ "" := by
    intro hempty
    rw [hempty] at htext'
    have hboth : front = [] ∧ n' = "" := by simpa using htext'.symm
    exact hname.1 hboth.2
  exact write_error hsegments' (hstart' ▸ hparent) (directory_of_step_ok hstep) hname
    (checkSpelling_cases hnul' htextne) h

end FileTree

end DeviceModel
