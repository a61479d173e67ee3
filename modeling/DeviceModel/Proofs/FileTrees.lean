import DeviceModel.Proofs.Steps
import DeviceModel.Source.FileTree

namespace DeviceModel

open Resolve (except_bind_ok)

section Endings

variable {ε σ α β : Type} {R : σ → σ → Prop} {s : σ}

/-- Where a run ends, well or not. -/
def endState : EStateM.Result ε σ α → σ
  | .ok _ s => s
  | .error _ s => s

/-- What holds between where a run starts and where it ends, however it ends. -/
def Relates (R : σ → σ → Prop) (s : σ) (x : EStateM ε σ α) : Prop := R s (endState (x.run s))

theorem Relates.bind (trans : ∀ s t u : σ, R s t → R t u → R s u) {x : EStateM ε σ α}
    {f : α → EStateM ε σ β} (hx : Relates R s x)
    (hf : ∀ a t, x.run s = .ok a t → Relates R t (f a)) : Relates R s (x >>= f) := by
  unfold Relates at *
  have hrun : (x >>= f).run s = match x.run s with
      | .ok a t => (f a).run t
      | .error e t => .error e t := rfl
  rw [hrun]
  cases hx' : x.run s with
  | ok a t =>
    rw [hx'] at hx
    exact trans s t _ hx (hf a t hx')
  | error e t =>
    rw [hx'] at hx
    exact hx

end Endings

namespace FileTree

variable {t t' u : FileTree} {place q : Place} {e : FileEntry} {p : Path}

section Entries

theorem lookup_replaced (entries : List (Place × FileEntry)) (place q : Place) (e : FileEntry) :
    (entries.map fun old => (old.1, if old.1 = place then e else old.2)).lookup q =
      (entries.lookup q).map fun old => if q = place then e else old := by
  induction entries with
  | nil => rfl
  | cons head entries ih =>
    rw [List.map_cons, List.lookup_cons, List.lookup_cons, ih]
    split
    · next heq => simp [eq_of_beq heq]
    · rfl

theorem lookup_put (t : FileTree) (place q : Place) (e : FileEntry) :
    (t.put place e).entries.lookup q = if q = place then some e else t.entries.lookup q := by
  unfold put
  split
  · next hany =>
    change (t.entries.map fun old => (old.1, if old.1 = place then e else old.2)).lookup q = _
    rw [lookup_replaced]
    split
    · next heq =>
      subst heq
      cases hlookup : t.entries.lookup q with
      | none =>
        obtain ⟨old, hold, heq⟩ := List.any_eq_true.mp hany
        exact absurd (List.lookup_eq_none_iff.mp hlookup old hold)
          (by simpa using (of_decide_eq_true heq).symm)
      | some old => rfl
    · simp
  · next hany =>
    rw [List.lookup_append]
    split
    · next heq =>
      have hnone : t.entries.lookup place = none := by
        rw [List.lookup_eq_none_iff]
        intro old hold
        have hne : old.1 ≠ place := fun heq =>
          hany (List.any_eq_true.mpr ⟨old, hold, by simpa using heq⟩)
        simpa using hne.symm
      simp [heq, hnone]
    · next hne => simp [List.lookup_cons, beq_false_of_ne hne]

theorem get?_put_of_ne (h : q ≠ place) : (t.put place e).get? q = t.get? q := by
  rw [get?, get?, lookup_put, if_neg h]

theorem get?_put_self (h : isGround place = false) : (t.put place e).get? place = some e := by
  rw [get?, h, if_neg (by simp), lookup_put, if_pos rfl]

theorem get?_ground (h : isGround place = true) : t.get? place = some .directory := by
  rw [get?, h, if_pos rfl]

theorem not_ground (h : t.get? place ≠ some .directory) : isGround place = false := by
  rw [Bool.eq_false_iff]
  exact fun hground => h (get?_ground hground)

end Entries

section Walking

variable {segment : String} {place' : Place}

/-- A place with all the directories above it. -/
structure Reached (t : FileTree) (place : Place) : Prop where
  here : t.get? place ≠ none
  above : ∀ q, q <+: place → q ≠ place → t.get? q = some .directory

theorem Reached.of_ground (h : ∀ q, q <+: place → isGround q = true) : Reached t place where
  here := by simp [get?_ground (h place (List.prefix_refl _))]
  above q hq _ := get?_ground (h q hq)

theorem startOf_reached (p : Path) : Reached t (startOf p) := by
  apply Reached.of_ground
  unfold startOf
  split
  · intro q hq
    rcases List.prefix_cons_iff.mp hq with rfl | ⟨q', rfl, hq'⟩
    · decide
    · rw [List.prefix_nil.mp hq']
      decide
  · intro q hq
    rw [List.prefix_nil.mp hq]
    decide

theorem up_reached (h : Reached t place) : Reached t (up place) := by
  unfold up
  split
  · exact h
  · split
    · next hall =>
      apply Reached.of_ground
      intro q hq
      rw [isGround, Bool.or_eq_true, List.all_eq_true]
      right
      intro segment hsegment
      rcases List.mem_cons.mp (hq.subset hsegment) with rfl | hmem
      · decide
      · exact List.all_eq_true.mp hall segment hmem
    · next hall =>
      have hpos : 0 < place.length := by
        rw [List.length_pos_iff]
        rintro rfl
        exact hall rfl
      have hproper : ∀ q, q <+: place.dropLast → q ≠ place := by
        rintro q hq rfl
        have hlength := hq.length_le
        rw [List.length_dropLast] at hlength
        omega
      refine ⟨?_, fun q hq _ => h.above q (hq.trans (List.dropLast_prefix _)) (hproper q hq)⟩
      simp [h.above _ (List.dropLast_prefix _) (hproper _ (List.prefix_refl _))]

/-- A segment that a directory may have an entry for. -/
def IsName (segment : String) : Prop :=
  segment ≠ "" ∧ segment ≠ "." ∧ segment ≠ ".." ∧ segment.utf8ByteSize ≤ maxName

instance : DecidablePred IsName := fun _ => inferInstanceAs (Decidable (_ ∧ _))

/-- Where any other segment leads from a directory, whatever it holds. -/
def aside (place : Place) (segment : String) : Except SystemError Place :=
  if segment = "" ∨ segment = "." then .ok place
  else if segment = ".." then .ok (up place)
  else .error .nameTooLong

theorem step_directory (h : t.get? place = some .directory) :
    t.step place segment =
      if IsName segment then
        if t.get? (place ++ [segment]) = none then .error .notFound else .ok (place ++ [segment])
      else aside place segment := by
  rw [step, h]
  dsimp only
  by_cases hstay : segment = "" ∨ segment = "."
  · have hname : ¬ IsName segment := by
      rintro ⟨hempty, hdot, -⟩
      exact hstay.elim hempty hdot
    rw [if_pos (by simpa using hstay), if_neg hname, aside, if_pos hstay]
  · rw [if_neg (by simpa using hstay)]
    rw [not_or] at hstay
    by_cases hup : segment = ".."
    · rw [if_pos hup, if_neg fun hname => hname.2.2.1 hup, aside,
        if_neg (by simpa using hstay), if_pos hup]
    · rw [if_neg hup]
      by_cases hlong : segment.utf8ByteSize > maxName
      · have hname : ¬ IsName segment := fun hname => by
          have := hname.2.2.2
          omega
        rw [if_pos hlong, if_neg hname, aside, if_neg (by simpa using hstay), if_neg hup]
      · have hname : IsName segment := ⟨hstay.1, hstay.2, hup, by omega⟩
        rw [if_neg hlong, if_pos hname]
        cases t.get? (place ++ [segment]) <;> simp

theorem directory_of_step_ok (h : t.step place segment = .ok place') :
    t.get? place = some .directory := by
  unfold step at h
  split at h
  · cases h
  · cases h
  · assumption

theorem step_reached (hreached : Reached t place) (h : t.step place segment = .ok place') :
    Reached t place' := by
  have hdirectory := directory_of_step_ok h
  rw [step_directory hdirectory] at h
  split at h
  · split at h
    · cases h
    · next hsome =>
      cases h
      refine ⟨hsome, fun q hq hne => ?_⟩
      rcases List.prefix_concat_iff.mp hq with rfl | hq
      · exact absurd rfl hne
      · by_cases heq : q = place
        · rw [heq]
          exact hdirectory
        · exact hreached.above q hq heq
  · unfold aside at h
    split at h
    · cases h
      exact hreached
    · split at h
      · cases h
        exact up_reached hreached
      · cases h

theorem foldlM_reached {segments : List String} (hreached : Reached t place)
    (h : segments.foldlM t.step place = .ok place') : Reached t place' := by
  induction segments generalizing place with
  | nil =>
    cases h
    exact hreached
  | cons segment rest ih =>
    rw [List.foldlM_cons, except_bind_ok] at h
    obtain ⟨next, hstep, hrest⟩ := h
    exact ih (step_reached hreached hstep) hrest

theorem aside_ne_notFound : aside place segment ≠ .error .notFound := by
  unfold aside
  split
  · simp
  · split <;> simp

/-- Where a segment is missing from what is there, it is a name that is missing from a directory. -/
theorem step_notFound (hreached : Reached t place) (h : t.step place segment = .error .notFound) :
    t.get? place = some .directory ∧ IsName segment ∧ t.get? (place ++ [segment]) = none := by
  have hdirectory : t.get? place = some .directory := by
    unfold step at h
    split at h
    · next hnone => exact absurd hnone hreached.here
    · cases h
    · assumption
  rw [step_directory hdirectory] at h
  split at h
  · next hname =>
    split at h
    · next hnone => exact ⟨hdirectory, hname, hnone⟩
    · cases h
  · exact absurd h aside_ne_notFound

end Walking

section Files

/-- What the file at a place holds. -/
def content? (t : FileTree) (place : Place) : Option Content :=
  match t.get? place with
  | some (.file content) => some content
  | _ => none

/-- The same files, which hold the same. Directories may differ. -/
def SameFiles (t t' : FileTree) : Prop := ∀ place, t'.content? place = t.content? place

theorem SameFiles.refl (t : FileTree) : SameFiles t t := fun _ => rfl

theorem SameFiles.trans (t t' u : FileTree) (h : SameFiles t t') (h' : SameFiles t' u) :
    SameFiles t u :=
  fun place => (h' place).trans (h place)

theorem content?_put_of_ne (h : q ≠ place) : (t.put place e).content? q = t.content? q := by
  rw [content?, content?, get?_put_of_ne h]

theorem put_directory_sameFiles (h : t.get? place = none) :
    SameFiles t (t.put place .directory) := by
  intro q
  by_cases heq : q = place
  · rw [heq, content?, content?, get?_put_self (not_ground (t := t) (by simp [h])), h]
  · exact content?_put_of_ne heq

theorem makeDirectory_ok (h : t.makeDirectory p = .ok t') : SameFiles t t' := by
  simp only [makeDirectory, except_bind_ok] at h
  obtain ⟨_, _, h⟩ := h
  split at h
  · cases h
  · next before last _ =>
    obtain ⟨parent, hparent, h⟩ := except_bind_ok.mp h
    have hreached := foldlM_reached (startOf_reached p) hparent
    split at h
    · cases h
    · next hmissing =>
      split at h
      · cases h
      · cases h
        exact put_directory_sameFiles (step_notFound hreached hmissing).2.2
    · cases h

theorem again_sameFiles (p : Path) (t : FileTree) :
    Relates SameFiles t (makeDirectories.again p) := by
  refine Relates.bind SameFiles.trans (.refl t) ?_
  rintro _ _ ⟨⟩
  split
  · next t' hmade => exact makeDirectory_ok hmade
  · refine Relates.bind SameFiles.trans (.refl t) ?_
    rintro _ _ ⟨⟩
    split <;> exact .refl t

/-- Making directories changes no file, whether all of them can be made or not. -/
theorem makeDirectories_sameFiles (depth : Nat) (p : Path) (t : FileTree) :
    Relates SameFiles t (makeDirectories depth p) := by
  induction depth generalizing p t with
  | zero => exact .refl t
  | succ depth ih =>
    unfold makeDirectories
    split
    · exact .refl t
    · refine Relates.bind SameFiles.trans (.refl t) ?_
      rintro _ _ ⟨⟩
      split
      · next t' hmade => exact makeDirectory_ok hmade
      · split
        · exact .refl t
        · exact (ih _ t).bind SameFiles.trans fun _ t' _ => again_sameFiles p t'
      · refine Relates.bind SameFiles.trans (.refl t) ?_
        rintro _ _ ⟨⟩
        split <;> exact .refl t

end Files

section Writing

variable {content : Content} {text segment : String} {place' : Place}

/-- A file in the place of a file, or of nothing, is in no way that was open before. -/
theorem step_put (hplace : t.get? place ≠ some .directory) {q q' : Place}
    (h : t.step q segment = .ok q') :
    (t.put place (.file content)).step q segment = .ok q' := by
  have hdirectory := directory_of_step_ok h
  have hne : q ≠ place := by
    rintro rfl
    exact hplace hdirectory
  rw [step_directory hdirectory] at h
  rw [step_directory ((get?_put_of_ne hne).trans hdirectory)]
  split at h
  · next hname =>
    rw [if_pos hname]
    split at h
    · cases h
    · next hsome =>
      cases h
      by_cases hdown : q ++ [segment] = place
      · rw [hdown, get?_put_self (not_ground hplace), if_neg (by simp)]
      · rw [get?_put_of_ne hdown, if_neg hsome]
  · next hname => rwa [if_neg hname]

theorem foldlM_put (hplace : t.get? place ≠ some .directory) {segments : List String} {q q' : Place}
    (h : segments.foldlM t.step q = .ok q') :
    segments.foldlM (t.put place (.file content)).step q = .ok q' := by
  induction segments generalizing q with
  | nil => exact h
  | cons segment rest ih =>
    rw [List.foldlM_cons, except_bind_ok] at h ⊢
    obtain ⟨next, hstep, hrest⟩ := h
    exact ⟨next, step_put hplace hstep, ih hrest⟩

theorem walk_ok :
    t.walk p = .ok place ↔
      checkSpelling p = .ok () ∧ p.segments.foldlM t.step (startOf p) = .ok place := by
  rw [walk, except_bind_ok]
  exact ⟨fun ⟨_, hspelled, hfold⟩ => ⟨hspelled, hfold⟩, fun ⟨hspelled, hfold⟩ =>
    ⟨(), hspelled, hfold⟩⟩

theorem walk_reached (h : t.walk p = .ok place) : Reached t place :=
  foldlM_reached (startOf_reached p) (walk_ok.mp h).2

theorem entry_ok : t.entry p = .ok (place, e) ↔ t.walk p = .ok place ∧ t.get? place = some e := by
  simp only [entry, except_bind_ok]
  constructor
  · rintro ⟨place', hwalk, h⟩
    split at h
    · next hget =>
      cases h
      exact ⟨hwalk, hget⟩
    · cases h
  · rintro ⟨hwalk, hget⟩
    exact ⟨place, hwalk, by rw [hget]⟩

/-- The segments before the last, if that says something. -/
theorem segments_of_splitEnd {segments before : List String} {last : String}
    (h : splitEnd segments = some (before, last)) (hlast : segments.getLast? ≠ some "") :
    segments = before ++ [last] := by
  unfold splitEnd at h
  split at h
  · cases h
  · next last' before' hdrop =>
    obtain ⟨rfl, rfl⟩ := Prod.mk.inj (Option.some.inj h)
    have hreverse : segments.reverse = last' :: before' := by
      rw [← hdrop]
      cases hsegments : segments.reverse with
      | nil => rfl
      | cons first rest =>
        have hfirst : first ≠ "" := by
          rintro rfl
          exact hlast (by rw [← List.head?_reverse, hsegments, List.head?_cons])
        rw [List.dropWhile_cons_of_neg (by simpa using hfirst)]
    rw [← List.reverse_reverse segments, hreverse, List.reverse_cons]

theorem foldlM_concat {before : List String} {last : String} {parent : Place}
    (h : before.foldlM t.step place = .ok parent) :
    (before ++ [last]).foldlM t.step place = t.step parent last := by
  rw [List.foldlM_append, h]
  change [last].foldlM t.step parent = _
  rw [List.foldlM_cons]
  exact bind_pure (t.step parent last)

/-- The last step of a walk. -/
theorem walk_concat {before : List String} {last : String} {parent : Place}
    (hspelled : checkSpelling p = .ok ()) (hsegments : p.segments = before ++ [last])
    (hparent : before.foldlM t.step (startOf p) = .ok parent) :
    t.walk p = t.step parent last := by
  rw [walk, hspelled, hsegments, ← foldlM_concat hparent]
  rfl

/-- A path that leads nowhere, though the directories on it are there, ends in a segment that is
missing. -/
theorem step_of_entry_notFound {before : List String} {last : String} {parent : Place}
    (hspelled : checkSpelling p = .ok ()) (hsegments : p.segments = before ++ [last])
    (hparent : before.foldlM t.step (startOf p) = .ok parent)
    (h : t.entry p = .error .notFound) : t.step parent last = .error .notFound := by
  have hwalk := walk_concat hspelled hsegments hparent
  cases hstep : t.step parent last with
  | ok place =>
    rw [hstep] at hwalk
    obtain ⟨e, he⟩ := Option.ne_none_iff_exists'.mp (walk_reached hwalk).here
    rw [entry_ok.mpr ⟨hwalk, he⟩] at h
    cases h
  | error e =>
    rw [entry, hwalk, hstep] at h
    obtain rfl := Except.error.inj h
    rfl

/-- The one place that a written file changes, which is where its path leads then. -/
theorem write_ok (h : t.write p text = .ok t') : ∃ place, t.get? place ≠ some .directory ∧
    t' = t.put place (.file (.text text)) ∧ t'.walk p = .ok place := by
  unfold write at h
  split at h
  · cases h
  · next place old hentry =>
    cases h
    obtain ⟨hwalk, hget⟩ := entry_ok.mp hentry
    have hplace : t.get? place ≠ some .directory := by simp [hget]
    obtain ⟨hspelled, hfold⟩ := walk_ok.mp hwalk
    exact ⟨place, hplace, rfl, walk_ok.mpr ⟨hspelled, foldlM_put hplace hfold⟩⟩
  · -- The file is new, and the way to it is open only now.
    next hentry =>
    obtain ⟨_, hspelled, h⟩ := except_bind_ok.mp h
    split at h
    · cases h
    · next before last hend =>
      obtain ⟨parent, hparent, h⟩ := except_bind_ok.mp h
      split at h
      · next hdirectory =>
        split at h
        · cases h
        · next hlast =>
          cases h
          have hsegments := segments_of_splitEnd hend hlast
          have hmissing := step_notFound (foldlM_reached (startOf_reached p) hparent)
            (step_of_entry_notFound hspelled hsegments hparent hentry)
          have hplace : t.get? (parent ++ [last]) ≠ some .directory := by simp [hmissing.2.2]
          refine ⟨parent ++ [last], hplace, rfl, walk_ok.mpr ⟨hspelled, ?_⟩⟩
          rw [hsegments, foldlM_concat (foldlM_put hplace hparent),
            step_directory ((get?_put_of_ne (by simp)).trans hdirectory), if_pos hmissing.2.1,
            get?_put_self (not_ground hplace), if_neg (by simp)]
      · cases h
      · cases h
  · cases h

end Writing

end FileTree

end DeviceModel
