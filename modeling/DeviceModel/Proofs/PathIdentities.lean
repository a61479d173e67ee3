import DeviceModel.Proofs.Siblings
import DeviceModel.Source.Documents

namespace DeviceModel

namespace Text

variable {sep : Char}

/-- Text that is put together from fields is cut into them again. -/
theorem split_join {parts : List String} (hne : parts ≠ []) (hparts : ∀ p ∈ parts, sep ∉ p.toList) :
    split sep (join (String.singleton sep) parts) = parts := by
  induction parts with
  | nil => exact absurd rfl hne
  | cons first rest ih =>
    have hfirst := hparts first List.mem_cons_self
    cases rest with
    | nil => simp [split, join, fields_of_not_mem hfirst]
    | cons next rest =>
      have hrest := ih (List.cons_ne_nil next rest) fun p hp => hparts p (List.mem_cons_of_mem _ hp)
      have htext : (join (String.singleton sep) (first :: next :: rest)).toList =
          first.toList ++ sep :: (join (String.singleton sep) (next :: rest)).toList := by
        simp [join, String.intercalate_cons_cons]
      rw [split] at hrest
      rw [split, htext, fields_append hfirst, List.map_cons, hrest, String.ofList_toList]

end Text

namespace Path

/-- A segment that is the name of something. -/
def IsName (s : String) : Prop := s ≠ "" ∧ s ≠ "." ∧ s ≠ ".." ∧ '/' ∉ s.toList

theorem component?_of_isName {s : String} (h : IsName s) : component? s = some (.name s) := by
  rw [component?, if_neg (by simp [h.1, h.2.1]), if_neg h.2.2.1]

/-- A segment says nothing, leads up, or is a name. -/
theorem component?_cases {s : String} (hs : '/' ∉ s.toList) :
    component? s = none ∨ component? s = some .parent ∨ IsName s ∧
      component? s = some (.name s) := by
  by_cases hvoid : s = "" ∨ s = "."
  · exact .inl (by rw [component?, if_pos (by simpa using hvoid)])
  · by_cases hup : s = ".."
    · exact .inr (.inl (by rw [hup]; rfl))
    · obtain ⟨hempty, hdot⟩ := not_or.mp hvoid
      have hname : IsName s := ⟨hempty, hdot, hup, hs⟩
      exact .inr (.inr ⟨hname, component?_of_isName hname⟩)

section Walking

/-- Segments, taken one after the other from a stack of components. -/
def climb (out : List Component) (segments : List String) : List Component :=
  (segments.filterMap component?).foldl push out

theorem climb_append (out : List Component) (segments others : List String) :
    climb out (segments ++ others) = climb (climb out segments) others := by
  rw [climb, List.filterMap_append, List.foldl_append]
  rfl

/-- What is there before the first segment. -/
def ground (absolute : Bool) : List Component := if absolute then [.root] else []

/-- The components that a path comes to, the last one first. -/
def stack (p : Path) : List Component := climb (ground p.isAbsolute) p.segments

theorem slash_not_mem_segments {p : Path} : ∀ s ∈ p.segments, '/' ∉ s.toList := by
  intro s hs
  obtain ⟨f, hf, rfl⟩ := List.mem_map.mp hs
  simpa using Text.sep_not_mem_fields f hf

/-- A path from the root has nothing before its first slash. -/
theorem segments_of_isAbsolute {p : Path} (h : p.isAbsolute = true) :
    ∃ rest, p.segments = "" :: rest := by
  cases htext : p.text.toList with
  | nil => simp [isAbsolute, startsAtRoot, htext] at h
  | cons c cs =>
    have hc : c = '/' := by simpa [isAbsolute, startsAtRoot, htext] using h
    refine ⟨(Text.fields '/' cs).map String.ofList, ?_⟩
    rw [segments, Text.split, htext, hc, ← List.nil_append ('/' :: cs),
      Text.fields_append (by simp)]
    rfl

/-- The component that is not told by a segment alone. -/
def lead (p : Path) : List Component :=
  if p.isAbsolute then [.root] else if p.segments.head? = some "." then [.current] else []

theorem components_eq (p : Path) : p.components = p.lead ++ p.segments.filterMap component? := by
  unfold components lead
  cases habsolute : p.isAbsolute with
  | true =>
    obtain ⟨rest, hsegments⟩ := segments_of_isAbsolute habsolute
    simp [hsegments, component?]
  | false =>
    cases hsegments : p.segments with
    | nil => rfl
    | cons first rest =>
      by_cases hdot : first = "."
      · simp [hdot, component?]
      · cases hfirst : component? first <;> simp [hdot, hfirst]

/-- The root is at the bottom of the stack, and a leading dot is not on it. -/
theorem foldl_components (p : Path) : p.components.foldl push [] = p.stack := by
  rw [components_eq, List.foldl_append, stack, climb]
  congr 1
  unfold lead ground
  split
  · rfl
  · split <;> rfl

theorem normalize_eq (p : Path) : p.normalize = ofComponents p.stack.reverse := by
  rw [normalize, foldl_components]

end Walking

section NormalForms

/-- Components of a normal form: names, behind the root or not. -/
def spelled (absolute : Bool) (names : List String) : List Component :=
  ground absolute ++ names.map .name

theorem push_parent_spelled (absolute : Bool) (names : List String) :
    push (spelled absolute names).reverse .parent = (spelled absolute names.dropLast).reverse := by
  cases names using List.reverseRecOn with
  | nil => cases absolute <;> rfl
  | append_singleton before last => simp [spelled, push]

theorem push_name_spelled (absolute : Bool) (names : List String) (s : String) :
    push (spelled absolute names).reverse (.name s) =
      (spelled absolute (names ++ [s])).reverse := by
  simp [spelled, push]

/-- Whatever segments are taken, there are names on the stack, on what was there before the
first. -/
theorem climb_spelled {absolute : Bool} {names segments : List String}
    (hnames : ∀ n ∈ names, IsName n) (hsegments : ∀ s ∈ segments, '/' ∉ s.toList) :
    ∃ names', (∀ n ∈ names', IsName n) ∧
      climb (spelled absolute names).reverse segments = (spelled absolute names').reverse := by
  induction segments generalizing names with
  | nil => exact ⟨names, hnames, rfl⟩
  | cons s rest ih =>
    have hrest : ∀ s ∈ rest, '/' ∉ s.toList := fun s hs => hsegments s (List.mem_cons_of_mem _ hs)
    rcases component?_cases (hsegments s List.mem_cons_self) with hs | hs | ⟨hname, hs⟩
    · obtain ⟨names', hnames', hclimb⟩ := ih hnames hrest
      exact ⟨names', hnames', by simpa [climb, hs] using hclimb⟩
    · obtain ⟨names', hnames', hclimb⟩ :=
        ih (fun n hn => hnames n (List.dropLast_subset _ hn)) hrest
      refine ⟨names', hnames', ?_⟩
      rw [← hclimb, ← push_parent_spelled]
      simp [climb, hs]
    · have hmore : ∀ n ∈ names ++ [s], IsName n := by
        simpa [or_imp, forall_and] using ⟨hnames, hname⟩
      obtain ⟨names', hnames', hclimb⟩ := ih hmore hrest
      refine ⟨names', hnames', ?_⟩
      rw [← hclimb, ← push_name_spelled]
      simp [climb, hs]

theorem stack_spelled (p : Path) :
    ∃ names, (∀ n ∈ names, IsName n) ∧ p.stack = (spelled p.isAbsolute names).reverse := by
  have hground : ground p.isAbsolute = (spelled p.isAbsolute []).reverse := by
    cases p.isAbsolute <;> rfl
  rw [stack, hground]
  exact climb_spelled (by simp) slash_not_mem_segments

/-- Names are put on the stack as they come. -/
theorem foldl_push_spelled (absolute : Bool) (names : List String) :
    (spelled absolute names).foldl push [] = (spelled absolute names).reverse := by
  induction names using List.reverseRecOn with
  | nil => cases absolute <;> rfl
  | append_singleton before last ih =>
    rw [← push_name_spelled, ← ih]
    simp [spelled]

theorem ofComponents_spelled (absolute : Bool) (first : String) (rest : List String) :
    ofComponents (spelled absolute (first :: rest)) =
      ⟨Text.join (String.singleton '/') ((if absolute then [""] else []) ++ first :: rest)⟩ := by
  have hrest : rest.map (componentText ∘ Component.name) = rest := List.map_id'' (fun _ => rfl) rest
  cases absolute <;> simp [ofComponents, spelled, ground, componentText, hrest]

/-- A normal form is cut into its names, with an empty segment where the root is or where no name
is. -/
theorem segments_ofComponents {absolute : Bool} {names : List String} (h : ∀ n ∈ names, IsName n) :
    (ofComponents (spelled absolute names)).segments =
      (if absolute then [""] else []) ++ if names = [] then [""] else names := by
  cases names with
  | nil => cases absolute <;> rfl
  | cons first rest =>
    rw [if_neg (List.cons_ne_nil first rest), ofComponents_spelled, segments]
    apply Text.split_join (by simp)
    intro s hs
    rcases List.mem_append.mp hs with hs | hs
    · cases absolute <;> simp_all
    · exact (h s hs).2.2.2

theorem isAbsolute_ofComponents {absolute : Bool} {names : List String}
    (h : ∀ n ∈ names, IsName n) :
    (ofComponents (spelled absolute names)).isAbsolute = absolute := by
  cases names with
  | nil => cases absolute <;> rfl
  | cons first rest =>
    have hfirst := h first List.mem_cons_self
    have hhead : first.toList.head? ≠ some '/' := fun he => hfirst.2.2.2 (List.mem_of_mem_head? he)
    have hne : first.toList ≠ [] := by simpa using hfirst.1
    have hstart : (Text.join (String.singleton '/') (first :: rest)).toList.head? =
        first.toList.head? := by
      cases rest with
      | nil => simp [Text.join]
      | cons next rest =>
        rw [Text.join, String.intercalate_cons_cons, String.toList_append, String.toList_append,
          List.append_assoc, List.head?_append_of_ne_nil _ hne]
    rw [ofComponents_spelled, isAbsolute, startsAtRoot]
    cases absolute with
    | true => simp [Text.join, String.intercalate_cons_cons]
    | false =>
      rw [beq_eq_false_iff_ne]
      exact hstart ▸ hhead

/-- The components that a normal form spells are read off it again. -/
theorem components_ofComponents {absolute : Bool} {names : List String}
    (h : ∀ n ∈ names, IsName n) :
    (ofComponents (spelled absolute names)).components = spelled absolute names := by
  have hnames : names.filterMap component? = names.map .name := by
    rw [← List.filterMap_eq_map']
    exact List.filterMap_congr fun n hn => component?_of_isName (h n hn)
  rw [components, segments_ofComponents h, isAbsolute_ofComponents h]
  cases names with
  | nil => cases absolute <;> rfl
  | cons first rest =>
    have hfirst := h first List.mem_cons_self
    cases absolute with
    | true => simpa [spelled, ground] using hnames
    | false =>
      rw [List.filterMap_cons_some (component?_of_isName hfirst)] at hnames
      simpa [spelled, ground, hfirst.2.1, component?_of_isName hfirst] using hnames

theorem components_normalize (p : Path) : p.normalize.components = p.stack.reverse := by
  obtain ⟨names, hnames, hstack⟩ := p.stack_spelled
  rw [normalize_eq, hstack, List.reverse_reverse, components_ofComponents hnames]

/-- A normal form leads where its path leads. -/
theorem stack_normalize (p : Path) : p.normalize.stack = p.stack := by
  obtain ⟨names, hnames, hstack⟩ := p.stack_spelled
  rw [← foldl_components, components_normalize, hstack, List.reverse_reverse, foldl_push_spelled]

theorem normalize_eq_iff {p q : Path} : p.normalize = q.normalize ↔ p.stack = q.stack := by
  constructor
  · intro h
    rw [← p.stack_normalize, h, q.stack_normalize]
  · intro h
    rw [normalize_eq, h, ← normalize_eq]

end NormalForms

section Joining

/-- What is seen from a path is walked from where the path leads. -/
theorem stack_join (p : Path) {q : String} (hq : startsAtRoot q = false) :
    (p.join q).stack = climb p.stack (Text.split '/' q) := by
  by_cases hempty : p.text = ""
  · have hp : p = ⟨""⟩ := by cases p; exact congrArg _ hempty
    have hjoin : p.join q = ⟨q⟩ := by simp [join, hempty]
    have hstack : stack ⟨""⟩ = [] := rfl
    rw [hjoin, hp, hstack, stack, isAbsolute, hq]
    rfl
  · -- a slash stands between the two, that of the path or one that is put there
    obtain ⟨cs, hcs, hp⟩ : ∃ cs, (p.join q).text.toList = cs ++ '/' :: q.toList ∧
        (p.text.toList = cs ∨ p.text.toList = cs ++ ['/']) := by
      by_cases hlast : p.text.toList.getLast? = some '/'
      · obtain ⟨cs, hcs⟩ := List.getLast?_eq_some_iff.mp hlast
        exact ⟨cs, by simp [join, hq, hempty, hcs], .inr hcs⟩
      · exact ⟨p.text.toList, by simp [join, hq, hempty, hlast], .inl rfl⟩
    have habsolute : (p.join q).isAbsolute = p.isAbsolute := by
      rw [isAbsolute, isAbsolute, startsAtRoot, startsAtRoot, hcs]
      rcases hp with hp | hp
      · have hne : cs ≠ [] := by
          rw [← hp]
          simpa using hempty
        rw [hp, List.head?_append_of_ne_nil _ hne]
      · rw [hp]
        cases cs <;> rfl
    have hsegments : (p.join q).segments = (Text.fields '/' cs).map String.ofList ++
        Text.split '/' q := by
      rw [segments, Text.split, hcs, Text.fields_append_sep, List.map_append]
      rfl
    rw [stack, habsolute, hsegments, climb_append]
    congr 1
    rcases hp with hp | hp
    · rw [stack, segments, Text.split, hp]
    · rw [stack, segments, Text.split, hp, Text.fields_append_sep, List.map_append, climb_append]
      rfl

theorem normalize_normalize (p : Path) : p.normalize.normalize = p.normalize :=
  normalize_eq_iff.mpr p.stack_normalize

/-- A path may be taken for its normal form before something is seen from it. -/
theorem normalize_join (p q : Path) :
    (p.join q.text).normalize = (p.normalize.join q.text).normalize := by
  cases hq : startsAtRoot q.text with
  | true => simp [join, hq]
  | false => rw [normalize_eq_iff, stack_join p hq, stack_join p.normalize hq, stack_normalize]

/-- Only the root and names are left. -/
theorem mem_components_normalize {p : Path} {c : Component} (h : c ∈ p.normalize.components) :
    c ≠ .current ∧ c ≠ .parent := by
  obtain ⟨names, _, hstack⟩ := p.stack_spelled
  rw [components_normalize, hstack, List.reverse_reverse, spelled, List.mem_append] at h
  rcases h with h | h
  · cases hp : p.isAbsolute <;> simp_all [ground]
  · obtain ⟨n, _, rfl⟩ := List.mem_map.mp h
    simp

/-- Normal forms are the same text if they have the same components. -/
theorem normalize_eq_iff_components {p q : Path} :
    p.normalize = q.normalize ↔ p.normalize.components = q.normalize.components := by
  rw [normalize_eq_iff, components_normalize, components_normalize, List.reverse_inj]

end Joining

end Path

namespace Documents

variable {files : List (String × String)} {p q : Path} {text : String}

/-- Under a path that is put in there is its text; under others there is what was there. -/
theorem find?_insert (d : Documents) (p q : Path) (text : String) :
    (d.insert p text).find? q = if p.normalize = q.normalize then some text else d.find? q := by
  rw [insert, find?, find?, List.lookup_cons]
  by_cases h : p.normalize = q.normalize
  · simp [h]
  · rw [if_neg h, beq_false_of_ne (Ne.symm h)]
    dsimp only
    induction d.entries with
    | nil => rfl
    | cons e rest ih =>
      by_cases he : e.1 = p.normalize
      · rw [List.filter_cons_of_neg (by simp [he]), ih, List.lookup_cons, he,
          beq_false_of_ne (Ne.symm h)]
      · rw [List.filter_cons_of_pos (by simp [he]), List.lookup_cons, List.lookup_cons, ih]

/-- What is found is the last text that was put in under the path. -/
theorem find?_ofList (files : List (String × String)) (p : Path) :
    (ofList files).find? p =
      (files.reverse.find? fun e => (Path.mk e.1).normalize = p.normalize).map Prod.snd := by
  induction files using List.reverseRecOn with
  | nil => rfl
  | append_singleton files e ih =>
    have hlast : ofList (files ++ [e]) = (ofList files).insert ⟨e.1⟩ e.2 := by
      rw [ofList, List.foldl_append]
      rfl
    rw [hlast, find?_insert, ih, List.reverse_concat]
    by_cases h : (Path.mk e.1).normalize = p.normalize
    · simp [h]
    · simp [h]

/-- The text is the last that is put in under the path, however the path is spelled. -/
def LastUnder (files : List (String × String)) (p : Path) (text : String) : Prop :=
  ∃ before path after, files = before ++ (path, text) :: after ∧
    (Path.mk path).normalize = p.normalize ∧
    ∀ e ∈ after, (Path.mk e.1).normalize ≠ p.normalize

theorem find?_ofList_iff : (ofList files).find? p = some text ↔ LastUnder files p text := by
  rw [find?_ofList, Option.map_eq_some_iff]
  constructor
  · rintro ⟨⟨path, text⟩, hfind, rfl⟩
    obtain ⟨hsame, after, before, hfiles, hafter⟩ := List.find?_eq_some_iff_append.mp hfind
    refine ⟨before.reverse, path, after.reverse, ?_, by simpa using hsame, ?_⟩
    · rw [← List.reverse_reverse files, hfiles]
      simp
    · intro e he
      simpa using hafter e (List.mem_reverse.mp he)
  · rintro ⟨before, path, after, rfl, hsame, hafter⟩
    refine ⟨(path, text), List.find?_eq_some_iff_append.mpr ⟨by simpa using hsame, ?_⟩, rfl⟩
    refine ⟨after.reverse, before.reverse, by simp, ?_⟩
    intro e he
    simpa using hafter e (List.mem_reverse.mp he)

theorem contains_ofList_iff :
    (ofList files).contains p = true ↔ ∃ e ∈ files, (Path.mk e.1).normalize = p.normalize := by
  rw [contains, find?_ofList, Option.isSome_map, List.find?_isSome]
  simp

theorem read_ok_iff {d : Documents} : d.read p = .ok text ↔ d.find? p = some text := by
  rw [read]
  cases d.find? p <;> simp

theorem identify_ok_iff {d : Documents} :
    d.identify p = .ok q ↔ d.contains p = true ∧ p.normalize = q := by
  rw [identify]
  cases d.contains p <;> simp

/-- Whether there is a document or not, its identity says which one is meant. -/
theorem normalize_of_identify_eq {d : Documents} (h : d.identify p = d.identify q) :
    p.normalize = q.normalize := by
  cases hp : d.contains p <;> cases hq : d.contains q <;> simp [identify, hp, hq] at h <;> exact h

end Documents

/-- What normal forms are good for: they are reached in one step, have only names behind the root,
and may stand for their paths. -/
structure NormalForms : Prop where
  stable : ∀ p : Path, p.normalize.normalize = p.normalize
  plain : ∀ p : Path, ∀ c ∈ p.normalize.components, c ≠ .current ∧ c ≠ .parent
  joined : ∀ p q : Path, (p.join q.text).normalize = (p.normalize.join q.text).normalize
  /-- Texts of normal forms differ only if their components do. -/
  told : ∀ p q : Path, p.normalize = q.normalize ↔ p.normalize.components = q.normalize.components

/-- Documents that are put in one after the other are found by the normal forms of their paths. -/
structure HeldByNormalForm (files : List (String × String)) : Prop where
  contained : ∀ p, (Documents.ofList files).source.contains p = true ↔
    ∃ e ∈ files, (Path.mk e.1).normalize = p.normalize
  readable : ∀ p, (Documents.ofList files).source.contains p = true ↔
    ∃ text, (Documents.ofList files).source.read p = .ok text
  identified : ∀ p, (Documents.ofList files).source.contains p = true ↔
    ∃ i, (Documents.ofList files).source.identify p = .ok i
  read : ∀ p text, (Documents.ofList files).source.read p = .ok text ↔
    Documents.LastUnder files p text
  identity : ∀ p i, (Documents.ofList files).source.identify p = .ok i → i = p.normalize
  congruent : ∀ p q, (Documents.ofList files).source.identify p =
    (Documents.ofList files).source.identify q →
    (Documents.ofList files).source.read p = (Documents.ofList files).source.read q

theorem paths_knownByNormalForm : NormalForms ∧ ∀ files, HeldByNormalForm files := by
  refine ⟨⟨Path.normalize_normalize, fun _ _ => Path.mem_components_normalize, Path.normalize_join,
    fun _ _ => Path.normalize_eq_iff_components⟩, fun files => ?_⟩
  constructor
  case contained => exact fun p => Documents.contains_ofList_iff
  case readable =>
    intro p
    simp only [Documents.source, Documents.read_ok_iff]
    rw [Documents.contains, Option.isSome_iff_exists]
  case identified =>
    intro p
    simp [Documents.source, Documents.identify_ok_iff]
  case read => exact fun p text => Documents.read_ok_iff.trans Documents.find?_ofList_iff
  case identity => exact fun p i h => (Documents.identify_ok_iff.mp h).2.symm
  case congruent =>
    intro p q h
    have hsame := Documents.normalize_of_identify_eq h
    simp only [Documents.source, Documents.read, Documents.find?, hsame]

/-- One document under two spellings of its path. -/
def respelled : List (String × String) :=
  [("/m/a.json", "first"), ("/m/x/..//a.json", "second"), ("/m/b.json", "other")]

theorem respelled_lastRead :
    (Documents.ofList respelled).source.read ⟨"/../m/./a.json"⟩ = .ok "second" ∧
      (Documents.ofList respelled).source.identify ⟨"/../m/./a.json"⟩ = .ok ⟨"/m/a.json"⟩ := by
  have hheld := paths_knownByNormalForm.2 respelled
  have hlast : Documents.LastUnder respelled ⟨"/../m/./a.json"⟩ "second" :=
    ⟨[("/m/a.json", "first")], "/m/x/..//a.json", [("/m/b.json", "other")],
      rfl, by decide +kernel, by decide +kernel⟩
  have hread := (hheld.read _ _).mpr hlast
  obtain ⟨i, hi⟩ := (hheld.identified _).mp ((hheld.readable _).mpr ⟨_, hread⟩)
  have hnormal : (Path.mk "/../m/./a.json").normalize = ⟨"/m/a.json"⟩ := by decide +kernel
  refine ⟨hread, ?_⟩
  rw [hi, hheld.identity _ _ hi, hnormal]

end DeviceModel
