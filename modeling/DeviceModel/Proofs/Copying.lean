import DeviceModel.Proofs.ProgressInvariant

namespace DeviceModel.Resolve

/-- What is below a parameter has been added: its children are entered in it, they are at the end of
the arena, and some types have come with them. -/
structure Sprouted (s s' : Progress) (g : Ground) (id : ParamId) (p : Param) (below : Forest)
    (added : List TypeDecl) : Prop where
  stands : Stands s' { g.after below with types := g.types ++ (below.types ++ added) }
  nodes : s'.device.nodes.toList =
    s.device.nodes.toList.set id.index { p with children := below.entries } ++ below.params
  frame : SameFrame s.device s'.device

/-- Entering its children in a parameter that is not finished. -/
theorem Sprouted.of_grew {s t : Progress} {g : Ground} {id : ParamId} {p : Param} {below : Forest}
    (grew : Grew s t g below) (hp : s.device.param? id = some p) (open' : ∀ q ∈ g.known, q.id ≠ id)
    (numbered : Numbered g.count below) (hs : Stands s g) :
    Sprouted s (withChanged t id { p with children := below.entries }) g id p below [] where
  stands := by
    have hlt : id.index < g.count := by
      rw [← hs.count]
      exact (Array.getElem?_eq_some_iff.mp hp).1
    have hstands := grew.stands.change id { p with children := below.entries } (by
      intro q hq
      rcases List.mem_append.mp hq with hq | hq
      · exact open' q hq
      · have hn := (numbered.mem hq).1
        rintro rfl
        omega)
    simpa [Ground.after] using hstands
  nodes := by
    have hlt : id.index < s.device.nodes.toList.length := by
      simpa using (Array.getElem?_eq_some_iff.mp hp).1
    simp only [withChanged, Array.toList_setIfInBounds, grew.nodes]
    rw [List.set_append_left _ _ hlt]
  frame := grew.frame.trans rfl

/-- Where the children of an entered parameter are added, it stands in the arena with them. -/
theorem Sprouted.param? {s s' : Progress} {g : Ground} {id : ParamId} {p : Param} {below : Forest}
    {added : List TypeDecl} (h : Sprouted s s' g id p below added)
    (hp : s.device.param? id = some p) :
    s'.device.param? id = some { p with children := below.entries } := by
  have hlt : id.index < s.device.nodes.toList.length := by
    simpa using (Array.getElem?_eq_some_iff.mp hp).1
  rw [Device.param?, ← Array.getElem?_toList, h.nodes,
    List.getElem?_append_left (by simpa using hlt), List.getElem?_set_self hlt]

/-- Children that are added leave every oid as it is. -/
theorem Sprouted.located {s s' : Progress} {g : Ground} {id : ParamId} {p : Param} {below : Forest}
    {added : List TypeDecl} {site : Site} (h : Sprouted s s' g id p below added)
    (hp : s.device.param? id = some p) (hsite : Located s site) : Located s' site := by
  apply hsite.mono
  intro i q hq
  by_cases hi : i = id
  · subst hi
    cases Option.some.inj (hq.symm.trans hp)
    exact ⟨_, h.param? hp, rfl⟩
  · have hne : id.index ≠ i.index := fun he => hi (congrArg ParamId.mk he.symm)
    rw [Device.param?, ← Array.getElem?_toList] at hq
    have hlt := (List.getElem?_eq_some_iff.mp hq).1
    refine ⟨q, ?_, rfl⟩
    rw [Device.param?, ← Array.getElem?_toList, h.nodes,
      List.getElem?_append_left (by simpa using hlt), List.getElem?_set_ne hne, hq]

variable {s s' : Progress} {g : Ground}

/-- What copying below one parameter does. -/
def CopiesBelow (copy : ParamId → ParamId → Resolve Unit) : Prop :=
  ∀ {s s' : Progress} {g : Ground} {target : ParamId} {p source : Param} {u : Unit}, Stands s g →
    s.device.param? target = some p → p.id = target → (∀ q ∈ g.known, q.id ≠ target) →
      source ∈ g.known →
    (copy target source.id).run s = .ok u s' →
    ∃ f, Copied p.realm g target p.fqoid source.children f ∧ Sprouted s s' g target p f []

/-- A copy of a finished parameter is entered, then those below it, and then it is finished too. -/
theorem copyChild_grew {copy : ParamId → ParamId → Resolve Unit} (hc : CopiesBelow copy)
    {target : ParamId} {parent source : Param} {e : String × ParamId} (hs : Stands s g)
    (hparent : s.device.param? target = some parent) (known : source ∈ g.known)
    (h : (copyChild copy target source.id).run s = .ok e s') :
    ∃ p below, p = graft source parent.id parent.fqoid parent.realm ⟨g.count⟩ below.entries ∧
      g.idents.get? p.ident = none ∧
      Copied parent.realm (g.enter parent.realm p.fqoid none) ⟨g.count⟩ p.fqoid source.children
        below ∧
      e = (p.oid, p.id) ∧ Grew s s' g (.tree p {} below) := by
  simp only [copyChild, bind_ok, param_ok, enterParam_ok, register_ok, pure_ok] at h
  obtain ⟨_, _, ⟨hparent', rfl⟩, _, _, ⟨hsource, rfl⟩, _, _, ⟨rfl, fresh, rfl⟩, _, t, hcopy, _, _,
    ⟨q, hq, rfl⟩, q', _, ⟨hq', rfl⟩, rfl, rfl⟩ := h
  cases Option.some.inj (hparent.symm.trans hparent')
  cases Option.some.inj (hsource.symm.trans (hs.known source known))
  rw [hs.count] at hcopy hq hq' ⊢
  let entered : Param := { placed source parent with id := ⟨g.count⟩ }
  have hentered : (withEntered s (placed source parent)).device.param? ⟨g.count⟩ = some entered :=
    hs.param?_enter _
  obtain ⟨below, copied, sprouted⟩ := hc (hs.enter (placed source parent)) hentered rfl
    (by
      intro q hq he
      have hlt := hs.index_lt hq
      rw [he] at hlt
      exact Nat.lt_irrefl _ hlt)
    known hcopy
  -- What is registered and read back is the copy with its children.
  have hfinished := sprouted.param? hentered
  cases Option.some.inj (hq.symm.trans hfinished)
  rw [withFinished_device, hfinished] at hq'
  cases hq'
  let p := graft source parent.id parent.fqoid parent.realm ⟨g.count⟩ below.entries
  refine ⟨p, below, rfl, ?_, copied, rfl, ?_⟩
  · rw [← hs.idents]
    exact fresh
  · refine Grew.finish (p := p) sprouted.stands ?_ hs.count rfl (sprouted.frame)
    have hlast : (withEntered s (placed source parent)).device.nodes.toList =
        s.device.nodes.toList ++ [entered] := by
      simp [withEntered, withIdent, withParam, entered, hs.count]
    have hlen : g.count = s.device.nodes.toList.length := by rw [Array.length_toList, hs.count]
    rw [sprouted.nodes, hlast, List.set_append_right _ _ (by simp [hlen])]
    simp [hlen, p, entered, graft, placed]

/-- Copies of the children of a finished parameter, one after the other. -/
theorem copyEach_grew {copy : ParamId → ParamId → Resolve Unit} (hc : CopiesBelow copy)
    {target : ParamId} {parent : Param} {entries ids : Entries ParamId} (hs : Stands s g)
    (hparent : s.device.param? target = some parent)
    (he : ∀ e ∈ entries, ∃ q ∈ g.known, q.id = e.2)
    (h : (entries.mapM fun e => copyChild copy target e.2).run s = .ok ids s') :
    ∃ f, Copied parent.realm g parent.id parent.fqoid entries f ∧ ids = f.entries ∧
      Grew s s' g f := by
  induction entries generalizing s g ids with
  | nil =>
    rw [List.mapM_nil] at h
    obtain ⟨rfl, rfl⟩ := pure_ok.mp h
    exact ⟨.nil, .nil, rfl, .nil hs⟩
  | cons e entries next =>
    obtain ⟨key, child⟩ := e
    obtain ⟨source, known, rfl⟩ := he (key, child) (by simp)
    simp only [List.mapM_cons, bind_ok, pure_ok] at h
    obtain ⟨_, t, hfirst, ids', _, hrest, rfl, rfl⟩ := h
    obtain ⟨p, below, node, fresh, inner, rfl, grew⟩ := copyChild_grew hc hs hparent known hfirst
    obtain ⟨rest, copied, rfl, grew'⟩ := next grew.stands (grew.param? hparent) (by
      intro e hm
      obtain ⟨q, hq, hi⟩ := he e (by simp [hm])
      exact ⟨q, by simp [hq], hi⟩) hrest
    exact ⟨.cons p {} below rest, .cons known node fresh inner copied, rfl, grew.append grew'⟩

/-- Copying the tree below a finished parameter, however deep. -/
theorem copyChildren_copies (depth : Nat) : CopiesBelow (copyChildren depth) := by
  induction depth with
  | zero =>
    intro s s' g target p source u _ _ _ _ _ h
    exact (throw_ok.mp h).elim
  | succ depth ih =>
    intro s s' g target p source u hs hp hid open' known h
    simp only [copyChildren, bind_ok, param_ok, updateParam_ok] at h
    obtain ⟨_, _, ⟨hsource, rfl⟩, children, t, hcopies, q, hq, rfl⟩ := h
    cases Option.some.inj (hsource.symm.trans (hs.known source known))
    obtain ⟨f, copied, rfl, grew⟩ := copyEach_grew ih hs hp (hs.closed source known) hcopies
    cases Option.some.inj (hq.symm.trans (grew.param? hp))
    rw [hid] at copied
    exact ⟨f, copied, .of_grew grew hp open' copied.numbered hs⟩

end DeviceModel.Resolve
