import DeviceModel.Proofs.Layout

namespace DeviceModel

namespace Forest

/-- A parameter of a forest, with what it adds and what is below it. -/
inductive Part (p : Param) (own : Share) (below : Forest) : Forest → Prop where
  | here {rest : Forest} : Part p own below (.cons p own below rest)
  | inner {q : Param} {own' : Share} {below' rest : Forest} (part : Part p own below below') :
      Part p own below (.cons q own' below' rest)
  | next {q : Param} {own' : Share} {below' rest : Forest} (part : Part p own below rest) :
      Part p own below (.cons q own' below' rest)

theorem exists_part {f : Forest} {p : Param} (hp : p ∈ f.params) :
    ∃ own below, Part p own below f := by
  induction f with
  | nil => cases hp
  | cons q own below rest ihBelow ihRest =>
    simp only [params_cons, List.mem_cons, List.mem_append] at hp
    rcases hp with rfl | hp | hp
    · exact ⟨own, below, .here⟩
    · obtain ⟨own', below', part⟩ := ihBelow hp
      exact ⟨own', below', .inner part⟩
    · obtain ⟨own', below', part⟩ := ihRest hp
      exact ⟨own', below', .next part⟩

/-- The outermost parameters in their order. -/
theorem roots_sublist (f : Forest) : f.roots.Sublist f.params := by
  induction f with
  | nil => exact List.Sublist.refl _
  | cons p own below rest _ ih => exact (ih.trans (List.sublist_append_right _ _)).cons_cons p

/-- A parameter of a forest is outermost or right below another. -/
theorem mem_roots_or_below {f : Forest} {p : Param} (hp : p ∈ f.params) :
    p ∈ f.roots ∨ ∃ q own below, Part q own below f ∧ p ∈ below.roots := by
  induction f with
  | nil => cases hp
  | cons q own below rest ihBelow ihRest =>
    simp only [params_cons, List.mem_cons, List.mem_append] at hp
    rcases hp with rfl | hp | hp
    · left
      simp
    · right
      rcases ihBelow hp with hroot | ⟨r, own', below', part, hroot⟩
      · exact ⟨q, own, below, .here, hroot⟩
      · exact ⟨r, own', below', .inner part, hroot⟩
    · rcases ihRest hp with hroot | ⟨r, own', below', part, hroot⟩
      · left
        simp [hroot]
      · right
        exact ⟨r, own', below', .next part, hroot⟩

namespace Part

variable {p : Param} {own : Share} {below f : Forest}

/-- A parameter and those below it stand together. -/
theorem contiguous (h : Part p own below f) : p :: below.params <:+: f.params := by
  induction h with
  | @here rest => exact ⟨[], rest.params, by simp⟩
  | @inner q _ below' rest _ ih =>
    obtain ⟨before, after, he⟩ := ih
    exact ⟨q :: before, after ++ rest.params, by simp [← he]⟩
  | @next q _ below' rest _ ih =>
    obtain ⟨before, after, he⟩ := ih
    exact ⟨q :: (below'.params ++ before), after, by simp [← he]⟩

theorem mem (h : Part p own below f) : p ∈ f.params := h.contiguous.subset (by simp)

theorem mem_below (h : Part p own below f) {q : Param} (hq : q ∈ below.params) : q ∈ f.params :=
  h.contiguous.subset (by simp [hq])

theorem linked (h : Part p own below f) (hl : f.Linked) : (tree p own below).Linked := by
  induction h with
  | here => exact ⟨hl.1, hl.2.1, trivial⟩
  | inner _ ih => exact ih hl.2.1
  | next _ ih => exact ih hl.2.2

theorem children (h : Part p own below f) (hl : f.Linked) : p.children = below.entries :=
  (h.linked hl).1

end Part

end Forest

/-- How a parameter stands to what is above it. -/
structure Seat (above : Option ParamId) (path : String) (realm : Realm) (p : Param) : Prop where
  parent : p.parent = above
  fqoid : p.fqoid = path ++ "/" ++ p.oid
  realm : p.realm = realm

namespace Forest

/-- Outermost parameters stand below the given one, all others below the one that lists them. -/
def Seated : Option ParamId → String → Realm → Forest → Prop
  | _, _, _, nil => True
  | above, path, realm, cons p _ below rest =>
    Seat above path realm p ∧ Seated (some p.id) p.fqoid realm below ∧ Seated above path realm rest

namespace Seated

variable {above : Option ParamId} {path : String} {realm : Realm} {f g : Forest}

theorem append (hf : f.Seated above path realm) (hg : g.Seated above path realm) :
    (f.append g).Seated above path realm := by
  induction f with
  | nil => exact hg
  | cons p own below rest _ ih => exact ⟨hf.1, hf.2.1, ih hf.2.2⟩

theorem root (h : f.Seated above path realm) {p : Param} (hp : p ∈ f.roots) :
    Seat above path realm p := by
  induction f with
  | nil => cases hp
  | cons q own below rest _ ih =>
    rcases List.mem_cons.mp hp with rfl | hp
    · exact h.1
    · exact ih h.2.2 hp

theorem below {p : Param} {own : Share} {below : Forest} (h : f.Seated above path realm)
    (part : Part p own below f) : below.Seated (some p.id) p.fqoid realm := by
  induction part generalizing above path with
  | here => exact h.2.1
  | inner _ ih => exact ih h.2.1
  | next _ ih => exact ih h.2.2

/-- A parameter is outermost, or its parent lists it. -/
theorem lineage (h : f.Seated above path realm) (hl : f.Linked) {p : Param} (hp : p ∈ f.params) :
    (p ∈ f.roots ∧ Seat above path realm p) ∨
      ∃ q ∈ f.params, Seat (some q.id) q.fqoid realm p ∧ (p.oid, p.id) ∈ q.children := by
  rcases mem_roots_or_below hp with hroot | ⟨q, own, below, part, hroot⟩
  · left
    exact ⟨hroot, h.root hroot⟩
  · right
    refine ⟨q, part.mem, (h.below part).root hroot, ?_⟩
    rw [part.children hl]
    exact List.mem_map.mpr ⟨p, hroot, rfl⟩

/-- What a parameter lists stands below it, under its own oid. -/
theorem child (h : f.Seated above path realm) (hl : f.Linked) {p : Param} (hp : p ∈ f.params)
    {e : String × ParamId} (he : e ∈ p.children) :
    ∃ q ∈ f.params, e = (q.oid, q.id) ∧ Seat (some p.id) p.fqoid realm q := by
  obtain ⟨own, below, part⟩ := exists_part hp
  rw [part.children hl] at he
  obtain ⟨q, hroot, rfl⟩ := List.mem_map.mp he
  exact ⟨q, part.mem_below (mem_params_of_mem_roots hroot), rfl, (h.below part).root hroot⟩

theorem realm_eq (h : f.Seated above path realm) {p : Param} (hp : p ∈ f.params) :
    p.realm = realm := by
  rcases mem_roots_or_below hp with hroot | ⟨q, own, below, part, hroot⟩
  · exact (h.root hroot).realm
  · exact ((h.below part).root hroot).realm

end Seated

end Forest

namespace Resolve

section Seats

variable {source : Source} {opened : List Path} {g : Ground} {site : Site} {f : Forest}

theorem Copied.seated {realm : Realm} {parent : ParamId} {path : String} {entries : Entries ParamId}
    (h : Copied realm g parent path entries f) : f.Seated (some parent) path realm := by
  induction h with
  | nil => trivial
  | @cons g parent path key entries source p below rest known node fresh inner next ihInner
      ihNext =>
    have hid : p.id = ⟨g.count⟩ := by rw [node]; rfl
    refine ⟨⟨by rw [node]; rfl, by rw [node]; rfl, by rw [node]; rfl⟩, ?_, ihNext⟩
    rw [hid]
    exact ihInner

theorem Settled.seat {oid : String} {d : Description.Declaration} {binding : Option Binding}
    {typing : Typing} {below : Forest} {own : Share} {p : Param}
    (h : Settled g site oid d binding typing below own p) :
    Seat site.parent site.path site.realm p := by
  refine ⟨h.parent, ?_, h.realm⟩
  rw [h.fqoid, h.oid]
  rfl

theorem Grown.seated {entries : List (String × Description.Param)}
    (h : Grown source opened g site entries f) :
    f.Seated site.parent site.path site.realm := by
  induction h with
  | nil => trivial
  | cons _ _ first next => exact first.append next
  | imported _ _ _ ih => exact ih
  | templated _ _ _ _ _ _ copied _ settled =>
    refine ⟨settled.seat, ?_, trivial⟩
    rw [settled.id, settled.fqoid]
    exact copied.seated
  | composite _ _ _ _ _ _ _ _ settled ih | plain _ _ _ _ _ _ settled ih =>
    refine ⟨settled.seat, ?_, trivial⟩
    rw [settled.id, settled.fqoid]
    exact ih

/-- What grows has the names of the description, in order. -/
theorem Grown.keys {entries : List (String × Description.Param)}
    (h : Grown source opened g site entries f) :
    f.roots.map Param.oid = entries.map Prod.fst := by
  induction h with
  | nil => rfl
  | cons _ _ first next =>
    rw [Forest.roots_append, List.map_append, first, next]
    rfl
  | imported _ _ _ ih => exact ih
  | templated _ _ _ _ _ _ _ _ settled
  | composite _ _ _ _ _ _ _ _ settled
  | plain _ _ _ _ _ _ settled =>
    rw [Forest.roots_tree, List.map_cons, settled.oid]
    rfl

end Seats

section Numbers

variable {start : Nat} {p : Param} {own : Share} {below rest f : Forest}

theorem Numbered.cons (h : Numbered start (.cons p own below rest)) :
    p.id = ⟨start⟩ ∧ Numbered (start + 1) below ∧
      Numbered (start + 1 + below.params.length) rest := by
  unfold Numbered at h ⊢
  simp only [Forest.params_cons, List.map_cons, List.map_append, List.length_cons,
    List.length_append, List.range'_succ, ← List.range'_append_1, List.cons.injEq] at h
  obtain ⟨hbelow, hrest⟩ := List.append_inj h.2 (by simp)
  exact ⟨congrArg ParamId.mk h.1, hbelow, hrest⟩

/-- A parameter and those below it are numbered without a gap. -/
theorem Numbered.part (h : Numbered start f) (part : Forest.Part p own below f) :
    Numbered p.id.index (.tree p own below) := by
  induction part generalizing start with
  | here =>
    obtain ⟨hid, hbelow, _⟩ := h.cons
    rw [hid]
    exact .tree own hid hbelow
  | inner _ ih => exact ih h.cons.2.1
  | next _ ih => exact ih h.cons.2.2

/-- What a parameter lists is numbered behind it. -/
theorem Numbered.child (h : Numbered start f) (hl : f.Linked) (hp : p ∈ f.params)
    {e : String × ParamId} (he : e ∈ p.children) : p.id.index < e.2.index := by
  obtain ⟨own, below, part⟩ := Forest.exists_part hp
  rw [part.children hl] at he
  obtain ⟨q, hroot, rfl⟩ := List.mem_map.mp he
  exact ((h.part part).cons.2.1.mem (Forest.mem_params_of_mem_roots hroot)).1

end Numbers

/-- The stems that are taken. -/
def stems (g : Ground) : List String := g.idents.map Prod.fst

section Stems

variable {g : Ground} {p : Param} {own : Share} {below f : Forest}

theorem not_mem_stems {ident : String} (h : g.idents.get? ident = none) : ident ∉ stems g := by
  intro hm
  obtain ⟨e, he, rfl⟩ := List.mem_map.mp hm
  exact absurd (List.lookup_eq_none_iff.mp h e he) (by simp)

theorem stems_after (g : Ground) (f : Forest) :
    stems (g.after f) = (f.params.map Param.ident).reverse ++ stems g := by
  simp [stems, Ground.after, Function.comp_def]

/-- A parameter takes a stem that is free, and those below it take others. -/
theorem stems_tree {realm : Realm} {fqoid : String} {rule : Option Constraint}
    (hr : p.realm = realm) (hf : p.fqoid = fqoid) :
    stems (g.after (.tree p own below)) = stems ((g.enter realm fqoid rule).after below) := by
  rw [stems_after, stems_after, Forest.params_tree, List.map_cons, List.reverse_cons,
    List.append_assoc]
  subst hr hf
  rfl

theorem stems_enter {realm : Realm} {fqoid : String} {rule : Option Constraint}
    (hg : (stems g).Nodup) (fresh : g.idents.get? (Param.identOf realm fqoid) = none) :
    (stems (g.enter realm fqoid rule)).Nodup :=
  List.nodup_cons.mpr ⟨not_mem_stems fresh, hg⟩

theorem Copied.stems_nodup {realm : Realm} {parent : ParamId} {path : String}
    {entries : Entries ParamId} (h : Copied realm g parent path entries f) (hg : (stems g).Nodup) :
    (stems (g.after f)).Nodup := by
  induction h with
  | nil => rwa [Ground.after_nil]
  | @cons g parent path key entries source p below rest known node fresh inner next ihInner
      ihNext =>
    have hr : p.realm = realm := by rw [node]; rfl
    have hfresh : g.idents.get? (Param.identOf realm p.fqoid) = none := by
      rw [← hr]
      exact fresh
    have htree : (stems (g.after (.tree p {} below))).Nodup := by
      rw [stems_tree hr rfl]
      exact ihInner (stems_enter hg hfresh)
    have hrest := ihNext htree
    rwa [← Ground.after_append] at hrest

theorem Settled.stems_enter {site : Site} {oid : String} {d : Description.Declaration}
    {binding : Option Binding} {typing : Typing}
    (h : Settled g site oid d binding typing below own p) (hg : (stems g).Nodup) :
    (stems (g.enter site.realm (site.fqoid oid) own.rule)).Nodup := by
  apply Resolve.stems_enter hg
  rw [← h.realm, ← h.fqoid]
  exact h.fresh

/-- No stem is taken twice. -/
theorem Grown.stems_nodup {source : Source} {opened : List Path} {site : Site}
    {entries : List (String × Description.Param)} (h : Grown source opened g site entries f)
    (hg : (stems g).Nodup) : (stems (g.after f)).Nodup := by
  induction h with
  | nil => rwa [Ground.after_nil]
  | cons _ _ first next =>
    rw [Ground.after_append]
    exact next (first hg)
  | imported _ _ _ ih => exact ih hg
  | templated _ _ _ _ _ _ copied _ settled =>
    rw [stems_tree settled.realm settled.fqoid]
    exact copied.stems_nodup (settled.stems_enter hg)
  | composite _ _ _ _ _ _ _ _ settled ih | plain _ _ _ _ _ _ settled ih =>
    rw [stems_tree settled.realm settled.fqoid]
    exact ih (settled.stems_enter hg)

end Stems

namespace Resolved

variable {source : Source} {importRoot : Path} {description : Description.Device} {d : Device}
  {shared : List Constraint} {params commands : Forest}
  (h : Resolved source importRoot description d shared params commands)

include h

theorem linked : (params.append commands).Linked :=
  h.params_grown.linked.append h.commands_grown.linked

theorem mem_nodes {p : Param} : p ∈ d.nodes ↔ p ∈ (params.append commands).params := by
  rw [← Array.mem_toList_iff, h.nodes, Forest.params_append]

/-- A parameter is outermost, or its parent lists it. -/
theorem lineage {p : Param} (hp : p ∈ (params.append commands).params) :
    (p ∈ (params.append commands).roots ∧ Seat none "" p.realm p) ∨
      ∃ q ∈ (params.append commands).params, Seat (some q.id) q.fqoid q.realm p ∧
        (p.oid, p.id) ∈ q.children := by
  have hparams := h.params_grown.seated
  have hcommands := h.commands_grown.seated
  simp only [Forest.params_append, Forest.roots_append, List.mem_append] at hp ⊢
  rcases hp with hp | hp
  · rcases hparams.lineage h.params_grown.linked hp with ⟨hroot, seat⟩ | ⟨q, hq, seat, hlisted⟩
    · exact .inl ⟨.inl hroot, by rw [hparams.realm_eq hp]; exact seat⟩
    · exact .inr ⟨q, .inl hq, by rw [hparams.realm_eq hq]; exact seat, hlisted⟩
  · rcases hcommands.lineage h.commands_grown.linked hp with ⟨hroot, seat⟩ | ⟨q, hq, seat, hlisted⟩
    · exact .inl ⟨.inr hroot, by rw [hcommands.realm_eq hp]; exact seat⟩
    · exact .inr ⟨q, .inr hq, by rw [hcommands.realm_eq hq]; exact seat, hlisted⟩

/-- What a parameter lists stands below it, under its own oid. -/
theorem child {p : Param} (hp : p ∈ (params.append commands).params) {e : String × ParamId}
    (he : e ∈ p.children) :
    ∃ q ∈ (params.append commands).params, e = (q.oid, q.id) ∧
      Seat (some p.id) p.fqoid p.realm q := by
  have hparams := h.params_grown.seated
  have hcommands := h.commands_grown.seated
  simp only [Forest.params_append, List.mem_append] at hp ⊢
  rcases hp with hp | hp
  · obtain ⟨q, hq, rfl, seat⟩ := hparams.child h.params_grown.linked hp he
    exact ⟨q, .inl hq, rfl, by rw [hparams.realm_eq hp]; exact seat⟩
  · obtain ⟨q, hq, rfl, seat⟩ := hcommands.child h.commands_grown.linked hp he
    exact ⟨q, .inr hq, rfl, by rw [hcommands.realm_eq hp]; exact seat⟩

/-- Different parameters have different stems. -/
theorem stems_nodup : ((params.append commands).params.map Param.ident).Nodup := by
  have hstems := h.commands_grown.stems_nodup (h.params_grown.stems_nodup (by simp [stems, start]))
  rw [← Ground.after_append, stems_after] at hstems
  exact (List.reverse_perm _).nodup_iff.mp (List.nodup_append.mp hstems).1

end Resolved

end Resolve

end DeviceModel
