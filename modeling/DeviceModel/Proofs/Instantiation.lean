import DeviceModel.Proofs.NoDanglingIndex
import DeviceModel.Proofs.Replicas

namespace DeviceModel

namespace Resolve

variable {α β : Type} {s t u : Progress} {changing : Option ParamId}

/-- Where a run ends, well or not. -/
def reached : Result α → Progress
  | .ok _ t => t
  | .error _ t => t

/-- All parameters are as they were, but that one may have other children. No constraint and no type
is new. -/
structure Keeps (changing : Option ParamId) (s t : Progress) : Prop where
  params : ∀ id p, s.device.param? id = some p →
    ∃ children, t.device.param? id = some { p with children } ∧
      (changing ≠ some id → children = p.children)
  constraints : t.device.constraints = s.device.constraints
  types : t.device.types = s.device.types

namespace Keeps

theorem of_device (h : t.device = s.device) : Keeps changing s t where
  params := by
    intro id p hp
    rw [h]
    exact ⟨p.children, hp, fun _ => rfl⟩
  constraints := by rw [h]
  types := by rw [h]

theorem trans (h : Keeps changing s t) (h' : Keeps changing t u) : Keeps changing s u where
  params := by
    intro id p hp
    obtain ⟨children, hchildren, hsame⟩ := h.params id p hp
    obtain ⟨children', hchildren', hsame'⟩ := h'.params id _ hchildren
    exact ⟨children', hchildren', fun hne => (hsame' hne).trans (hsame hne)⟩
  constraints := h'.constraints.trans h.constraints
  types := h'.types.trans h.types

/-- Where nothing changes, that holds of any parameter. -/
theorem weaken (h : Keeps none s t) : Keeps changing s t where
  params := by
    intro id p hp
    obtain ⟨children, hchildren, hsame⟩ := h.params id p hp
    exact ⟨children, hchildren, fun _ => hsame (by simp)⟩
  constraints := h.constraints
  types := h.types

/-- What changes in a parameter that is new changes nothing that was there. -/
theorem trans_new {id : ParamId} (h : Keeps none s t) (h' : Keeps (some id) t u)
    (hnew : s.device.param? id = none) : Keeps none s u where
  params := by
    intro id' p hp
    obtain ⟨children, hchildren, hsame⟩ := h.params id' p hp
    obtain ⟨children', hchildren', hsame'⟩ := h'.params id' _ hchildren
    refine ⟨children', hchildren', fun hnone => ?_⟩
    have hne : some id ≠ some id' := by
      rintro ⟨⟩
      cases hnew.symm.trans hp
    exact (hsame' hne).trans (hsame hnone)
  constraints := h'.constraints.trans h.constraints
  types := h'.types.trans h.types

end Keeps

/-- What a run keeps of the progress that it starts from, however it ends. -/
def Leaves (changing : Option ParamId) (s : Progress) (x : Resolve α) : Prop :=
  Keeps changing s (reached (x.run s))

section Steps

theorem Leaves.bind {x : Resolve α} {f : α → Resolve β} (hx : Leaves changing s x)
    (hf : ∀ a t, x.run s = .ok a t → Leaves changing t (f a)) : Leaves changing s (x >>= f) := by
  unfold Leaves at *
  rw [run_bind]
  cases hrun : x.run s with
  | ok a t =>
    rw [hrun] at hx
    exact hx.trans (hf a t hrun)
  | error e t =>
    rw [hrun] at hx
    exact hx

theorem Leaves.weaken {x : Resolve α} (h : Leaves none s x) : Leaves changing s x := Keeps.weaken h

/-- What only reads keeps everything. -/
theorem Leaves.of_reading {x : Resolve α} (h : (reached (x.run s)).device = s.device) :
    Leaves changing s x :=
  .of_device h

theorem pure_leaves (a : α) : Leaves changing s (pure a) := .of_reading rfl

theorem throw_leaves (e : ResolveError) : Leaves changing s (throw e : Resolve α) := .of_reading rfl

theorem get_leaves : Leaves changing s get := .of_reading rfl

theorem device_leaves : Leaves changing s device := .of_reading rfl

theorem param_leaves (oid : String) (id : ParamId) : Leaves changing s (param oid id) := by
  refine device_leaves.bind fun d t _ => ?_
  split
  · exact pure_leaves _
  · exact throw_leaves _

theorem claimIdent_leaves (id : ParamId) : Leaves changing s (claimIdent id) := by
  refine (param_leaves _ _).bind fun p t _ => ?_
  refine get_leaves.bind fun progress t _ => ?_
  split
  · exact throw_leaves _
  · exact .of_reading rfl

theorem register_leaves (id : ParamId) : Leaves changing s (register id) := by
  refine (param_leaves _ _).bind fun p t _ => ?_
  split
  · exact .of_reading rfl
  · exact pure_leaves _

/-- A new parameter is behind all that are there. -/
theorem withParam_keeps (s : Progress) (p : Param) : Keeps none s (withParam s p) where
  params := by
    intro id q hq
    refine ⟨q.children, ?_, fun _ => rfl⟩
    have hlt := (Array.getElem?_eq_some_iff.mp hq).1
    rw [Device.param?, withParam, Array.getElem?_push_lt hlt, ← Array.getElem?_eq_getElem hlt]
    exact hq
  constraints := rfl
  types := rfl

theorem withChanged_keeps {id : ParamId} {p : Param} (hp : s.device.param? id = some p)
    (children : Entries ParamId) :
    Keeps (some id) s (withChanged s id { p with children }) where
  params := by
    intro id' q hq
    by_cases he : id = id'
    · subst he
      cases hp.symm.trans hq
      have hlt := (Array.getElem?_eq_some_iff.mp hp).1
      refine ⟨children, ?_, fun hne => absurd rfl hne⟩
      rw [Device.param?, withChanged, Array.getElem?_setIfInBounds_self_of_lt hlt]
    · refine ⟨q.children, ?_, fun _ => rfl⟩
      have hne : id.index ≠ id'.index := fun hi =>
        he (by cases id; cases id'; exact congrArg ParamId.mk hi)
      rw [Device.param?, withChanged, Array.getElem?_setIfInBounds_ne hne]
      exact hq
  constraints := rfl
  types := rfl

/-- Changing the children of a parameter that is added changes nothing that was there. -/
theorem addParam_leaves {p : Param} {f : ParamId → Resolve α}
    (h : Leaves (some ⟨s.device.nodes.size⟩) (withParam s p) (f ⟨s.device.nodes.size⟩)) :
    Leaves none s (addParam p >>= f) := by
  have hnew : s.device.param? ⟨s.device.nodes.size⟩ = none := by simp [Device.param?]
  have hadded := (withParam_keeps s p).trans_new h hnew
  unfold Leaves
  rw [run_bind, addParam_ok.mpr ⟨rfl, rfl⟩]
  exact hadded

theorem enterParam_leaves {p : Param} {f : ParamId → Resolve α}
    (h : ∀ t, Leaves (some ⟨s.device.nodes.size⟩) t (f ⟨s.device.nodes.size⟩)) :
    Leaves none s (enterParam p >>= f) := by
  simp only [enterParam, bind_assoc, pure_bind]
  exact addParam_leaves ((claimIdent_leaves _).bind fun _ t _ => h t)

/-- Entering children in a parameter changes nothing else. -/
theorem updateChildren_leaves (oid : String) (id : ParamId) (children : Entries ParamId) :
    Leaves (some id) s (updateParam oid id fun p => { p with children }) := by
  refine (param_leaves _ _).bind fun p t hp => ?_
  obtain ⟨hfound, rfl⟩ := param_ok.mp hp
  exact withChanged_keeps hfound children

theorem mapM_leaves {f : α → Resolve β} (h : ∀ a t, Leaves changing t (f a)) (as : List α)
    (s : Progress) :
    Leaves changing s (as.mapM f) := by
  induction as generalizing s with
  | nil =>
    rw [List.mapM_nil]
    exact pure_leaves _
  | cons a rest ih =>
    rw [List.mapM_cons]
    exact (h a s).bind fun _ t _ => (ih t).bind fun _ _ _ => pure_leaves _

end Steps

section Copies

/-- One copy and all below it are new. -/
theorem copyChild_leaves {below : ParamId → ParamId → Resolve Unit}
    (hbelow : ∀ target template t, Leaves (some target) t (below target template))
    (target child : ParamId) (s : Progress) : Leaves none s (copyChild below target child) := by
  refine (param_leaves _ _).bind fun parent t _ => ?_
  refine (param_leaves _ _).bind fun source t _ => ?_
  refine enterParam_leaves fun u => ?_
  refine (hbelow _ _ u).bind fun _ t _ => ?_
  refine (register_leaves _).bind fun _ t _ => ?_
  exact (param_leaves _ _).bind fun _ _ _ => pure_leaves _

/-- Only the children of the parameter that is copied to are changed. -/
theorem copyChildren_leaves (depth : Nat) (target template : ParamId) (s : Progress) :
    Leaves (some target) s (copyChildren depth target template) := by
  induction depth generalizing target template s with
  | zero => exact throw_leaves _
  | succ depth ih =>
    refine (param_leaves _ _).bind fun source t _ => ?_
    have heach : ∀ (e : String × ParamId) u,
        Leaves (some target) u (copyChild (copyChildren depth) target e.2) :=
      fun e u => (copyChild_leaves ih target e.2 u).weaken
    exact (mapM_leaves heach source.children t).bind fun children t _ => updateChildren_leaves _ _ _

end Copies

/-- A run follows an index to nothing, or is to go deeper than it may. -/
def CutShort (r : Result α) : Prop := ∃ oid t, r = .error (.dangling oid) t

/-- Two programs come to the same, unless the first one is cut short. -/
def Agrees (x y : Resolve α) : Prop := ∀ s, CutShort (x.run s) ∨ x.run s = y.run s

section Depths

theorem Agrees.refl (x : Resolve α) : Agrees x x := fun _ => .inr rfl

theorem Agrees.bind {x y : Resolve α} {f g : α → Resolve β} (h : Agrees x y)
    (hf : ∀ a, Agrees (f a) (g a)) :
    Agrees (x >>= f) (y >>= g) := by
  intro s
  rw [run_bind, run_bind]
  rcases h s with ⟨oid, t, hcut⟩ | hsame
  · rw [hcut]
    exact .inl ⟨oid, t, rfl⟩
  · rw [← hsame]
    cases x.run s with
    | ok a t => exact hf a t
    | error e t => exact .inr rfl

theorem mapM_agrees {f g : α → Resolve β} (h : ∀ a, Agrees (f a) (g a)) (as : List α) :
    Agrees (as.mapM f) (as.mapM g) := by
  induction as with
  | nil => exact .refl _
  | cons a rest ih =>
    rw [List.mapM_cons, List.mapM_cons]
    exact (h a).bind fun _ => ih.bind fun _ => .refl _

theorem copyChild_agrees {below below' : ParamId → ParamId → Resolve Unit}
    (h : ∀ target template, Agrees (below target template) (below' target template))
    (target child : ParamId) :
    Agrees (copyChild below target child) (copyChild below' target child) := by
  refine (Agrees.refl _).bind fun parent => (Agrees.refl _).bind fun source => ?_
  exact (Agrees.refl _).bind fun id => (h id child).bind fun _ => .refl _

/-- Copying that is not cut short comes to the same if it may go deeper. -/
theorem copyChildren_agrees {depth depth' : Nat} (h : depth ≤ depth') (target template : ParamId) :
    Agrees (copyChildren depth target template) (copyChildren depth' target template) := by
  induction depth generalizing depth' target template with
  | zero => exact fun s => .inl ⟨"", s, rfl⟩
  | succ depth ih =>
    obtain ⟨depth', rfl⟩ : ∃ n, depth' = n + 1 := ⟨depth' - 1, by omega⟩
    have hdeeper : ∀ a b, Agrees (copyChildren depth a b) (copyChildren depth' a b) := ih (by omega)
    refine (Agrees.refl _).bind fun source => ?_
    have heach : ∀ e : String × ParamId,
        Agrees (copyChild (copyChildren depth) target e.2)
            (copyChild (copyChildren depth') target e.2) :=
      fun e => copyChild_agrees hdeeper target e.2
    exact (mapM_agrees heach source.children).bind fun _ => .refl _

theorem instantiate_run (target template : ParamId) (s : Progress) :
    (instantiate target template).run s =
      (copyChildren s.device.nodes.size target template).run s :=
  rfl

end Depths

end Resolve

open Resolve

/-- What templates give: copies that are faithful, made by copying that ends and leaves all else as
it was. -/
structure TemplatesCopied (ns : String) (description : Description.Device) (importRoot : Path)
    (source : Source) :
    Prop where
  faithful : ∀ d, (resolveDevice ns description importRoot source).result = .ok d →
    ∀ n ∈ d.nodes, ∀ id,
    n.template = some id → ∃ template, d.param? id = some template ∧ Replicates d n template
  /-- Copying is never cut short, -/
  ends : ∀ oid, (resolveDevice ns description importRoot source).result ≠ .error (.dangling oid)
  /-- and where it is not, it may as well go as deep as it likes. -/
  deeper : ∀ s target template depth, s.device.nodes.size ≤ depth →
    CutShort ((instantiate target template).run s) ∨
    (instantiate target template).run s = (copyChildren depth target template).run s
  kept : ∀ s target template, Keeps (some target) s (reached ((instantiate target template).run s))
  added : ∀ s depth target child,
    Keeps none s (reached ((copyChild (copyChildren depth) target child).run s))

theorem templates_copied (ns : String) (description : Description.Device) (importRoot : Path)
    (source : Source) :
    TemplatesCopied ns description importRoot source where
  faithful := by
    intro d hd n hn id htemplate
    obtain ⟨shared, params, commands, h⟩ := resolveDevice_resolved hd
    have hknown : n ∈ ((start shared).after (params.append commands)).known := by
      rw [h.mem_nodes] at hn
      exact List.mem_append_right _ hn
    obtain ⟨template, rfl, pattern⟩ := h.patterned.made n hknown id htemplate
    exact ⟨template, pattern.found, h.replicates hn pattern.found htemplate⟩
  ends := resolveDevice_not_dangling ns description importRoot source
  deeper := by
    intro s target template depth hdepth
    rw [instantiate_run]
    exact copyChildren_agrees hdepth target template s
  kept := by
    intro s target template
    rw [instantiate_run]
    exact copyChildren_leaves _ target template s
  added := fun s depth target child => copyChild_leaves (copyChildren_leaves depth) target child s

/-- The copy of a parameter that has a template itself. -/
theorem pointAndMarks_templatesCopied :
    ∃ d n template,
      (resolveDevice "m" pointAndMarks ⟨"params"⟩ (Documents.source {})).result = .ok d ∧
      d.param? ⟨10⟩ = some n ∧ n.fqoid = "/last/dot" ∧ n.template = some ⟨0⟩ ∧
      (d.subtree n.id).map ParamId.index = [10, 11, 12] ∧ d.param? ⟨0⟩ = some template ∧
        Replicates d n template := by
  have hok :
      ((resolveDevice "m" pointAndMarks ⟨"params"⟩
      (Documents.source {})).result.toOption.map fun d =>
      (d.param? ⟨10⟩).map fun p => (p.fqoid, p.template, (d.subtree p.id).map ParamId.index)) =
        some (some ("/last/dot", some ⟨0⟩, [10, 11, 12])) := by
    decide +kernel
  obtain ⟨d, hd, hdot⟩ := ok_of_toOption hok
  obtain ⟨n, hn, hdot⟩ := Option.map_eq_some_iff.mp hdot
  obtain ⟨hfqoid, hrest⟩ := Prod.mk.inj hdot
  obtain ⟨htemplate, hsubtree⟩ := Prod.mk.inj hrest
  obtain ⟨template, hfound, hreplicates⟩ := (templates_copied "m" pointAndMarks ⟨"params"⟩
    (Documents.source {})).faithful d hd n (Array.mem_of_getElem? hn) ⟨0⟩ htemplate
  exact ⟨d, n, template, hd, hn, hfqoid, htemplate, hsubtree, hfound, hreplicates⟩

end DeviceModel
