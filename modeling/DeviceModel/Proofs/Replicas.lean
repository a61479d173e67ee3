import DeviceModel.Proofs.Paths

namespace DeviceModel

/-- All but the place in the tree is the same, and nothing is declared anew. -/
def CopyOf (x y : Param) : Prop :=
  x = { y with
    id := x.id
    fqoid := x.fqoid
    parent := x.parent
    realm := x.realm
    isCommand := false
    declares := none
    children := x.children }

namespace CopyOf

variable {x y z : Param}

theorem trans (h : CopyOf x y) (h' : CopyOf y z) : CopyOf x z := by
  unfold CopyOf at *
  rw [h, h']

theorem oid_eq (h : CopyOf x y) : x.oid = y.oid := by rw [h]

theorem declared_eq (h : CopyOf x y) : x.declared = y.declared := by rw [h]

end CopyOf

namespace Forest

theorem Part.of_append {p : Param} {own : Share} {below f g : Forest}
    (h : Part p own below (f.append g)) :
    Part p own below f ∨ Part p own below g := by
  induction f with
  | nil => exact .inr h
  | cons q own' below' rest _ ih =>
    cases h with
    | here => exact .inl .here
    | inner part => exact .inl (.inner part)
    | next part => exact (ih part).imp .next id

/-- Forests of the same shape, whose parameters are related one by one. -/
inductive Parallel (R : Param → Param → Prop) : Forest → Forest → Prop where
  | nil : Parallel R .nil .nil
  | cons {p q : Param} {own own' : Share} {below below' rest rest' : Forest} (node : R p q)
      (inner : Parallel R below below') (next : Parallel R rest rest') :
      Parallel R (.cons p own below rest) (.cons q own' below' rest')

namespace Parallel

variable {R S T : Param → Param → Prop} {f g h : Forest}

theorem comp (hf : Parallel R f g) (hg : Parallel S g h) (hcomp : ∀ x y z, R x y → S y z → T x z) :
    Parallel T f h := by
  induction hf generalizing h with
  | nil =>
    cases hg
    exact .nil
  | cons node _ _ ihInner ihNext =>
    cases hg with
    | cons node' inner' next' =>
      exact .cons (hcomp _ _ _ node node') (ihInner inner') (ihNext next')

theorem of_eq (hf : Parallel Eq f g) (hg : Parallel R g h) : Parallel R f h := by
  refine hf.comp hg ?_
  rintro x y z rfl hr
  exact hr

theorem length_eq (hf : Parallel R f g) : f.params.length = g.params.length := by
  induction hf with
  | nil => rfl
  | cons _ _ _ ihInner ihNext => simp [ihInner, ihNext]

/-- The parameters that correspond: the outermost one, those below it, and those after it. -/
theorem zip_cons {p q : Param} {own own' : Share} {below below' rest rest' : Forest}
    (inner : Parallel R below below') :
    (Forest.cons p own below rest).params.zip (Forest.cons q own' below' rest').params =
      (p, q) :: (below.params.zip below'.params ++ rest.params.zip rest'.params) := by
  rw [params_cons, params_cons, List.zip_cons_cons, List.zip_append inner.length_eq]

theorem pair (hf : Parallel R f g) {x y : Param} (h : (x, y) ∈ f.params.zip g.params) : R x y := by
  induction hf with
  | nil => cases h
  | cons node inner _ ihInner ihNext =>
    rw [inner.zip_cons, List.mem_cons, List.mem_append] at h
    rcases h with heq | h | h
    · cases heq
      exact node
    · exact ihInner h
    · exact ihNext h

/-- Corresponding parameters have corresponding parents. -/
theorem parents {a b : ParamId} {path path' : String} {realm realm' : Realm} (hf : Parallel R f g)
    (seated : f.Seated (some a) path realm) (seated' : g.Seated (some b) path' realm') {x y : Param}
    (h : (x, y) ∈ f.params.zip g.params) :
    ∃ u v, x.parent = some u ∧ y.parent = some v ∧
      (u, v) ∈ (a :: f.params.map Param.id).zip (b :: g.params.map Param.id) := by
  induction hf generalizing a b path path' with
  | nil => cases h
  | @cons p q own own' below below' rest rest' _ inner _ ihInner ihNext =>
    have hids : ((Forest.cons p own below rest).params.map Param.id).zip
        ((Forest.cons q own' below' rest').params.map Param.id) =
          (p.id, q.id) :: ((below.params.map Param.id).zip (below'.params.map Param.id) ++
            (rest.params.map Param.id).zip (rest'.params.map Param.id)) := by
      rw [List.zip_map, inner.zip_cons, List.zip_map, List.zip_map, List.map_cons, List.map_append]
      rfl
    rw [List.zip_cons_cons, hids]
    rw [inner.zip_cons, List.mem_cons, List.mem_append] at h
    rcases h with heq | h | h
    · cases heq
      exact ⟨a, b, seated.1.parent, seated'.1.parent, List.mem_cons_self⟩
    · obtain ⟨u, v, hu, hv, hpair⟩ := ihInner seated.2.1 seated'.2.1 h
      refine ⟨u, v, hu, hv, ?_⟩
      rw [List.zip_cons_cons, List.mem_cons] at hpair
      simp only [List.mem_cons, List.mem_append]
      tauto
    · obtain ⟨u, v, hu, hv, hpair⟩ := ihNext seated.2.2 seated'.2.2 h
      refine ⟨u, v, hu, hv, ?_⟩
      rw [List.zip_cons_cons, List.mem_cons] at hpair
      simp only [List.mem_cons, List.mem_append]
      tauto

end Parallel

end Forest

/-- The forest is what is below a parameter. -/
structure Under (d : Device) (p : Param) (f : Forest) : Prop where
  children : p.children = f.entries
  linked : f.Linked
  found : ∀ q ∈ f.params, d.param? q.id = some q

/-- What is listed under the same ids is the same, as deep as it goes. -/
theorem Forest.parallel_of_entries {d : Device} {f g : Forest} (linked : f.Linked)
    (linked' : g.Linked) (found : ∀ q ∈ f.params, d.param? q.id = some q)
    (found' : ∀ q ∈ g.params, d.param? q.id = some q) (h : f.entries = g.entries) :
    Parallel Eq f g := by
  induction f generalizing g with
  | nil =>
    cases g with
    | nil => exact .nil
    | cons => cases h
  | cons p own below rest ihBelow ihRest =>
    cases g with
    | nil => cases h
    | cons q own' below' rest' =>
      rw [entries_cons, entries_cons, List.cons.injEq, Prod.mk.injEq] at h
      obtain ⟨⟨_, hid⟩, hrest⟩ := h
      have hp := found p (by simp)
      rw [hid, found' q (by simp)] at hp
      cases hp
      have hbelow : below.entries = below'.entries := linked.1.symm.trans linked'.1
      exact .cons rfl
        (ihBelow linked.2.1 linked'.2.1 (fun r hr => found r (by simp [hr]))
          (fun r hr => found' r (by simp [hr])) hbelow)
        (ihRest linked.2.2 linked'.2.2 (fun r hr => found r (by simp [hr]))
          (fun r hr => found' r (by simp [hr])) hrest)

theorem Under.unique {d : Device} {p : Param} {f g : Forest} (hf : Under d p f) (hg : Under d p g) :
    Forest.Parallel Eq f g :=
  Forest.parallel_of_entries hf.linked hg.linked hf.found hg.found
    (hf.children.symm.trans hg.children)

/-- What is below a parameter is a copy of what is below its template. -/
def Modelled (d : Device) (p : Param) : Prop :=
  ∀ template f g, p.template = some template.id → d.param? template.id = some template →
    Under d p f → Under d template g → Forest.Parallel CopyOf f g

namespace Resolve

section Growth

variable {d : Device} {g : Ground} {f : Forest}

/-- Copies are parallel to what they are copies of. -/
theorem Copied.parallel {realm : Realm} {parent : ParamId} {path : String}
    {entries : Entries ParamId} {m : Forest} (h : Copied realm g parent path entries f)
    (known : ∀ p ∈ g.known, d.param? p.id = some p) (found : ∀ p ∈ f.params, d.param? p.id = some p)
    (linked : m.Linked) (found' : ∀ q ∈ m.params, d.param? q.id = some q)
    (hm : entries = m.entries) : Forest.Parallel CopyOf f m := by
  induction h generalizing m with
  | nil =>
    cases m with
    | nil => exact .nil
    | cons => cases hm
  | @cons g parent path key entries source p below rest hsource node fresh inner next ihInner
      ihNext =>
    cases m with
    | nil => cases hm
    | cons q own' below' rest' =>
      rw [Forest.entries_cons, List.cons.injEq, Prod.mk.injEq] at hm
      obtain ⟨⟨_, hid⟩, hrest⟩ := hm
      have hq := found' q (by simp)
      rw [← hid, known source hsource] at hq
      cases hq
      have hcopy : CopyOf p source := by
        rw [node]
        rfl
      have htree : ∀ r ∈ (Forest.tree p {} below).params, d.param? r.id = some r := by
        intro r hr
        rw [Forest.params_tree] at hr
        exact found r (List.mem_append_left rest.params hr)
      exact .cons hcopy
        (ihInner known (fun r hr => found r (by simp [hr])) linked.2.1
          (fun r hr => found' r (by simp [hr])) linked.1)
        (ihNext (Ground.forall_after known htree) (fun r hr => found r (by simp [hr])) linked.2.2
          (fun r hr => found' r (by simp [hr])) hrest)

/-- A copy of what has a template has that template too, and is like it as well. -/
theorem Copied.modelled {realm : Realm} {parent : ParamId} {path : String}
    {entries : Entries ParamId} (h : Copied realm g parent path entries f)
    (hunder : ∀ p ∈ d.nodes, ∃ m, Under d p m) (known : ∀ p ∈ g.known, d.param? p.id = some p)
    (found : ∀ p ∈ f.params, d.param? p.id = some p) (hknown : ∀ p ∈ g.known, Modelled d p) :
    ∀ p ∈ f.params, Modelled d p := by
  induction h with
  | nil => simp
  | @cons g parent path key entries source p below rest hsource node fresh inner next ihInner
      ihNext =>
    have hbelow : ∀ q ∈ below.params, d.param? q.id = some q := fun q hq => found q (by simp [hq])
    have htree := Forest.forall_tree {} below (found p (by simp)) hbelow
    have hp : Modelled d p := by
      intro template f' g' htemplate hfound hf' hg'
      obtain ⟨m, hm⟩ := hunder source (Array.mem_of_getElem? (known source hsource))
      have hsame : Forest.Parallel Eq f' below :=
        hf'.unique ⟨by rw [node]; rfl, inner.linked, hbelow⟩
      have hcopy := inner.parallel known hbelow hm.linked hm.found hm.children
      have hmodel : Forest.Parallel CopyOf m g' := by
        refine hknown source hsource template m g' ?_ hfound hm hg'
        rw [node] at htemplate
        exact htemplate
      exact (hsame.of_eq hcopy).comp hmodel fun _ _ _ => CopyOf.trans
    have hmodelled := Forest.forall_tree {} below hp (ihInner known hbelow hknown)
    exact Forest.forall_append _ hmodelled
      (ihNext (Ground.forall_after known htree) (fun q hq => found q (by simp [hq]))
      (Ground.forall_after hknown hmodelled))

theorem Grown.modelled {source : Source} {opened : List Path} {site : Site}
    {entries : List (String × Description.Param)} (h : Grown source opened g site entries f)
    (hunder : ∀ p ∈ d.nodes, ∃ m, Under d p m) (known : ∀ p ∈ g.known, d.param? p.id = some p)
    (found : ∀ p ∈ f.params, d.param? p.id = some p) (hknown : ∀ p ∈ g.known, Modelled d p) :
    ∀ p ∈ f.params, Modelled d p := by
  induction h with
  | nil => simp
  | cons _ _ ihFirst ihNext =>
    have hfound := fun p hp =>
      found p (by rw [Forest.params_append]; exact List.mem_append_left _ hp)
    have hfirst := ihFirst known hfound hknown
    exact Forest.forall_append _ hfirst
      (ihNext (Ground.forall_after known hfound) (fun p hp => found p (by simp [hp]))
      (Ground.forall_after hknown hfirst))
  | imported _ _ _ ih => exact ih known found hknown
  | @templated _ g site oid _ _ template p _ _ below rule _ _ hknown' _ _ _ copied _ settled =>
    have hbelow : ∀ q ∈ below.params, d.param? q.id = some q := fun q hq => found q (by simp [hq])
    refine Forest.forall_tree _ _ ?_ (copied.modelled hunder known hbelow hknown)
    intro template' f' g' htemplate hfound hf' hg'
    have hid : template.id = template'.id := by
      rw [settled.node] at htemplate
      exact Option.some.inj htemplate
    rw [← hid, known template hknown'] at hfound
    cases hfound
    have hsame : Forest.Parallel Eq f' below := hf'.unique ⟨settled.children, copied.linked, hbelow⟩
    exact hsame.of_eq (copied.parallel known hbelow hg'.linked hg'.found hg'.children)
  | composite _ _ _ _ _ _ _ _ settled ih | plain _ _ _ _ _ _ settled ih =>
    refine Forest.forall_tree _ _ ?_ (ih known (fun q hq => found q (by simp [hq])) hknown)
    intro template f' g' htemplate
    cases settled.untemplated.symm.trans htemplate

end Growth

end Resolve

/-- The names lead from one parameter down to another, and its full oid ends with them. -/
structure Leads (d : Device) (p : Param) (names : List String) (q : Param) : Prop where
  descend : d.descend p.id names = some q.id
  fqoid : q.fqoid = p.fqoid ++ trail names

theorem Leads.here (d : Device) (p : Param) : Leads d p [] p :=
  ⟨rfl, by simp⟩

theorem Leads.child {d : Device} {p q r : Param} {names : List String} (hp : d.param? p.id = some p)
    (distinct : (p.children.map Prod.fst).Nodup) (hq : (q.oid, q.id) ∈ p.children)
    (fqoid : q.fqoid = p.fqoid ++ "/" ++ q.oid) (h : Leads d q names r) :
    Leads d p (q.oid :: names) r where
  descend := by rw [Device.descend_cons hp distinct hq, h.descend]
  fqoid := by
    rw [h.fqoid, fqoid, trail_cons, String.append_assoc, String.append_assoc, String.append_assoc]

/-- The forest hangs below a parameter, which may have more below it. -/
structure Hangs (d : Device) (p : Param) (f : Forest) : Prop where
  root : d.param? p.id = some p
  listed : ∀ e ∈ f.entries, e ∈ p.children
  linked : f.Linked
  found : ∀ q ∈ f.params, d.param? q.id = some q
  seated : f.Seated (some p.id) p.fqoid p.realm

namespace Hangs

variable {d : Device} {p q : Param} {own : Share} {below rest : Forest}

theorem inner (h : Hangs d p (.cons q own below rest)) : Hangs d q below where
  root := h.found q (by simp)
  listed := fun e he => by rw [h.linked.1]; exact he
  linked := h.linked.2.1
  found := fun r hr => h.found r (by simp [hr])
  seated := by
    rw [h.seated.1.realm]
    exact h.seated.2.1

theorem next (h : Hangs d p (.cons q own below rest)) : Hangs d p rest where
  root := h.root
  listed := fun e he => h.listed e (List.mem_cons_of_mem _ he)
  linked := h.linked.2.2
  found := fun r hr => h.found r (by simp [hr])
  seated := h.seated.2.2

theorem leads (h : Hangs d p (.cons q own below rest))
    (distinct : ∀ p ∈ d.nodes, (p.children.map Prod.fst).Nodup) {names : List String} {r : Param}
    (hr : Leads d q names r) : Leads d p (q.oid :: names) r :=
  hr.child h.root (distinct p (Array.mem_of_getElem? h.root))
    (h.listed _ List.mem_cons_self) h.seated.1.fqoid

end Hangs

/-- The same names lead to corresponding parameters. -/
theorem Forest.Parallel.ways {d : Device} {R : Param → Param → Prop} {f g : Forest} {n t : Param}
    (distinct : ∀ p ∈ d.nodes, (p.children.map Prod.fst).Nodup)
    (hoid : ∀ {x y}, R x y → x.oid = y.oid) (hfg : Parallel R f g) (hf : Hangs d n f)
    (hg : Hangs d t g) {x y : Param} (h : (x, y) ∈ f.params.zip g.params) :
    ∃ names, Leads d n names x ∧ Leads d t names y := by
  induction hfg generalizing n t with
  | nil => cases h
  | @cons p q own own' below below' rest rest' node inner _ ihInner ihNext =>
    rw [inner.zip_cons, List.mem_cons, List.mem_append] at h
    rcases h with heq | h | h
    · cases heq
      refine ⟨[x.oid], hf.leads distinct (.here d x), ?_⟩
      rw [hoid node]
      exact hg.leads distinct (.here d y)
    · obtain ⟨names, hx, hy⟩ := ihInner hf.inner hg.inner h
      refine ⟨p.oid :: names, hf.leads distinct hx, ?_⟩
      rw [hoid node]
      exact hg.leads distinct hy
    · exact ihNext hf.next hg.next h

/-- One parameter is to another, below the first, what the other is below the second. -/
structure Corresponds (d : Device) (n t x y : Param) : Prop where
  copy : CopyOf x y
  realm : x.realm = n.realm
  way : ∃ names, Leads d n names x ∧ Leads d t names y
  parents : ∃ (j : Nat) (u v : ParamId), x.parent = some u ∧ y.parent = some v ∧
    (d.subtree n.id)[j]? = some u ∧ (d.subtree t.id)[j]? = some v

/-- The tree below one parameter is that below another, at every place. -/
structure Replicates (d : Device) (n t : Param) : Prop where
  length : (d.subtree n.id).length = (d.subtree t.id).length
  each : ∀ (i : Nat) a b, 0 < i → (d.subtree n.id)[i]? = some a → (d.subtree t.id)[i]? = some b →
    ∃ x y, d.param? a = some x ∧ d.param? b = some y ∧ Corresponds d n t x y

namespace Resolve.Resolved

variable {source : Source} {importRoot : Path} {description : Description.Device} {d : Device}
  {shared : List Constraint} {params commands : Forest}
  (h : Resolved source importRoot description d shared params commands)

include h

/-- What is below a parameter stands below it, in its realm. -/
theorem below_seated {p : Param} {own : Share} {below : Forest}
    (part : Forest.Part p own below (params.append commands)) :
    below.Seated (some p.id) p.fqoid p.realm := by
  rcases part.of_append with part | part
  · have seated := h.params_grown.seated
    rw [seated.realm_eq part.mem]
    exact seated.below part
  · have seated := h.commands_grown.seated
    rw [seated.realm_eq part.mem]
    exact seated.below part

/-- What is below a parameter: a forest that hangs there, and is written out by the subtree. -/
theorem under {p : Param} (hp : p ∈ d.nodes) :
    ∃ f, Under d p f ∧ Hangs d p f ∧ d.subtree p.id = p.id :: f.params.map Param.id := by
  rw [h.mem_nodes] at hp
  obtain ⟨own, below, part⟩ := Forest.exists_part hp
  obtain ⟨linked, found, _, hlt⟩ := h.part_holds part
  have hbelow : ∀ q ∈ below.params, d.param? q.id = some q := fun q hq => found q (by simp [hq])
  refine ⟨below, ⟨linked.1, linked.2.1, hbelow⟩, ?_, Device.subtree_eq linked found hlt⟩
  refine ⟨h.found p hp, ?_, linked.2.1, hbelow, h.below_seated part⟩
  intro e he
  rw [linked.1]
  exact he

theorem exists_under : ∀ p ∈ d.nodes, ∃ m, Under d p m := by
  intro p hp
  obtain ⟨m, hm, _⟩ := h.under hp
  exact ⟨m, hm⟩

theorem modelled {p : Param} (hp : p ∈ d.nodes) : Modelled d p := by
  have hparams :=
    h.params_grown.modelled h.exists_under (by simp [start]) h.holds.left.found (by simp [start])
  have hcommands := h.commands_grown.modelled h.exists_under
    (h.holds.left.known_after (by simp [start])) h.holds.right.found
    (Ground.forall_after (by simp [start]) hparams)
  rw [h.mem_nodes] at hp
  exact Forest.forall_append _ hparams hcommands p hp

/-- What has a template is like it, at every place below. -/
theorem replicates {n t : Param} (hn : n ∈ d.nodes) (ht : d.param? t.id = some t)
    (htemplate : n.template = some t.id) :
    Replicates d n t := by
  obtain ⟨f, hf, hangs, hsubtree⟩ := h.under hn
  obtain ⟨g, hg, hangs', hsubtree'⟩ := h.under (Array.mem_of_getElem? ht)
  have hfg := h.modelled hn t f g htemplate ht hf hg
  constructor
  case length => simp [hsubtree, hsubtree', hfg.length_eq]
  case each =>
    intro i a b hi ha hb
    obtain ⟨k, rfl⟩ : ∃ k, i = k + 1 := ⟨i - 1, by omega⟩
    rw [hsubtree, List.getElem?_cons_succ, List.getElem?_map] at ha
    rw [hsubtree', List.getElem?_cons_succ, List.getElem?_map] at hb
    obtain ⟨x, hx, rfl⟩ := Option.map_eq_some_iff.mp ha
    obtain ⟨y, hy, rfl⟩ := Option.map_eq_some_iff.mp hb
    have hpair : (x, y) ∈ f.params.zip g.params := by
      refine List.mem_iff_getElem?.mpr ⟨k, ?_⟩
      rw [List.getElem?_zip_eq_some]
      exact ⟨hx, hy⟩
    refine ⟨x, y, hf.found x (List.mem_of_getElem? hx), hg.found y (List.mem_of_getElem? hy), ?_⟩
    constructor
    case copy => exact hfg.pair hpair
    case realm => exact hangs.seated.realm_eq (List.mem_of_getElem? hx)
    case way => exact hfg.ways (fun p hp => h.keys_nodup hp) CopyOf.oid_eq hangs hangs' hpair
    case parents =>
      obtain ⟨u, v, hu, hv, huv⟩ := hfg.parents hangs.seated hangs'.seated hpair
      obtain ⟨j, hj⟩ := List.mem_iff_getElem?.mp huv
      rw [List.getElem?_zip_eq_some] at hj
      rw [hsubtree, hsubtree']
      exact ⟨j, u, v, hu, hv, hj⟩

end Resolve.Resolved

end DeviceModel
