import DeviceModel.Proofs.Faults
import DeviceModel.Proofs.Lineage

namespace DeviceModel

/-- An index leads to nothing. -/
def ResolveError.isDangling : ResolveError → Bool
  | .dangling _ => true
  | _ => false

/-- The outermost parameters of a description, or its commands. -/
def Description.Device.outermost (d : Description.Device) : Realm → Entries Description.Param
  | .params => d.params
  | .commands => d.commands

namespace Resolve

open Description (Declaration Import)

variable {α : Type} {s t u : Progress} {g : Ground} {site : Site} {oid : String}

theorem isDangling_onlyReferences : OnlyReferences ResolveError.isDangling := by
  intro e h
  cases e with
  | dangling => cases h
  | _ => rfl

/-- No index that is followed from here leads to nothing. -/
abbrev Sure (s : Progress) (x : Resolve α) : Prop := Spares ResolveError.isDangling s x

/-- The ground holds under whatever refers to it. -/
structure Firm (g : Ground) : Prop where
  sound : Sound g
  descending : ∀ p ∈ g.known, ∀ e ∈ p.children, p.id.index < e.2.index

theorem Firm.start {shared : List Constraint} (unowned : ∀ c ∈ shared, c.owner = none) :
    Firm (start shared) where
  sound := .start unowned
  descending := by simp [Resolve.start]

theorem Firm.enter (h : Firm g) {realm : Realm} {fqoid : String} {rule : Option Constraint}
    (hr : ∀ c ∈ rule, c.owner = some ⟨g.count⟩) : Firm (g.enter realm fqoid rule) :=
  ⟨h.sound.enter hr, h.descending⟩

theorem Firm.after (h : Firm g) {source : Source} {opened : List Path}
    {params : List (String × Description.Param)} {f : Forest}
    (grown : Grown source opened g site params f) : Firm (g.after f) where
  sound := grown.sound h.sound
  descending := by
    intro p hp e he
    rcases List.mem_append.mp hp with hp | hp
    · exact h.descending p hp e he
    · exact grown.numbered.child grown.linked hp he

section Copies

/-- Parameters whose children are among them and come later. -/
def Rooted (base : List Param) : Prop :=
  ∀ p ∈ base, ∀ e ∈ p.children, ∃ q ∈ base, q.id = e.2 ∧ p.id.index < q.id.index

theorem Firm.rooted (h : Firm g) (hs : Stands s g) : Rooted g.known := by
  intro p hp e he
  obtain ⟨q, hq, hid⟩ := hs.closed p hp e he
  exact ⟨q, hq, hid, hid ▸ h.descending p hp e he⟩

/-- Copying below a parameter follows no index to nothing, where the copied ones are of the base. -/
def CopiesSurely (base : List Param) (first : Nat) (copy : ParamId → ParamId → Resolve Unit) :
    Prop :=
  ∀ {s : Progress} {g : Ground} {target : ParamId} {p source : Param}, Stands s g →
    (∀ q ∈ base, q ∈ g.known) →
    s.device.param? target = some p → p.id = target → (∀ q ∈ g.known, q.id ≠ target) →
    source ∈ base → first ≤ source.id.index → Sure s (copy target source.id)

variable {base : List Param} {first depth : Nat}

theorem copyChild_sure (hc : CopiesSurely base first (copyChildren depth)) {target : ParamId}
    {parent source : Param} (hs : Stands s g) (hparent : s.device.param? target = some parent)
    (hbase : ∀ q ∈ base, q ∈ g.known) (hsource : source ∈ base) (hfrom : first ≤ source.id.index) :
    Sure s (copyChild (copyChildren depth) target source.id) := by
  have hfound := hs.known source (hbase source hsource)
  apply (param_spares fun _ => ⟨parent, hparent⟩).bind
  intro q t hrun
  obtain ⟨hq, rfl⟩ := param_ok.mp hrun
  cases Option.some.inj (hq.symm.trans hparent)
  apply (param_spares fun _ => ⟨source, hfound⟩).bind
  intro q t hrun
  obtain ⟨hq, rfl⟩ := param_ok.mp hrun
  cases Option.some.inj (hq.symm.trans hfound)
  apply (enterParam_spares isDangling_onlyReferences _).bind
  intro id t hid
  obtain ⟨rfl, _, rfl⟩ := enterParam_ok.mp hid
  have hentered := param?_withParam s (placed source parent)
  have hopen : ∀ q ∈ g.known, q.id ≠ ⟨s.device.nodes.size⟩ := by
    intro q hq he
    have hlt := hs.index_lt hq
    rw [he, hs.count] at hlt
    exact Nat.lt_irrefl _ hlt
  apply (hc (hs.enter (placed source parent)) hbase hentered rfl hopen hsource hfrom).bind
  intro _ t hcopy
  obtain ⟨_, _, sprouted⟩ := copyChildren_copies depth
    (hs.enter (placed source parent)) hentered rfl hopen (hbase source hsource) hcopy
  have hcopied := sprouted.param? hentered
  apply (register_spares fun _ => ⟨_, hcopied⟩).bind
  intro _ u hregistered
  obtain ⟨_, _, rfl⟩ := register_ok.mp hregistered
  rw [← withFinished_device] at hcopied
  exact (param_spares fun _ => ⟨_, hcopied⟩).bind fun _ _ _ => pure_spares _

theorem copyEach_sure (hc : CopiesSurely base first (copyChildren depth)) {target : ParamId}
    {parent : Param} {entries : Entries ParamId} (hs : Stands s g)
    (hparent : s.device.param? target = some parent) (hbase : ∀ q ∈ base, q ∈ g.known)
    (he : ∀ e ∈ entries, ∃ q ∈ base, q.id = e.2 ∧ first ≤ q.id.index) :
    Sure s (entries.mapM fun e => copyChild (copyChildren depth) target e.2) := by
  induction entries generalizing s g with
  | nil =>
    rw [List.mapM_nil]
    exact pure_spares _
  | cons e rest ih =>
    obtain ⟨key, child⟩ := e
    obtain ⟨source, hsource, rfl, hfrom⟩ := he (key, child) List.mem_cons_self
    rw [List.mapM_cons]
    apply (copyChild_sure hc hs hparent hbase hsource hfrom).bind
    intro _ t hfirst
    obtain ⟨p, below, _, _, _, _, grew⟩ :=
      copyChild_grew (copyChildren_copies depth) hs hparent (hbase source hsource) hfirst
    have hrest := ih grew.stands (grew.param? hparent)
      (fun q hq => List.mem_append_left _ (hbase q hq)) fun e hm => he e (List.mem_cons_of_mem _ hm)
    exact hrest.bind fun _ _ _ => pure_spares _

/-- The depth of copying is never reached: each level down starts further along the base. -/
theorem copyChildren_sure (first : Nat) (hr : Rooted base)
    (hlt : ∀ p ∈ base, p.id.index < depth + first) :
    CopiesSurely base first (copyChildren depth) := by
  induction depth generalizing first with
  | zero =>
    intro s g target p source _ _ _ _ _ hsource hfrom
    have := hlt source hsource
    omega
  | succ depth ih =>
    intro s g target p source hs hbase hp hid open' hsource hfrom
    have hfound := hs.known source (hbase source hsource)
    apply (param_spares fun _ => ⟨source, hfound⟩).bind
    intro q t hrun
    obtain ⟨hq, rfl⟩ := param_ok.mp hrun
    cases Option.some.inj (hq.symm.trans hfound)
    have hdeeper : CopiesSurely base (first + 1) (copyChildren depth) :=
      ih (first + 1) fun q hq => by
        have := hlt q hq
        omega
    have hchildren : ∀ e ∈ source.children, ∃ q ∈ base, q.id = e.2 ∧ first + 1 ≤ q.id.index := by
      intro e he
      obtain ⟨q, hq, hqid, hlater⟩ := hr source hsource e he
      exact ⟨q, hq, hqid, by omega⟩
    apply (copyEach_sure hdeeper hs hp hbase hchildren).bind
    intro children t hcopies
    obtain ⟨f, _, _, grew⟩ := copyEach_grew (copyChildren_copies depth) hs hp
      (hs.closed source (hbase source hsource)) hcopies
    exact updateParam_spares fun _ => ⟨p, grew.param? hp⟩

end Copies

section Types

variable {rule : Option Constraint} {p : Param} {source : Source} {opened : List Path}
  {block : Block} {params : List (String × Description.Param)}

theorem inherit_sure {bare : Bool} {template : Param} {type : ValueType} {overElements : Bool}
    (hg : Firm (g.enter site.realm (site.fqoid oid) rule))
    (hs : Stands s (g.enter site.realm (site.fqoid oid) rule)) (hp : Entered s g p)
    (hsite : Located s site) (hid : p.id = ⟨g.count⟩) (known : template ∈ g.known) :
    Sure s (Resolve.inherit site oid ⟨g.count⟩ bare (bindingOf template type overElements)) := by
  unfold Resolve.inherit
  cases bare with
  | false => exact (throw_spares rfl).bind fun _ _ h => (throw_ok.mp h).elim
  | true =>
    simp only [if_true]
    refine Spares.bind (device_spares.bind ?_) ?_
    · intro d t hd
      obtain ⟨rfl, rfl⟩ := device_ok.mp hd
      refine copyChildren_sure 0 (hg.rooted hs) ?_ hs (fun q hq => hq) hp.found hid hp.open' known
        (Nat.zero_le _)
      intro q hq
      rw [hs.count]
      exact hs.index_lt hq
    · intro _ t hcopied
      simp only [instantiate, bind_ok, device_ok] at hcopied
      obtain ⟨_, _, ⟨rfl, rfl⟩, hcopy⟩ := hcopied
      obtain ⟨_, _, sprouted⟩ := copyChildren_copies _ hs hp.found hid hp.open' known hcopy
      split
      · split
        · have hlocated : Located t site := sprouted.located hp.found hsite
          apply (checkNested_spares isDangling_onlyReferences (fun _ => hlocated) _).bind
          intro _ t _
          exact (addType_spares _).bind fun _ _ _ => pure_spares _
        · exact pure_spares _
      · have hkept := sprouted.stands.known template (List.mem_append_left _ known)
        exact (param_spares fun _ => ⟨template, hkept⟩).bind fun _ _ _ => pure_spares _

/-- What resolving a block of parameters needs, wherever it stands. -/
def BlockSure (block : Block) : Prop :=
  ∀ {s : Progress} {g : Ground} {site : Site}, Firm g → Stands s g → Located s site →
    Sure s (block site.toSlot)

theorem resolveChildren_sure {inner : Site} {fqoid : String}
    (hb : GrowsInto source opened block params) (hblock : BlockSure block)
    (hg : Firm (g.enter site.realm (site.fqoid oid) rule))
    (hs : Stands s (g.enter site.realm (site.fqoid oid) rule)) (hp : Entered s g p)
    (hinner : Located s inner) :
    Sure s (resolveChildren block fqoid ⟨g.count⟩ inner.toSlot) := by
  apply (hblock hg hs hinner).bind
  intro ids t hids
  obtain ⟨_, below, grown, rfl, grew⟩ := hb hs hinner hids
  apply (updateParam_spares fun _ => ⟨p, grew.param? hp.found⟩).bind
  intro _ u hupdated
  obtain ⟨q, hq, rfl⟩ := updateParam_ok.mp hupdated
  cases Option.some.inj (hq.symm.trans (grew.param? hp.found))
  have sprouted := Sprouted.of_grew grew hp.found hp.open' grown.numbered hs
  apply childrenOf_spares
  intro _
  refine ⟨below.roots, Forest.children?_eq (sprouted.param? hp.found) rfl ?_⟩
  intro r hr
  exact sprouted.stands.known r (List.mem_append_right _ (Forest.mem_params_of_mem_roots hr))

theorem declare_sure {bare : Bool} {declared : TypeCode} (hb : GrowsInto source opened block params)
    (hblock : BlockSure block) (hg : Firm (g.enter site.realm (site.fqoid oid) rule))
    (hs : Stands s (g.enter site.realm (site.fqoid oid) rule)) (hp : Entered s g p)
    (hsite : Located s site) (hfqoid : p.fqoid = site.fqoid oid) :
    Sure s (declare block site oid ⟨g.count⟩ bare declared) := by
  apply (checkNames_spares isDangling_onlyReferences (fun _ => hsite) declared).bind
  intro _ t hnames
  obtain ⟨_, _, rfl⟩ := checkNames_ok hnames
  apply (resolveChildren_sure hb hblock hg hs hp (hp.located hfqoid _)).bind
  intro children t _
  apply (checkAlternatives_spares isDangling_onlyReferences _ _ _).bind
  intro _ t _
  apply (addType_spares _).bind
  intro type t _
  dsimp only
  split
  · exact (addType_spares _).bind fun _ _ _ => pure_spares _
  · exact pure_spares _

theorem undeclared_sure {bare : Bool} {declared : TypeCode}
    (hb : GrowsInto source opened block params) (hblock : BlockSure block)
    (hg : Firm (g.enter site.realm (site.fqoid oid) rule))
    (hs : Stands s (g.enter site.realm (site.fqoid oid) rule)) (hp : Entered s g p)
    (hfqoid : p.fqoid = site.fqoid oid) :
    Sure s (undeclared block site oid ⟨g.count⟩ bare declared) := by
  unfold undeclared
  cases bare with
  | true => exact pure_spares _
  | false =>
    simp only [Bool.false_eq_true, if_false]
    cases site.isCommand with
    | false => exact (throw_spares rfl).bind fun _ _ h => (throw_ok.mp h).elim
    | true =>
      apply (resolveChildren_sure hb hblock hg hs hp (hp.located hfqoid (holderName oid))).bind
      intro _ t _
      exact pure_spares _

end Types

section Params

variable {d : Declaration} {params : List (String × Description.Param)} {source : Source}
  {opened : List Path}

/-- What is left to do once the type of a parameter is settled. -/
theorem finish_sure {typing : Typing} {below : Forest} {p : Param}
    {constraint : Option ConstraintId} {inherited : Option Initializer}
    {f : Option Initializer → Param → Param} (own : Share)
    (found : t.device.param? ⟨g.count⟩ = some p)
    (sprouted : Sprouted t u (g.enter site.realm (site.fqoid oid) own.rule)
      ⟨g.count⟩ p below own.types)
    (hconstraint : ∀ c, constraint = some c →
      c.index < (g.constraints ++ own.rule.toList ++ below.constraints).length)
    (hback : Backward (g.types ++ below.types ++ own.types))
    (htype : Among (g.types ++ below.types ++ own.types).length typing.type.typeIds) :
    Sure u (do
      constraint.forM (checkConstraint (site.fqoid oid) typing.type)
      let value ← settleValue (site.fqoid oid) typing.type inherited d.value
      updateParam (site.fqoid oid) ⟨g.count⟩ (f value)
      register ⟨g.count⟩
      return (⟨g.count⟩ : ParamId)) := by
  have htypes : u.device.types.toList = g.types ++ below.types ++ own.types := by
    rw [sprouted.stands.types]
    simp
  have hconstraints : u.device.constraints.toList = g.constraints ++ own.rule.toList ++
      below.constraints := by
    rw [sprouted.stands.constraints]
    simp
  apply (option_forM_spares fun c hc =>
    checkConstraint_spares isDangling_onlyReferences fun _ => ?_).bind
  · intro _ v hchecked
    obtain ⟨_, rfl⟩ := checkConstraints_ok hchecked
    refine Spares.bind
      (settleValue_spares isDangling_onlyReferences (fun _ _ => htypes ▸ hback) ?_ _ _) ?_
    · intro _ _
      rw [← Array.length_toList, htypes]
      exact htype
    · intro value v hvalue
      obtain ⟨_, _, rfl⟩ := settleValue_ok hvalue
      apply (updateParam_spares fun _ => ⟨_, sprouted.param? found⟩).bind
      intro _ v hupdated
      obtain ⟨q, hq, rfl⟩ := updateParam_ok.mp hupdated
      apply (register_spares fun _ => ⟨_, param?_withChanged hq⟩).bind
      intro _ v _
      exact pure_spares _
  · have hlt := hconstraint c hc
    rw [← hconstraints] at hlt
    exact ⟨_, by rw [Device.constraint?, ← Array.getElem?_toList, List.getElem?_eq_getElem hlt]⟩

/-- The constraint that a parameter declares is there once it is settled. -/
theorem Ruled.index_lt {c : Option Description.Constraint} {rule : Option Constraint}
    {id : Option ConstraintId} (h : Ruled g site oid c rule id) (hg : Sound g) :
    ∀ k, id = some k → k.index < (g.constraints ++ rule.toList).length := by
  intro k hk
  cases h with
  | none => cases hk
  | shared _ _ found =>
    cases hk
    have := hg.shared_lt found
    simp only [List.length_append]
    omega
  | inline =>
    cases hk
    simp

/-- What is left to do once the template of a parameter is bound. -/
def settle (block : Block) (bare : Bool) (site : Site) (oid : String) (id : ParamId)
    (declared : TypeCode) (d : Declaration) (own : Option ConstraintId) (binding : Option Binding) :
    Resolve ParamId := do
  let typing ← settleType block bare site oid id declared binding
  let constraint := own <|> binding.bind Binding.constraint
  constraint.forM (checkConstraint (site.fqoid oid) typing.type)
  let value ← settleValue (site.fqoid oid) typing.type (binding.bind Binding.value) d.value
  updateParam (site.fqoid oid) id fun p =>
    { p with
      type := typing.type
      declares := typing.declares
      container := typing.container
      template := binding.map Binding.template
      constraint
      value }
  register id
  return id

section Settle

variable {rule : Option Constraint} {own : Option ConstraintId} {declared : TypeCode} {p : Param}

theorem settle_untemplated_sure {block : Block} (hb : GrowsInto source opened block params)
    (hblock : BlockSure block) (hg : Firm g) (ruled : Ruled g site oid d.constraint rule own)
    (ht : Stands t (g.enter site.realm (site.fqoid oid) rule)) (hentered : Entered t g p)
    (hsite : Located t site) (hfqoid : p.fqoid = site.fqoid oid) :
    Sure t (settle block params.isEmpty site oid ⟨g.count⟩ declared d own none) := by
  have hg' : Firm (g.enter site.realm (site.fqoid oid) rule) := hg.enter ruled.owned
  have hconstraint : ∀ below : Forest, ∀ c, (own <|> none) = some c →
      c.index < (g.constraints ++ rule.toList ++ below.constraints).length := by
    intro below c hc
    have := ruled.index_lt hg.sound c (by simpa using hc)
    rw [List.length_append]
    omega
  cases hdeclares : declared.declaresType with
  | true =>
    simp only [settle, settleType, hdeclares, if_true]
    apply (declare_sure hb hblock hg' ht hentered hsite hfqoid).bind
    intro typing u htyping
    obtain ⟨_, _, _, _, below, grown, rfl, sprouted⟩ :=
      declare_sprouted hb ht hentered hfqoid htyping
    exact finish_sure (compositeShare g site oid declared rule below) hentered.found sprouted
      (hconstraint below) (composite_backward site oid declared (grown.sound hg'.sound))
      (compositeTyping_among g site oid declared rule below).1
  | false =>
    simp only [settle, settleType, hdeclares, Bool.false_eq_true, if_false]
    apply (undeclared_sure hb hblock hg' ht hentered hfqoid).bind
    intro typing u htyping
    obtain ⟨_, _, below, grown, rfl, sprouted⟩ := undeclared_sprouted hb ht hentered hfqoid htyping
    refine finish_sure { rule } hentered.found sprouted (hconstraint below) ?_ ?_
    · simpa [Share.types] using (grown.sound hg'.sound).backward
    · rw [plainTyping_typeIds]
      exact .nil

theorem settle_templated_sure {block : Block} {bare : Bool} {template : Param} {type : ValueType}
    {overElements : Bool} (hg : Firm g) (ruled : Ruled g site oid d.constraint rule own)
    (ht : Stands t (g.enter site.realm (site.fqoid oid) rule)) (hentered : Entered t g p)
    (hsite : Located t site) (hrealm : p.realm = site.realm) (hfqoid : p.fqoid = site.fqoid oid)
    (hid : p.id = ⟨g.count⟩) (known : template ∈ g.known)
    (fits : ValueType.ofTemplate? declared template.type = some (type, overElements)) :
    Sure t (settle block bare site oid ⟨g.count⟩ declared d own
      (some (bindingOf template type overElements))) := by
  simp only [settle, settleType]
  apply (inherit_sure (hg.enter ruled.owned) ht hentered hsite hid known).bind
  intro typing u htyping
  obtain ⟨_, below, copied, _, rfl, sprouted⟩ :=
    inherit_sprouted ht hentered hrealm hfqoid hid known htyping
  have hback := templated_backward site oid hg.sound known fits
  have htype := (templatedTyping_among site oid hg.sound known fits).1
  refine finish_sure { rule, container := templatedContainer g site oid type overElements }
    hentered.found (by simpa [Share.types] using sprouted) ?_ ?_ ?_
  · intro c hc
    rw [List.length_append]
    cases hown : own with
    | some k =>
      rw [hown] at hc ruled
      exact Nat.lt_add_right _ (ruled.index_lt hg.sound c hc)
    | none =>
      rw [hown] at hc
      have := hg.sound.constrained template known c hc
      simp only [List.length_append]
      omega
  · simpa [copied.types, Share.types] using hback
  · simpa [copied.types, Share.types] using htype

end Settle

/-- A parameter that is written out follows only indices to what is there. -/
theorem resolveDeclared_sure {block : Block} (hb : GrowsInto source opened block params)
    (hblock : BlockSure block) (hg : Firm g) (hs : Stands s g) (hsite : Located s site) :
    Sure s (resolveDeclared block params.isEmpty site oid d) := by
  have hbad := isDangling_onlyReferences
  apply (lift_spares fun e => declaredType_avoids hbad).bind
  intro declared t hdeclared
  obtain ⟨hdeclared, rfl⟩ := lift_ok.mp hdeclared
  apply (note_spares _ _ _).bind
  intro _ t hnote
  obtain rfl := note_ok.mp hnote
  apply (enterParam_spares hbad (blank site oid declared d)).bind
  intro id t hid
  obtain ⟨rfl, _, rfl⟩ := enterParam_ok.mp hid
  dsimp only
  rw [hs.count]
  apply (option_mapM_spares fun c _ =>
    ownConstraint_spares hbad (fun _ => ⟨_, (hs.log _).param?_enter _⟩) c).bind
  intro own t hown
  obtain ⟨rule, ruled, ht, hnodes, _⟩ := ownConstraint_ruled
    ((hs.log _).enter (blank site oid declared d)) ((hs.log _).param?_enter _) rfl rfl hs.unsettled
    hown
  have hlocated : Located t site := (Located.enter (hsite.of_nodes rfl) _).of_nodes hnodes
  have hfound : t.device.param? ⟨g.count⟩ = some (entered g site oid declared d) := by
    rw [Device.param?, hnodes]
    exact (hs.log _).param?_enter _
  have hentered : Entered t g (entered g site oid declared d) :=
    ⟨hfound, rfl, fun q hq => hs.index_lt hq⟩
  refine Spares.bind
    (option_mapM_spares fun templateOid _ => bindTemplate_spares hbad fun _ id hid => ?_) ?_
  · obtain ⟨q, hq, rfl, _⟩ := ht.registry _ _ hid
    exact ⟨q, ht.known q hq⟩
  intro binding t' hbinding
  cases htemplate : d.template with
  | none =>
    rw [htemplate] at hbinding
    obtain ⟨rfl, rfl⟩ := pure_ok.mp hbinding
    exact settle_untemplated_sure hb hblock hg ruled ht hentered hlocated rfl
  | some templateOid =>
    rw [htemplate, Option.mapM_some, map_ok] at hbinding
    obtain ⟨b, hb', rfl⟩ := hbinding
    obtain ⟨template, type, overElements, log, known, _, _, fits, rfl, rfl⟩ :=
      bindTemplate_known ht hb'
    have hentered' : Entered { t with log } g (entered g site oid declared d) :=
      ⟨hfound, rfl, hentered.old⟩
    exact settle_templated_sure hg ruled (ht.log log) hentered' (hlocated.of_nodes rfl) rfl rfl rfl
      known fits

end Params

section Imports

variable {source : Source} {opened : List Path}

/-- A site that is what it says is found. -/
theorem Located.bind_sure {f : Site → Resolve α} (h : Located s site) (hf : Sure s (f site)) :
    Sure s (site.locate >>= f) := by
  intro e t he
  rw [run_bind, h.locate] at he
  exact hf e t he

/-- What resolving imports needs, wherever they stand. -/
def ImportsSure (importer : Importer) : Prop :=
  ∀ {s : Progress} {g : Ground} (site : Site) (oid : String) (i : Import), Firm g → Stands s g →
    Located s site → Sure s (importer site oid i)

mutual

theorem resolveParam_sure {importer : Importer} (hi : ImportsGrow source opened importer)
    (hsure : ImportsSure importer) {s : Progress} {g : Ground} {site : Site} {oid : String}
    (hg : Firm g) (hs : Stands s g) (hsite : Located s site) :
    ∀ (q : Description.Param), Sure s (resolveParam importer site oid q)
  | ⟨d, params⟩ => by
    cases hsource : d.source with
    | some i =>
      simp only [resolveParam, hsource]
      exact hsure site oid i hg hs hsite
    | none =>
      simp only [resolveParam, hsource]
      have hgrows : GrowsInto source opened (fun inner => do
          checkDistinct (site.fqoid oid) params
          resolveEach importer inner params) params := by
        intro t t' g' inner ids ht hinner hblock
        simp only [bind_ok, checkDistinct_ok] at hblock
        obtain ⟨_, _, ⟨hd, rfl⟩, hblock⟩ := hblock
        exact ⟨hd, resolveEach_grew hi ht hinner params hblock⟩
      refine resolveDeclared_sure hgrows ?_ hg hs hsite
      intro t g' inner hg' ht hinner
      apply (checkDistinct_spares isDangling_onlyReferences _ _).bind
      intro _ t' hdistinct
      obtain ⟨_, rfl⟩ := checkDistinct_ok.mp hdistinct
      exact resolveEach_sure hi hsure hg' ht hinner params

theorem resolveEach_sure {importer : Importer} (hi : ImportsGrow source opened importer)
    (hsure : ImportsSure importer) {s : Progress} {g : Ground} {site : Site} (hg : Firm g)
    (hs : Stands s g) (hsite : Located s site) :
    ∀ (params : List (String × Description.Param)), Sure s (resolveEach importer site.toSlot params)
  | [] => pure_spares _
  | (oid, q) :: rest => by
    apply hsite.bind_sure
    apply (resolveParam_sure hi hsure hg hs hsite q).bind
    intro id t hq
    obtain ⟨f, grown, _, grew⟩ := resolveParam_grew hi hs hsite q hq
    have hrest := resolveEach_sure hi hsure (hg.after grown) grew.stands (grew.located hsite) rest
    exact hrest.bind fun _ _ _ => pure_spares _

end

/-- A document that does not open is a fault of its import. -/
theorem openImport_spares (site : Site) (oid : String) (i : Import) :
    Sure s (openImport source opened site oid i) := by
  apply (lift_spares ?_).bind
  · intro path t _
    apply (lift_spares ?_).bind
    · intro identity t _
      apply (note_spares _ _ _).bind
      intro _ t _
      apply (lift_spares ?_).bind fun _ _ _ => pure_spares _
      intro e h
      unfold importedParam at h
      split at h
      · cases h
        rfl
      · split at h
        · cases h
        · cases h
          rfl
    · intro e h
      unfold importIdentity at h
      split at h
      · cases h
        rfl
      · split at h
        · cases h
          rfl
        · cases h
  · intro e h
    unfold importPath at h
    dsimp only at h
    split at h
    · cases h
    · cases h
    · cases h
      rfl
    · cases h
      rfl

theorem importer_sure (source : Source) (room : Nat) (opened : List Path) :
    ImportsSure (importer source room opened) := by
  induction room generalizing opened with
  | zero =>
    intro s g site oid i _ _ _
    exact throw_spares rfl
  | succ room ih =>
    intro s g site oid i hg hs hsite
    apply (openImport_spares site oid i).bind
    intro opens t hopen
    obtain ⟨identity, q⟩ := opens
    obtain ⟨path, log, _, _, _, rfl⟩ := openImport_ok hopen
    have hlocated : Located { s with log } site := hsite.of_nodes rfl
    apply hlocated.bind_sure
    exact resolveParam_sure (importer_grows room (identity :: opened)) (ih (identity :: opened)) hg
      (hs.log log) hlocated q

theorem forest_sure {root : Path} {realm : Realm} {params : Entries Description.Param} (hg : Firm g)
    (hs : Stands s g) : Sure s (forest source root realm params) := by
  apply (checkDistinct_spares isDangling_onlyReferences _ _).bind
  intro _ t hdistinct
  obtain ⟨_, rfl⟩ := checkDistinct_ok.mp hdistinct
  have hroot : Located s (.root realm root) := rfl
  exact resolveEach_sure (importer_grows _ []) (importer_sure source _ []) hg hs hroot params

end Imports

/-- Every way down a device leads over parameters that are there, wherever it would be bad if it did
not. -/
def Traceable (bad : ResolveError → Bool) (d : Device) : Prop :=
  ∀ label, bad (.dangling label) = true → ∀ realm oid, d.locate? realm oid ≠ none

/-- Names lead from one finished parameter to the next. -/
theorem Stands.descend? (hs : Stands s g) {p : Param} (hp : p ∈ g.known) (names : List String) :
    s.device.descend? p.id names ≠ none := by
  induction names generalizing p with
  | nil => simp [Device.descend?]
  | cons name rest ih =>
    simp only [Device.descend?, hs.known p hp, Option.bind_eq_bind, Option.bind_some]
    split
    · next child hchild =>
      obtain ⟨before, after, he, _⟩ := List.lookup_eq_some_iff.mp hchild
      obtain ⟨q, hq, rfl⟩ := hs.closed p hp (name, child) (by simp [he])
      exact ih hq
    · simp

theorem Stands.locate? (hs : Stands s g)
    (hroots : ∀ realm, ∀ e ∈ s.device.roots realm, ∃ p ∈ g.known, p.id = e.2) (realm : Realm)
    (oid : String) :
    s.device.locate? realm oid ≠ none := by
  unfold Device.locate?
  split
  · simp
  · next root rest _ =>
    split
    · next id hid =>
      obtain ⟨before, after, he, _⟩ := List.lookup_eq_some_iff.mp hid
      obtain ⟨p, hp, rfl⟩ := hroots realm (root, id) (by simp [he])
      exact hs.descend? hp rest
    · simp

/-- Once parameters and commands are there, every way down from them is. -/
theorem located {params commands : Forest}
    (grew : Grew { s with device := { s.device with params := params.entries } } t
      (g.after params) commands)
    (realm : Realm) (oid : String) :
    Device.locate? { t.device with commands := commands.entries } realm oid ≠ none := by
  have ht := grew.stands.frame (d := { t.device with commands := commands.entries }) rfl rfl rfl rfl
  apply ht.locate?
  intro realm e he
  cases realm with
  | params =>
    have hparams : t.device.params = params.entries := congrArg Device.params grew.frame
    change e ∈ t.device.params at he
    rw [hparams] at he
    obtain ⟨p, hp, rfl⟩ := List.mem_map.mp he
    exact ⟨p, by simp [Forest.mem_params_of_mem_roots hp], rfl⟩
  | commands =>
    obtain ⟨p, hp, rfl⟩ := List.mem_map.mp he
    exact ⟨p, by simp [Forest.mem_params_of_mem_roots hp], rfl⟩

section Whole

variable {bad : ResolveError → Bool} (hbad : OnlyReferences bad)

include hbad

theorem checkScope_avoids {settings : Settings} {e : ResolveError}
    (h : checkScope settings = .error e) :
    bad e = false := by
  unfold checkScope at h
  split at h
  · split at h
    · cases h
      exact hbad _ rfl
    · cases h
  · cases h

theorem languagePacks_spares (packs : List LanguagePack) : Spares bad s (languagePacks packs) :=
  (checkDistinct_spares hbad _ _).bind fun _ _ _ => updateDevice_spares _

theorem sharedConstraint_spares (oid : String) (c : Description.Constraint) :
    Spares bad s (sharedConstraint oid c) := by
  unfold sharedConstraint
  cases c.reference.isSome with
  | true => exact (throw_spares (hbad _ rfl)).bind fun _ _ h => (throw_ok.mp h).elim
  | false =>
    simp only [Bool.false_eq_true, if_false]
    apply (lift_spares fun e => classify_avoids hbad).bind
    intro rule t _
    apply (note_spares _ _ _).bind
    intro _ t _
    exact (addConstraint_spares _).bind fun _ _ _ => updateDevice_spares _

theorem sharedConstraints_spares (constraints : Entries Description.Constraint) :
    Spares bad s (sharedConstraints constraints) := by
  apply (checkDistinct_spares hbad _ _).bind
  intro _ t _
  exact forM_spares (fun e t => sharedConstraint_spares hbad e.1 e.2) constraints t

theorem menuTargets_avoids {d : Device} (hd : Traceable bad d) {label : String} {realm : Realm}
    {oids : List String} {e : ResolveError} (h : menuTargets d label realm oids = .error e) :
    bad e = false := by
  unfold menuTargets at h
  induction oids with
  | nil => cases h
  | cons oid rest ih =>
    simp only [List.mapM_cons, except_bind_error] at h
    rcases h with h | ⟨_, _, h | ⟨_, _, h⟩⟩
    · split at h
      · cases h
      · cases h
        exact hbad _ rfl
      · next hnone =>
        cases h
        rw [Bool.eq_false_iff]
        intro hdangling
        exact hd label hdangling realm _ hnone
    · exact ih h
    · cases h

theorem menus_avoids {d : Device} (hd : Traceable bad d) {group : String} {menus : List Menu}
    {e : ResolveError} (h : menus.mapM (menu d group) = .error e) : bad e = false := by
  induction menus with
  | nil => cases h
  | cons m rest ih =>
    simp only [List.mapM_cons, menu, except_bind_error] at h
    rcases h with (h | ⟨_, _, h | ⟨_, _, h⟩⟩) | ⟨_, _, h | ⟨_, _, h⟩⟩
    · exact menuTargets_avoids hbad hd h
    · exact menuTargets_avoids hbad hd h
    · cases h
    · exact ih h
    · cases h

theorem menuGroups_spares (hd : Traceable bad s.device) (groups : List MenuGroup) :
    Spares bad s (menuGroups groups) := by
  apply (checkDistinct_spares hbad _ _).bind
  intro _ t hdistinct
  obtain ⟨_, rfl⟩ := checkDistinct_ok.mp hdistinct
  apply mapM_spares_of_still
  · intro group group' t h
    simp only [menuGroup, bind_ok, checkDistinct_ok, device_ok, lift_ok, pure_ok] at h
    obtain ⟨_, _, ⟨_, rfl⟩, _, _, ⟨_, rfl⟩, _, _, ⟨_, rfl⟩, _, rfl⟩ := h
    rfl
  · intro group
    apply (checkDistinct_spares hbad _ _).bind
    intro _ t hdistinct
    obtain ⟨_, rfl⟩ := checkDistinct_ok.mp hdistinct
    apply device_spares.bind
    intro d t hdevice
    obtain ⟨rfl, rfl⟩ := device_ok.mp hdevice
    exact (lift_spares fun e => menus_avoids hbad hd).bind fun _ _ _ => pure_spares _

/-- Where a device fails for a reference, its parameters or its commands do, on firm ground. -/
theorem resolveDevice_error {ns : String} {description : Description.Device} {importRoot : Path}
    {source : Source} {e : ResolveError}
    (h : (resolveDevice ns description importRoot source).result = .error e) (he : bad e = true) :
    ∃ realm s t g, Firm g ∧ Stands s g ∧
      (forest source importRoot realm (description.outermost realm)).run s = .error e t := by
  have hgood : ∀ {β : Type} {s t : Progress} {x : Resolve β}, Spares bad s x →
      x.run s ≠ .error e t := by
    intro β s t x hx hrun
    rw [hx e t hrun] at he
    cases he
  unfold resolveDevice at h
  split at h
  · cases h
  · next e' s' hrun =>
    cases h
    simp only [parts, bind_error] at hrun
    rcases hrun with h | ⟨_, _, hscope,
      h | ⟨_, _, hpacks, h | ⟨_, s, hshared, h | ⟨ids, t, hparams, h⟩⟩⟩⟩
    · exact (hgood (lift_spares fun e => checkScope_avoids hbad) h).elim
    · exact (hgood (languagePacks_spares hbad _) h).elim
    · exact (hgood (sharedConstraints_spares hbad _) h).elim
    all_goals
      obtain ⟨-, rfl⟩ := lift_ok.mp hscope
      simp only [languagePacks, sharedConstraints, bind_ok, checkDistinct_ok,
        updateDevice_ok] at hpacks hshared
      obtain ⟨_, _, ⟨_, rfl⟩, rfl⟩ := hpacks
      obtain ⟨_, _, ⟨_, rfl⟩, hshared⟩ := hshared
      obtain ⟨shared, hshareable, hs, _⟩ :=
        sharedConstraints_stands _ [] (stands_start rfl rfl rfl rfl) hshared
      have hg : Firm (start ([] ++ shared)) := .start (shareable_all hshareable).1
    · exact ⟨.params, _, _, _, hg, hs, h⟩
    · obtain ⟨_, params, grown, rfl, grew⟩ := forest_grew hs hparams
      have ht := grew.stands.frame (d := { t.device with params := params.entries }) rfl rfl rfl rfl
      rcases h with h | ⟨_, _, hset, h | ⟨ids', u, hcommands, h | ⟨_, _, hset', h | ⟨groups, _, _,
        h | ⟨_, _, _, h | ⟨_, _, _, h⟩⟩⟩⟩⟩⟩
      · exact (hgood (updateDevice_spares _) h).elim
      · obtain rfl := updateDevice_ok.mp hset
        exact ⟨.commands, _, _, _, hg.after grown, ht, h⟩
      · exact (hgood (updateDevice_spares _) h).elim
      · obtain rfl := updateDevice_ok.mp hset
        obtain rfl := updateDevice_ok.mp hset'
        obtain ⟨_, commands, _, rfl, grew'⟩ := forest_grew ht hcommands
        exact (hgood (menuGroups_spares hbad (fun _ _ => located grew') _) h).elim
      · exact (hgood (updateDevice_spares _) h).elim
      · exact (hgood device_spares h).elim
      · exact (hgood (note_spares _ _ _) h).elim

end Whole

/-- No index ever leads to nothing. -/
theorem resolveDevice_not_dangling (ns : String) (description : Description.Device)
    (importRoot : Path) (source : Source) (oid : String) :
    (resolveDevice ns description importRoot source).result ≠ .error (.dangling oid) := by
  intro h
  obtain ⟨realm, s, t, g, hg, hs, h⟩ := resolveDevice_error isDangling_onlyReferences h rfl
  cases forest_sure hg hs _ _ h

end Resolve

end DeviceModel
