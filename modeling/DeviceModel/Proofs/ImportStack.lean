import DeviceModel.Proofs.NoDanglingIndex

namespace DeviceModel.Resolve

open Description (Declaration Import)

variable {α β : Type} {s t : Progress}

theorem ofImport_onlyReferences : OnlyReferences ResolveError.ofImport :=
  fun _ => ResolveError.ofImport_of_ofReference

/-- A run that resolves the children of a parameter at most once, whatever that does. Only they can
fail for an import. -/
inductive RunsOnce (F : Block → Resolve α) (s : Progress) : Prop where
  | never {r : Result α} (same : ∀ block, (F block).run s = r)
      (own : ∀ e t, r = .error e t → e.ofImport = false)
  | once {inner : Slot} {t : Progress} {f : Entries ParamId → Resolve α}
      (same : ∀ block, (F block).run s = follow ((block inner).run t) f)
      (own : ∀ ids t, Spares ResolveError.ofImport t (f ids))

namespace RunsOnce

theorem of_spares {x : Resolve α} (h : Spares ResolveError.ofImport s x) :
    RunsOnce (fun _ => x) s :=
  .never (fun _ => rfl) h

theorem of_block (inner : Slot) (s : Progress) : RunsOnce (fun block => block inner) s := by
  refine @RunsOnce.once _ _ s inner s pure ?_ fun ids t => pure_spares ids
  intro block
  cases (block inner).run s <;> rfl

/-- Something comes before it. -/
theorem after {x : Resolve β} {F : Block → β → Resolve α} (hx : Spares ResolveError.ofImport s x)
    (hF : ∀ b t, x.run s = .ok b t → RunsOnce (fun block => F block b) t) :
    RunsOnce (fun block => x >>= F block) s := by
  cases h : x.run s with
  | error e t =>
    refine .never (r := .error e t) ?_ ?_
    · intro block
      rw [run_bind, h]
      rfl
    · intro e' t' he
      cases he
      exact hx e t h
  | ok b t =>
    have hrun : ∀ block, (x >>= F block).run s = (F block b).run t := by
      intro block
      rw [run_bind, h]
      rfl
    cases hF b t h with
    | never same own => exact .never (fun block => (hrun block).trans (same block)) own
    | once same own => exact .once (fun block => (hrun block).trans (same block)) own

/-- Something comes after it. -/
theorem before {F : Block → Resolve α} {f : α → Resolve β} (hF : RunsOnce F s)
    (hf : ∀ a t, Spares ResolveError.ofImport t (f a)) :
    RunsOnce (fun block => F block >>= f) s := by
  cases hF with
  | @never r same own =>
    refine .never (r := follow r f) ?_ ?_
    · intro block
      rw [run_bind, same block]
    · intro e t he
      cases r with
      | ok a u => exact hf a u e t he
      | error e' u =>
        injection he with he ht
        exact he ▸ own e' u rfl
  | @once inner t f' same own =>
    refine @RunsOnce.once _ _ s inner t (fun ids => f' ids >>= f) ?_ ?_
    · intro block
      rw [run_bind, same block, follow_follow]
    · intro ids u
      exact (own ids u).bind fun a v _ => hf a v

end RunsOnce

section Once

variable (site : Site) (oid : String) (id : ParamId) (bare : Bool)

private theorem importDangling (oid : String) : ResolveError.ofImport (.dangling oid) = false := rfl

theorem resolveChildren_once (fqoid : String) (inner : Slot) (s : Progress) :
    RunsOnce (fun block => resolveChildren block fqoid id inner) s := by
  apply (RunsOnce.of_block inner s).before
  intro children t
  apply (updateParam_spares (by simp [importDangling])).bind
  intro _ t _
  exact childrenOf_spares (by simp [importDangling])

theorem locate_spares_import (slot : Slot) (s : Progress) :
    Spares ResolveError.ofImport s slot.locate :=
  locate_spares (by simp [importDangling])

theorem declare_once (declared : TypeCode) (s : Progress) :
    RunsOnce (fun block => declare block site oid id bare declared) s := by
  apply RunsOnce.after
    (checkNames_spares ofImport_onlyReferences (by simp [importDangling]) declared)
  intro _ t _
  apply (resolveChildren_once id (site.fqoid oid)
    (site.inner oid id (innerName oid declared)) t).before
  intro children t
  apply (checkAlternatives_spares ofImport_onlyReferences _ _ _).bind
  intro _ t _
  apply (addType_spares _).bind
  intro type t _
  dsimp only
  split
  · exact (addType_spares _).bind fun _ _ _ => pure_spares _
  · exact pure_spares _

theorem undeclared_once (declared : TypeCode) (s : Progress) :
    RunsOnce (fun block => undeclared block site oid id bare declared) s := by
  unfold undeclared
  cases bare with
  | true => exact .of_spares (pure_spares _)
  | false =>
    simp only [Bool.false_eq_true, if_false]
    cases site.isCommand with
    | false =>
      apply RunsOnce.after (throw_spares (ofImport_onlyReferences _ rfl))
      intro _ t h
      exact (throw_ok.mp h).elim
    | true =>
      apply (resolveChildren_once id (site.fqoid oid) (site.inner oid id (holderName oid)) s).before
      intro _ t
      exact pure_spares _

theorem settleType_once (declared : TypeCode) (binding : Option Binding) (s : Progress) :
    RunsOnce (fun block => settleType block bare site oid id declared binding) s := by
  cases binding with
  | some b =>
    exact .of_spares (inherit_spares ofImport_onlyReferences importDangling site oid id bare b)
  | none =>
    simp only [settleType]
    split
    · exact declare_once site oid id bare declared s
    · exact undeclared_once site oid id bare declared s

/-- A parameter that is written out resolves its children at most once. -/
theorem resolveDeclared_once (d : Declaration) (s : Progress) :
    RunsOnce (fun block => resolveDeclared block bare site oid d) s := by
  have hbad := ofImport_onlyReferences
  apply RunsOnce.after (lift_spares fun e => declaredType_avoids hbad)
  intro declared t _
  apply RunsOnce.after (note_spares _ _ _)
  intro _ t _
  apply RunsOnce.after (enterParam_spares hbad (blank site oid declared d))
  intro id t _
  apply RunsOnce.after (option_mapM_spares fun c _ =>
    ownConstraint_spares hbad (by simp [importDangling]) c)
  intro own t _
  apply RunsOnce.after
    (option_mapM_spares fun templateOid _ => bindTemplate_spares hbad (by simp [importDangling]))
  intro binding t _
  apply (settleType_once site oid id bare declared binding t).before
  intro typing t
  apply (option_forM_spares fun c _ => checkConstraint_spares hbad (by simp [importDangling])).bind
  intro _ t _
  apply (settleValue_spares hbad (by simp [importDangling]) (by simp [Declares, importDangling]) _
    d.value).bind
  intro value t _
  apply (updateParam_spares (by simp [importDangling])).bind
  intro _ t _
  exact (register_spares (by simp [importDangling])).bind fun _ _ _ => pure_spares _

end Once

/-- A call that resolves one parameter: the documents that are open, the last one first, and what is
to be resolved at which place. -/
structure Call where
  opened : List Path
  site : Site
  oid : String
  description : Description.Param

/-- Calls one after the other, each with those that it makes itself. -/
inductive Visits where
  | nil
  | cons (call : Call) (made rest : Visits)

mutual

/-- How a call passes: what comes of it, which calls it makes, and which documents it leaves
open. -/
inductive Passes (source : Source) :
    Call → Progress → Result ParamId → Visits → List Path → Prop where
  | refused {opened : List Path} {site : Site} {oid : String} {d : Declaration}
      {params : List (String × Description.Param)} {i : Import} {s t : Progress} {e : ResolveError}
      (elsewhere : d.source = some i)
      (fails : (openImport source opened site oid i).run s = .error e t) :
      Passes source ⟨opened, site, oid, ⟨d, params⟩⟩ s (.error e t) .nil opened
  | astray {opened : List Path} {site : Site} {oid : String} {d : Declaration}
      {params : List (String × Description.Param)} {i : Import} {s t u : Progress} {identity : Path}
      {q : Description.Param} {e : ResolveError} (elsewhere : d.source = some i)
      (opens : (openImport source opened site oid i).run s = .ok (identity, q) t)
      (lost : site.locate.run t = .error e u) :
      Passes source ⟨opened, site, oid, ⟨d, params⟩⟩ s (.error e u) .nil opened
  -- the document is open for the time of the call, whatever comes of it
  | imported {opened left : List Path} {site there : Site} {oid : String} {d : Declaration}
      {params : List (String × Description.Param)} {i : Import} {s t : Progress} {identity : Path}
      {q : Description.Param} {r : Result ParamId} {made : Visits} (elsewhere : d.source = some i)
      (opens : (openImport source opened site oid i).run s = .ok (identity, q) t)
      (found : site.locate.run t = .ok there t)
      (call : Passes source ⟨identity :: opened, there, oid, q⟩ t r made left) :
      Passes source ⟨opened, site, oid, ⟨d, params⟩⟩ s r
        (.cons ⟨identity :: opened, there, oid, q⟩ made .nil) left.tail
  | alone {opened : List Path} {site : Site} {oid : String} {d : Declaration}
      {params : List (String × Description.Param)} {s : Progress} {r : Result ParamId}
      (here : d.source = none)
      (same : ∀ block, (resolveDeclared block params.isEmpty site oid d).run s = r) :
      Passes source ⟨opened, site, oid, ⟨d, params⟩⟩ s r .nil opened
  | repeated {opened : List Path} {site : Site} {inner : Slot} {oid key : String} {d : Declaration}
      {params : List (String × Description.Param)} {s t : Progress}
      {f : Entries ParamId → Resolve ParamId}
      (here : d.source = none)
      (same : ∀ block, (resolveDeclared block params.isEmpty site oid d).run s =
        follow ((block inner).run t) f)
      (twice : Entries.duplicate? params = some key) :
      Passes source ⟨opened, site, oid, ⟨d, params⟩⟩ s
        (.error (.duplicateOid (site.fqoid oid) key) t) .nil opened
  | around {opened left : List Path} {site : Site} {inner : Slot} {oid : String} {d : Declaration}
      {params : List (String × Description.Param)} {s t : Progress}
      {f : Entries ParamId → Resolve ParamId}
      {r : Result (Entries ParamId)} {made : Visits}
      (here : d.source = none)
      (same : ∀ block, (resolveDeclared block params.isEmpty site oid d).run s =
        follow ((block inner).run t) f)
      (distinct : Entries.duplicate? params = none)
      (each : PassesEach source opened inner params t r made left) :
      Passes source ⟨opened, site, oid, ⟨d, params⟩⟩ s (follow r f) made left

/-- How the calls for parameters at one place pass, each with the documents that those before it
left open. -/
inductive PassesEach (source : Source) :
    List Path → Slot → List (String × Description.Param) → Progress →
    Result (Entries ParamId) → Visits → List Path → Prop where
  | nil {opened : List Path} {slot : Slot} {s : Progress} :
      PassesEach source opened slot [] s (.ok [] s) .nil opened
  | astray {opened : List Path} {slot : Slot} {oid : String} {q : Description.Param}
      {rest : List (String × Description.Param)} {s t : Progress} {e : ResolveError}
      (lost : slot.locate.run s = .error e t) :
      PassesEach source opened slot ((oid, q) :: rest) s (.error e t) .nil opened
  | stopped {opened left : List Path} {slot : Slot} {site : Site} {oid : String}
      {q : Description.Param} {rest : List (String × Description.Param)} {s t : Progress}
      {e : ResolveError} {made : Visits} (found : slot.locate.run s = .ok site s)
      (first : Passes source ⟨opened, site, oid, q⟩ s (.error e t) made left) :
      PassesEach source opened slot ((oid, q) :: rest) s (.error e t)
        (.cons ⟨opened, site, oid, q⟩ made .nil) left
  | cons {opened between left : List Path} {slot : Slot} {site : Site} {oid : String}
      {q : Description.Param} {rest : List (String × Description.Param)} {s t : Progress}
      {id : ParamId} {r : Result (Entries ParamId)} {made others : Visits}
      (found : slot.locate.run s = .ok site s)
      (first : Passes source ⟨opened, site, oid, q⟩ s (.ok id t) made between)
      (next : PassesEach source between slot rest t r others left) :
      PassesEach source opened slot ((oid, q) :: rest) s
        (follow r fun ids => pure ((oid, id) :: ids))
        (.cons ⟨opened, site, oid, q⟩ made others) left

end

variable {source : Source}

mutual

/-- A call leaves open what was open before it, whether it succeeds or fails. -/
theorem Passes.left_eq :
    ∀ {c : Call} {s : Progress} {r : Result ParamId} {made : Visits} {left : List Path},
    Passes source c s r made left → left = c.opened
  | _, _, _, _, _, .refused _ _ | _, _, _, _, _, .astray _ _ _ | _, _, _, _, _, .alone _ _
  | _, _, _, _, _, .repeated _ _ _ => rfl
  | _, _, _, _, _, .imported _ _ _ call => by rw [call.left_eq, List.tail_cons]
  | _, _, _, _, _, .around _ _ _ each => each.left_eq

theorem PassesEach.left_eq :
    ∀ {opened : List Path} {slot : Slot} {params : List (String × Description.Param)}
    {s : Progress} {r : Result (Entries ParamId)} {made : Visits} {left : List Path},
    PassesEach source opened slot params s r made left → left = opened
  | _, _, _, _, _, _, _, .nil | _, _, _, _, _, _, _, .astray _ => rfl
  | _, _, _, _, _, _, _, .stopped _ first => first.left_eq
  | _, _, _, _, _, _, _, .cons _ first next => by rw [next.left_eq, first.left_eq]

end

/-- What a run does with its block is told by the run. -/
theorem once_unique {F : Block → Resolve α} {inner inner' : Slot} {t' : Progress}
    {f f' : Entries ParamId → Resolve α}
    (h : ∀ block, (F block).run s = follow ((block inner).run t) f)
    (h' : ∀ block, (F block).run s = follow ((block inner').run t') f') :
    inner = inner' ∧ t = t' ∧ ∀ r, follow r f = follow r f' := by
  have hsame : ∀ block : Block, follow ((block inner).run t) f =
      follow ((block inner').run t') f' :=
    fun block => (h block).symm.trans (h' block)
  -- blocks that only fail show where they are run, and from which progress
  have ht := hsame fun _ => throw (.dangling "")
  have hinner := hsame fun slot => open Classical in
    if slot = inner then throw (.dangling "here") else throw (.dangling "there")
  refine ⟨?_, ?_, fun r => hsame fun _ _ => r⟩
  · by_contra hne
    simp only [if_true, if_neg (Ne.symm hne)] at hinner
    injection hinner with he
    simp at he
  · injection ht

theorem not_never_and_once {F : Block → Resolve α} {r : Result α} {inner : Slot}
    {f : Entries ParamId → Resolve α} (h : ∀ block, (F block).run s = r)
    (h' : ∀ block, (F block).run s = follow ((block inner).run t) f) : False := by
  have hsame : ∀ block block' : Block, follow ((block inner).run t) f =
      follow ((block' inner).run t) f :=
    fun block block' => (h' block).symm.trans ((h block).trans ((h block').symm.trans (h' block')))
  have hfail := hsame (fun _ => throw (.dangling "here")) fun _ => throw (.dangling "there")
  injection hfail with he
  simp at he

mutual

/-- A call passes in one way only. -/
theorem Passes.unique : ∀ {c : Call} {s : Progress} {r r' : Result ParamId} {made made' : Visits}
    {left left' : List Path}, Passes source c s r made left → Passes source c s r' made' left' →
    r = r' ∧ made = made'
  | _, _, _, _, _, _, _, _, .refused elsewhere fails, h' => by
    cases h' with
    | refused elsewhere' fails' =>
      cases elsewhere.symm.trans elsewhere'
      cases fails.symm.trans fails'
      exact ⟨rfl, rfl⟩
    | astray elsewhere' opens' | imported elsewhere' opens' =>
      cases elsewhere.symm.trans elsewhere'
      cases fails.symm.trans opens'
    | alone here | repeated here | around here => cases elsewhere.symm.trans here
  | _, _, _, _, _, _, _, _, .astray elsewhere opens lost, h' => by
    cases h' with
    | refused elsewhere' fails' =>
      cases elsewhere.symm.trans elsewhere'
      cases opens.symm.trans fails'
    | astray elsewhere' opens' lost' =>
      cases elsewhere.symm.trans elsewhere'
      cases opens.symm.trans opens'
      cases lost.symm.trans lost'
      exact ⟨rfl, rfl⟩
    | imported elsewhere' opens' found' =>
      cases elsewhere.symm.trans elsewhere'
      cases opens.symm.trans opens'
      cases lost.symm.trans found'
    | alone here | repeated here | around here => cases elsewhere.symm.trans here
  | _, _, _, _, _, _, _, _, .imported elsewhere opens found call, h' => by
    have hcall := fun r' made' left' (h : Passes source _ _ r' made' left') => call.unique h
    cases h' with
    | refused elsewhere' fails' =>
      cases elsewhere.symm.trans elsewhere'
      cases opens.symm.trans fails'
    | astray elsewhere' opens' lost' =>
      cases elsewhere.symm.trans elsewhere'
      cases opens.symm.trans opens'
      cases found.symm.trans lost'
    | imported elsewhere' opens' found' call' =>
      cases elsewhere.symm.trans elsewhere'
      cases opens.symm.trans opens'
      cases found.symm.trans found'
      obtain ⟨rfl, rfl⟩ := hcall _ _ _ call'
      exact ⟨rfl, rfl⟩
    | alone here | repeated here | around here => cases elsewhere.symm.trans here
  | _, _, _, _, _, _, _, _, .alone here same, h' => by
    cases h' with
    | refused elsewhere | imported elsewhere => cases elsewhere.symm.trans here
    | astray elsewhere => cases elsewhere.symm.trans here
    | alone _ same' => exact ⟨(same fun _ => pure []).symm.trans (same' fun _ => pure []), rfl⟩
    | repeated _ same' | around _ same' => exact (not_never_and_once same same').elim
  | _, _, _, _, _, _, _, _, .repeated here same twice, h' => by
    cases h' with
    | refused elsewhere | imported elsewhere => cases elsewhere.symm.trans here
    | alone _ same' => exact (not_never_and_once same' same).elim
    | astray elsewhere => cases elsewhere.symm.trans here
    | repeated _ same' twice' =>
      obtain ⟨rfl, rfl, _⟩ := once_unique same same'
      cases twice.symm.trans twice'
      exact ⟨rfl, rfl⟩
    | around _ _ distinct' => cases twice.symm.trans distinct'
  | _, _, _, _, _, _, _, _, .around here same distinct each, h' => by
    have heach := fun r' made' left' (h : PassesEach source _ _ _ _ r' made' left') => each.unique h
    cases h' with
    | refused elsewhere | imported elsewhere => cases elsewhere.symm.trans here
    | alone _ same' => exact (not_never_and_once same' same).elim
    | astray elsewhere => cases elsewhere.symm.trans here
    | repeated _ _ twice' => cases distinct.symm.trans twice'
    | around _ same' _ each' =>
      obtain ⟨rfl, rfl, hf⟩ := once_unique same same'
      obtain ⟨rfl, rfl⟩ := heach _ _ _ each'
      exact ⟨hf _, rfl⟩

theorem PassesEach.unique :
    ∀ {opened : List Path} {slot : Slot} {params : List (String × Description.Param)}
    {s : Progress} {r r' : Result (Entries ParamId)} {made made' : Visits} {left left' : List Path},
    PassesEach source opened slot params s r made left →
      PassesEach source opened slot params s r' made' left' →
    r = r' ∧ made = made'
  | _, _, _, _, _, _, _, _, _, _, .nil, h' => by
    cases h'
    exact ⟨rfl, rfl⟩
  | _, _, _, _, _, _, _, _, _, _, .astray lost, h' => by
    cases h' with
    | astray lost' =>
      cases lost.symm.trans lost'
      exact ⟨rfl, rfl⟩
    | stopped found' | cons found' => cases lost.symm.trans found'
  | _, _, _, _, _, _, _, _, _, _, .stopped found first, h' => by
    have hfirst := fun r' made' left' (h : Passes source _ _ r' made' left') => first.unique h
    cases h' with
    | astray lost' => cases found.symm.trans lost'
    | stopped found' first' =>
      cases found.symm.trans found'
      obtain ⟨he, rfl⟩ := hfirst _ _ _ first'
      cases he
      exact ⟨rfl, rfl⟩
    | cons found' first' =>
      cases found.symm.trans found'
      cases (hfirst _ _ _ first').1
  | _, _, _, _, _, _, _, _, _, _, .cons found first next, h' => by
    have hfirst := fun r' made' left' (h : Passes source _ _ r' made' left') => first.unique h
    have hnext := fun r' made' left' (h : PassesEach source _ _ _ _ r' made' left') => next.unique h
    cases h' with
    | astray lost' => cases found.symm.trans lost'
    | stopped found' first' =>
      cases found.symm.trans found'
      cases (hfirst _ _ _ first').1
    | cons found' first' next' =>
      cases found.symm.trans found'
      obtain ⟨he, rfl⟩ := hfirst _ _ _ first'
      cases he
      cases first.left_eq
      cases first'.left_eq
      obtain ⟨rfl, rfl⟩ := hnext _ _ _ next'
      exact ⟨rfl, rfl⟩

end

/-- What resolving imports does while some documents are open. -/
def ImportsPass (source : Source) (opened : List Path) (importer : Importer) : Prop :=
  ∀ {site : Site} {oid : String} {d : Declaration} {i : Import}
    (params : List (String × Description.Param)) (s : Progress), d.source = some i →
    ∃ made,
      Passes source ⟨opened, site, oid, ⟨d, params⟩⟩ s ((importer site oid i).run s) made opened

mutual

/-- A parameter is resolved by a call that passes. -/
theorem resolveParam_passes {opened : List Path} {importer : Importer}
    (hi : ImportsPass source opened importer) :
    ∀ (q : Description.Param) (site : Site) (oid : String) (s : Progress),
      ∃ made, Passes source ⟨opened, site, oid, q⟩ s
        ((resolveParam importer site oid q).run s) made opened
  | ⟨d, params⟩, site, oid, s => by
    cases hsource : d.source with
    | some i =>
      simp only [resolveParam, hsource]
      exact hi params s hsource
    | none =>
      simp only [resolveParam, hsource]
      cases resolveDeclared_once site oid params.isEmpty d s with
      | never same =>
        refine ⟨.nil, .alone hsource ?_⟩
        intro block
        rw [same, same]
      | @once inner t f same =>
        rw [same]
        cases hdistinct : Entries.duplicate? params with
        | some key =>
          simp only [checkDistinct, hdistinct]
          exact ⟨.nil, .repeated hsource same hdistinct⟩
        | none =>
          simp only [checkDistinct, hdistinct, pure_bind]
          obtain ⟨made, each⟩ := resolveEach_passes hi params inner t
          exact ⟨made, .around hsource same hdistinct each⟩

theorem resolveEach_passes {opened : List Path} {importer : Importer}
    (hi : ImportsPass source opened importer) :
    ∀ (params : List (String × Description.Param)) (slot : Slot) (s : Progress),
      ∃ made, PassesEach source opened slot params s
        ((resolveEach importer slot params).run s) made opened
  | [], slot, s => ⟨.nil, .nil⟩
  | (oid, q) :: rest, slot, s => by
    rw [resolveEach, run_bind]
    cases hfound : slot.locate.run s with
    | error e t => exact ⟨.nil, .astray hfound⟩
    | ok site u =>
      obtain ⟨_, _, rfl⟩ := locate_ok.mp hfound
      obtain ⟨made, first⟩ := resolveParam_passes hi q site oid s
      simp only [follow, run_bind]
      cases hq : (resolveParam importer site oid q).run s with
      | error e t =>
        rw [hq] at first
        exact ⟨_, .stopped hfound first⟩
      | ok id t =>
        rw [hq] at first
        obtain ⟨others, next⟩ := resolveEach_passes hi rest slot t
        exact ⟨_, .cons hfound first next⟩

end

/-- Imports pass while there is room: each call opens one document more, and they are finitely
many. -/
theorem importer_passes {room : Nat} {opened : List Path} (hroom : Roomy source room opened) :
    ImportsPass source opened (importer source room opened) := by
  induction room generalizing opened with
  | zero => exact absurd hroom.pos (Nat.lt_irrefl 0)
  | succ room ih =>
    intro site oid d i params s hsource
    rw [importer, run_bind]
    cases hopen : (openImport source opened site oid i).run s with
    | error e t => exact ⟨.nil, .refused hsource hopen⟩
    | ok opens t =>
      obtain ⟨identity, q⟩ := opens
      obtain ⟨path, log, _, hidentity, hparam, _⟩ := openImport_ok hopen
      simp only [follow, run_bind]
      cases hfound : site.locate.run t with
      | error e u => exact ⟨.nil, .astray hsource hopen hfound⟩
      | ok there u =>
        obtain ⟨_, _, rfl⟩ := locate_ok.mp hfound
        obtain ⟨made, call⟩ := resolveParam_passes (ih (hroom.cons hidentity hparam)) q there oid t
        exact ⟨_, .imported hsource hopen hfound call⟩

/-- A call is made, directly or not, where others are under way. The calls around it are listed from
the inside out. -/
inductive Visits.Has (c : Call) (around : List Call) : List Call → Visits → Prop where
  | here {made rest : Visits} : Has c around around (.cons c made rest)
  | inside {underway : List Call} {call : Call} {made rest : Visits}
      (h : Has c around (call :: underway) made) : Has c around underway (.cons call made rest)
  | next {underway : List Call} {call : Call} {made rest : Visits}
      (h : Has c around underway rest) : Has c around underway (.cons call made rest)

/-- The path that a call imports. -/
def Call.path? (source : Source) (c : Call) : Option Path :=
  c.description.source.bind fun i =>
    (importPath source c.site.folder (c.site.fqoid c.oid) c.oid i).toOption

/-- The document that a call imports, by its identity. -/
def Call.target? (source : Source) (c : Call) : Option Path :=
  (c.path? source).bind fun path => (source.identify path).toOption

/-- The documents that calls import. -/
def targets (source : Source) (calls : List Call) : List Path :=
  calls.filterMap (Call.target? source)

section Targets

variable {opened : List Path} {site : Site} {oid : String} {d : Declaration}
  {params : List (String × Description.Param)} {i : Import} {path identity : Path}
  {q : Description.Param} {e : ResolveError}

theorem Call.target?_eq_none {c : Call} (h : c.description.source = none) :
    c.target? source = none := by
  simp [Call.target?, Call.path?, h]

theorem Call.path?_eq_some {c : Call} (h : c.description.source = some i)
    (hpath : importPath source c.site.folder (c.site.fqoid c.oid) c.oid i = .ok path) :
    c.path? source = some path := by
  simp [Call.path?, h, hpath, Except.toOption]

theorem Call.target?_eq_some {c : Call} (h : c.path? source = some path)
    (hidentity : source.identify path = .ok identity) : c.target? source = some identity := by
  simp [Call.target?, h, hidentity, Except.toOption]

theorem targets_cons_here {calls : List Call} (h : d.source = none) :
    targets source (⟨opened, site, oid, ⟨d, params⟩⟩ :: calls) = targets source calls :=
  List.filterMap_cons_none (Call.target?_eq_none h)

theorem targets_cons_opens {calls : List Call} (h : d.source = some i)
    (hopen : (openImport source opened site oid i).run s = .ok (identity, q) t) :
    targets source (⟨opened, site, oid, ⟨d, params⟩⟩ :: calls) = identity ::
      targets source calls := by
  obtain ⟨path, log, hpath, hidentity, _, _⟩ := openImport_ok hopen
  have hpath' : Call.path? source ⟨opened, site, oid, ⟨d, params⟩⟩ = some path :=
    Call.path?_eq_some h hpath
  exact List.filterMap_cons_some (Call.target?_eq_some hpath' (importIdentity_ok hidentity).1)

/-- An import that does not open has no target, an unknown one, an open one, or one that says
nothing. -/
theorem openImport_error (h : (openImport source opened site oid i).run s = .error e t) :
    importPath source site.folder (site.fqoid oid) oid i = .error e ∨
      ∃ path, importPath source site.folder (site.fqoid oid) oid i = .ok path ∧
        (importIdentity source opened (site.fqoid oid) path = .error e ∨
          importedParam source (site.fqoid oid) path = .error e) := by
  have hlift : ∀ {α : Type} {x : Except ResolveError α} {s : Progress}, (lift x).run s =
      .error e t → x = .error e := by
    intro α x s hx
    cases x with
    | ok a => cases hx
    | error e' =>
      cases hx
      rfl
  simp only [openImport, bind_error] at h
  rcases h with h | ⟨path, _, hpath, h | ⟨identity, _, _, h | ⟨_, _, _, h | ⟨_, _, _, h⟩⟩⟩⟩
  · exact .inl (hlift h)
  · exact .inr ⟨path, (lift_ok.mp hpath).1, .inl (hlift h)⟩
  · cases h
  · exact .inr ⟨path, (lift_ok.mp hpath).1, .inr (hlift h)⟩
  · cases h

/-- An import is refused as a cycle only where its target is open. -/
theorem openImport_cycle {fqoid text : String}
    (h : (openImport source opened site oid i).run s = .error (.importFailed fqoid text .cycle) t) :
    ∃ path identity, importPath source site.folder (site.fqoid oid) oid i = .ok path ∧
      source.identify path = .ok identity ∧ identity ∈ opened ∧ site.fqoid oid = fqoid ∧
        path.text = text := by
  rcases openImport_error h with h | ⟨path, hpath, h | h⟩
  · unfold importPath at h
    dsimp only at h
    split at h <;> cases h
  · unfold importIdentity at h
    split at h
    · cases h
    · next identity hidentity =>
      split at h
      · next hopened =>
        cases h
        exact ⟨path, identity, hpath, hidentity, List.contains_iff_mem.mp hopened, rfl, rfl⟩
      · cases h
  · unfold importedParam at h
    split at h
    · cases h
    · split at h <;> cases h

theorem openImport_unhindered {fqoid : String} :
    (openImport source opened site oid i).run s ≠ .error (.importDepth fqoid) t := by
  intro h
  rcases openImport_error h with h | ⟨path, _, h | h⟩
  · exact importPath_error h
  · exact importIdentity_error h
  · exact importedParam_error h

end Targets

/-- Documents that are open: each once, and all of the source. -/
structure OpenedOnce (source : Source) (opened : List Path) : Prop where
  distinct : opened.Nodup
  among : opened ⊆ source.identities

/-- An import that opens is one more document that was not open. -/
theorem OpenedOnce.cons {opened : List Path} (h : OpenedOnce source opened) {site : Site}
    {oid : String} {i : Import} {identity : Path} {q : Description.Param}
    (hopen : (openImport source opened site oid i).run s = .ok (identity, q) t) :
    OpenedOnce source (identity :: opened) := by
  obtain ⟨path, log, _, hidentity, hparam, _⟩ := openImport_ok hopen
  have hroom : Roomy source (source.identities.length + 1) opened := ⟨h.distinct, h.among, by omega⟩
  have hcons := hroom.cons hidentity hparam
  exact ⟨hcons.distinct, hcons.among⟩

mutual

/-- The open documents of every call are the targets of the imports around it, each once. -/
theorem Passes.opened_eq :
    ∀ {c : Call} {s : Progress} {r : Result ParamId} {made : Visits} {left : List Path},
    Passes source c s r made left → ∀ {underway : List Call}, c.opened = targets source underway →
    OpenedOnce source c.opened → ∀ {c' : Call} {around : List Call},
      made.Has c' around (c :: underway) →
    c'.opened = targets source around ∧ OpenedOnce source c'.opened
  | _, _, _, _, _, .refused _ _, _, _, _, _, _, hc
  | _, _, _, _, _, .astray _ _ _, _, _, _, _, _, hc
  | _, _, _, _, _, .alone _ _, _, _, _, _, _, hc
  | _, _, _, _, _, .repeated _ _ _, _, _, _, _, _, hc => by cases hc
  | _, _, _, _, _, .imported elsewhere opens _ call, underway, hopened, honce, c', around, hc => by
    cases hc with
    | here => exact ⟨by rw [targets_cons_opens elsewhere opens, ← hopened], honce.cons opens⟩
    | inside hc =>
      refine call.opened_eq ?_ (honce.cons opens) hc
      rw [targets_cons_opens elsewhere opens, ← hopened]
    | next hc => cases hc
  | _, _, _, _, _, .around here _ _ each, underway, hopened, honce, c', around, hc => by
    refine each.opened_eq ?_ honce hc
    rw [targets_cons_here here, ← hopened]

theorem PassesEach.opened_eq :
    ∀ {opened : List Path} {slot : Slot} {params : List (String × Description.Param)}
    {s : Progress} {r : Result (Entries ParamId)} {made : Visits} {left : List Path},
    PassesEach source opened slot params s r made left → ∀ {underway : List Call},
    opened = targets source underway → OpenedOnce source opened →
    ∀ {c' : Call} {around : List Call}, made.Has c' around underway →
    c'.opened = targets source around ∧ OpenedOnce source c'.opened
  | _, _, _, _, _, _, _, .nil, _, _, _, _, _, hc
  | _, _, _, _, _, _, _, .astray _, _, _, _, _, _, hc => by cases hc
  | _, _, _, _, _, _, _, .stopped _ first, underway, hopened, honce, c', around, hc => by
    cases hc with
    | here => exact ⟨hopened, honce⟩
    | inside hc => exact first.opened_eq hopened honce hc
    | next hc => cases hc
  | _, _, _, _, _, _, _, .cons _ first next, underway, hopened, honce, c', around, hc => by
    cases hc with
    | here => exact ⟨hopened, honce⟩
    | inside hc => exact first.opened_eq hopened honce hc
    | next hc =>
      have hbetween := first.left_eq
      exact next.opened_eq (hbetween.trans hopened) (hbetween ▸ honce) hc

end

/-- A parameter that is written out fails for an import only where one below it does. -/
theorem resolveDeclared_error {block : Block} {bare : Bool} {site : Site} {oid : String}
    {d : Declaration} {e : ResolveError}
    (h : (resolveDeclared block bare site oid d).run s = .error e t) (he : e.ofImport = true) :
    ∃ inner u, (block inner).run u = .error e t := by
  cases resolveDeclared_once site oid bare d s with
  | never same own =>
    rw [own e t ((same block).symm.trans h)] at he
    cases he
  | @once inner u f same own =>
    rcases follow_error.mp ((same block).symm.trans h) with h | ⟨ids, v, _, h⟩
    · exact ⟨inner, u, h⟩
    · rw [own ids v e t h] at he
      cases he

/-- The import of a call does not open, for this reason. -/
def Call.Fails (source : Source) (c : Call) (e : ResolveError) : Prop :=
  ∃ i s t, c.description.source = some i ∧
    (openImport source c.opened c.site c.oid i).run s = .error e t

mutual

/-- Where a call fails for an import, that import is its own or that of a call which it makes. -/
theorem Passes.fails :
    ∀ {c : Call} {s : Progress} {r : Result ParamId} {made : Visits} {left : List Path},
    Passes source c s r made left → ∀ {e : ResolveError} {t : Progress}, r = .error e t →
      e.ofImport = true →
    ∀ (underway : List Call), c.Fails source e ∨
      ∃ c' around, made.Has c' around (c :: underway) ∧ c'.Fails source e
  | _, _, _, _, _, .refused elsewhere fails, e, t, hr, _, _ => by
    cases hr
    exact .inl ⟨_, _, _, elsewhere, fails⟩
  | _, _, _, _, _, .astray _ _ lost, e, t, hr, he, _ => by
    cases hr
    rw [locate_spares_import _ _ _ _ lost] at he
    cases he
  | _, _, _, _, _, .imported _ _ _ call, e, t, hr, he, underway => by
    rcases call.fails hr he (_ :: underway) with hc | ⟨c', around, hc', hf⟩
    · exact .inr ⟨_, _, .here, hc⟩
    · exact .inr ⟨c', around, .inside hc', hf⟩
  | _, _, _, _, _, .alone _ same, e, t, hr, he, _ => by
    obtain ⟨_, _, h⟩ := resolveDeclared_error ((same fun _ => pure []).trans hr) he
    cases h
  | _, _, _, _, _, .repeated _ _ _, e, t, hr, he, _ => by
    cases hr
    cases he
  | _, _, _, _, _, .around _ same _ each, e, t, hr, he, underway => by
    rcases follow_error.mp hr with h | ⟨ids, u, _, hf⟩
    · exact .inr (each.fails h he (_ :: underway))
    · -- the children succeed, so the fault is that of the parameter itself
      obtain ⟨_, _, h⟩ := resolveDeclared_error ((same fun _ _ => .ok ids u).trans hf) he
      cases h

theorem PassesEach.fails :
    ∀ {opened : List Path} {slot : Slot} {params : List (String × Description.Param)}
    {s : Progress} {r : Result (Entries ParamId)} {made : Visits} {left : List Path},
    PassesEach source opened slot params s r made left → ∀ {e : ResolveError} {t : Progress},
      r = .error e t →
    e.ofImport = true → ∀ (underway : List Call), ∃ c' around, made.Has c' around underway ∧
      c'.Fails source e
  | _, _, _, _, _, _, _, .nil, _, _, hr, _, _ => by cases hr
  | _, _, _, _, _, _, _, .astray lost, e, t, hr, he, _ => by
    cases hr
    rw [locate_spares_import _ _ _ _ lost] at he
    cases he
  | _, _, _, _, _, _, _, .stopped _ first, e, t, hr, he, underway => by
    injection hr with he' _
    rcases first.fails rfl (he' ▸ he) underway with hc | ⟨c', around, hc', hf⟩
    · exact ⟨_, _, .here, he' ▸ hc⟩
    · exact ⟨c', around, .inside hc', he' ▸ hf⟩
  | _, _, _, _, _, _, _, .cons _ _ next, e, t, hr, he, underway => by
    rcases follow_error.mp hr with h | ⟨_, _, _, h⟩
    · obtain ⟨c', around, hc', hf⟩ := next.fails h he underway
      exact ⟨c', around, .next hc', hf⟩
    · cases h

end

/-- How the parameters of one realm are resolved. -/
def resolveRealm (source : Source) (importRoot : Path) (description : Description.Device)
    (realm : Realm) :
    Resolve (Entries ParamId) :=
  resolveEach (importer source (source.identities.length + 1) []) (.root realm importRoot)
    (description.outermost realm)

/-- The calls of a pass over documents in memory: what is open during each is what is imported
around it, no document twice, and all of it is left as it was. -/
structure PassEnds (documents : Documents) (importRoot : Path) (description : Description.Device) :
    Prop where
  ends : ∀ realm s, ∃ visits,
    (∀ r made left,
      PassesEach documents.source [] (.root realm importRoot)
        (description.outermost realm) s r made left ↔
        r = (resolveRealm documents.source importRoot description realm).run s ∧ made = visits ∧
          left = []) ∧
    ∀ c around, visits.Has c around [] →
      c.opened = targets documents.source around ∧ c.opened.Nodup ∧
        c.opened ⊆ documents.entries.map Prod.fst ∧ c.opened.length ≤ documents.entries.length
  restored : ∀ c s r made left, Passes documents.source c s r made left → left = c.opened
  unhindered : ∀ ns oid,
    (resolveDevice ns description importRoot documents.source).result ≠ .error (.importDepth oid) ∧
      (resolveDevice ns description importRoot documents.source).result ≠ .error (.dangling oid)
  cycles : ∀ ns fqoid text,
    (resolveDevice ns description importRoot documents.source).result =
      .error (.importFailed fqoid text .cycle) →
    ∃ realm s t visits c around path identity,
      PassesEach documents.source [] (.root realm importRoot) (description.outermost realm) s
        (.error (.importFailed fqoid text .cycle) t) visits [] ∧
      visits.Has c around [] ∧ c.site.fqoid c.oid = fqoid ∧ c.path? documents.source = some path ∧
      path.text = text ∧ documents.source.identify path = .ok identity ∧
      ∃ importing ∈ around, importing.target? documents.source = some identity

section Whole

variable {importRoot : Path} {description : Description.Device} {e : ResolveError}

/-- Parameters of one realm pass, with nothing open before and after. -/
theorem resolveRealm_passes (source : Source) (importRoot : Path) (description : Description.Device)
    (realm : Realm) (s : Progress) :
    ∃ visits, PassesEach source [] (.root realm importRoot) (description.outermost realm) s
      ((resolveRealm source importRoot description realm).run s) visits [] :=
  resolveEach_passes (importer_passes (Roomy.start source)) _ _ s

/-- A device that fails for an import does so in a call of its pass. -/
theorem resolveDevice_fails {ns : String}
    (h : (resolveDevice ns description importRoot source).result = .error e)
    (he : e.ofImport = true) :
    ∃ realm s t visits c around,
      PassesEach source [] (.root realm importRoot) (description.outermost realm) s
        (.error e t) visits [] ∧ visits.Has c around [] ∧ c.Fails source e := by
  obtain ⟨realm, s, t, _, _, _, hforest⟩ := resolveDevice_error ofImport_onlyReferences h he
  rcases bind_error.mp hforest with h | ⟨_, u, _, heach⟩
  · rw [checkDistinct_spares ofImport_onlyReferences _ _ e t h] at he
    cases he
  · obtain ⟨visits, hpass⟩ := resolveRealm_passes source importRoot description realm u
    rw [show (resolveRealm source importRoot description realm).run u =
      .error e t from heach] at hpass
    obtain ⟨c, around, hc, hf⟩ := hpass.fails rfl he []
    exact ⟨realm, u, t, visits, c, around, hpass, hc, hf⟩

end Whole

theorem imports_end (documents : Documents) (importRoot : Path) (description : Description.Device) :
    PassEnds documents importRoot description where
  ends := by
    intro realm s
    obtain ⟨visits, hpass⟩ := resolveRealm_passes documents.source importRoot description realm s
    refine ⟨visits, ?_, ?_⟩
    · intro r made left
      constructor
      · intro h
        obtain ⟨hr, hmade⟩ := h.unique hpass
        exact ⟨hr, hmade, h.left_eq⟩
      · intro h
        obtain ⟨rfl, rfl, rfl⟩ := h
        exact hpass
    · intro c around hc
      obtain ⟨hopened, hdistinct, hamong⟩ :=
        hpass.opened_eq rfl ⟨List.nodup_nil, List.nil_subset _⟩ hc
      have hlength := hdistinct.length_le_of_subset hamong
      exact ⟨hopened, hdistinct, hamong, by simpa [Documents.source] using hlength⟩
  restored _ _ _ _ _ h := h.left_eq
  unhindered := by
    intro ns oid
    refine ⟨?_, resolveDevice_not_dangling ns description importRoot documents.source oid⟩
    intro h
    obtain ⟨_, _, _, _, c, _, _, _, i, s, t, _, hopen⟩ := resolveDevice_fails h rfl
    exact openImport_unhindered hopen
  cycles := by
    intro ns fqoid text h
    obtain ⟨realm, s, t, visits, c, around, hpass, hc, i, u, v, hsource, hopen⟩ :=
      resolveDevice_fails h rfl
    obtain ⟨path, identity, hpath, hidentity, hmem, hfqoid, htext⟩ := openImport_cycle hopen
    obtain ⟨hopened, _⟩ := hpass.opened_eq rfl ⟨List.nodup_nil, List.nil_subset _⟩ hc
    rw [hopened] at hmem
    exact ⟨realm, s, t, visits, c, around, path, identity, hpass, hc, hfqoid,
      Call.path?_eq_some hsource hpath, htext, hidentity, List.mem_filterMap.mp hmem⟩

/-- A struct that is described elsewhere. -/
def importedLoop : Description.Device :=
  .small
    [("a",
      ⟨{ Description.Declaration.ofType "STRUCT" with source := some ⟨none, some "a.json"⟩ }, []⟩)]
    []

/-- The field of the struct leads back to the struct, by another spelling of its path. -/
def loopDocuments : Documents :=
  .ofList [("params/a.json",
    "\x7b\"type\": \"STRUCT\", \"params\": " ++
      "\x7b\"b\": \x7b\"import\": \x7b\"file\": \"../a.json\"\x7d\x7d\x7d\x7d")]

/-- What was wrong. -/
def Outcome.fault? (o : Outcome) : Option ResolveError :=
  match o.result with
  | .error e => some e
  | .ok _ => none

theorem Outcome.result_eq {o : Outcome} {e : ResolveError} (h : o.fault? = some e) :
    o.result = .error e := by
  unfold Outcome.fault? at h
  split at h
  · next he =>
    cases h
    exact he
  · cases h

theorem importedLoop_ends :
    (resolveDevice "m" importedLoop ⟨"params"⟩ loopDocuments.source).result =
        .error (.importFailed "/a/b" "params/a/../a.json" .cycle) ∧
      ∃ (c : Call) (around : List Call), c.site.fqoid c.oid = "/a/b" ∧
        ∃ importing ∈ around, importing.target? loopDocuments.source =
          c.target? loopDocuments.source := by
  have hfails : (resolveDevice "m" importedLoop ⟨"params"⟩ loopDocuments.source).result =
      .error (.importFailed "/a/b" "params/a/../a.json" .cycle) :=
        Outcome.result_eq (by decide +kernel)
  obtain ⟨realm, s, t, visits, c, around, path, identity, _, _, hfqoid, hpath, _, hidentity,
      importing, hm, htarget⟩ :=
    (imports_end loopDocuments ⟨"params"⟩ importedLoop).cycles "m" _ _ hfails
  refine ⟨hfails, c, around, hfqoid, importing, hm, ?_⟩
  rw [htarget, Call.target?_eq_some hpath hidentity]

end DeviceModel.Resolve
