import DeviceModel.Proofs.ProgressInvariant
import DeviceModel.Proofs.Watching

namespace DeviceModel

/-- The parents of a parameter, their parents, and so on. -/
inductive Device.Above (d : Device) (a : ParamId) : ParamId → Prop where
  | parent {id : ParamId} {p : Param} (hp : d.param? id = some p) (ha : p.parent = some a) :
      Above d a id
  | further {id parent : ParamId} {p : Param} (hp : d.param? id = some p)
      (hparent : p.parent = some parent) (above : Above d a parent) : Above d a id

namespace Resolve

/-- What of a parameter is settled when it is entered in the arena. -/
structure Position where
  id : ParamId
  fqoid : String
  parent : Option ParamId
  realm : Realm
  isCommand : Bool

def Position.ident (P : Position) : String := Param.identOf P.realm P.fqoid

def position (p : Param) : Position := ⟨p.id, p.fqoid, p.parent, p.realm, p.isCommand⟩

/-- A moment, as far as the registry depends on it. -/
structure Ledger where
  nodes : Array Param
  idents : Entries String
  registry : Registry
  underway : List ParamId
  finished : List ParamId

def Moment.ledger (m : Moment) : Ledger :=
  ⟨m.device.nodes, m.progress.idents, m.registry, m.underway, m.finished⟩

namespace Ledger

def param? (l : Ledger) (id : ParamId) : Option Param := l.nodes[id.index]?

def position? (l : Ledger) (id : ParamId) : Option Position := (l.param? id).map position

/-- Parameters that have been begun. -/
def begun (l : Ledger) : List ParamId := l.underway ++ l.finished

/-- The registry after a parameter is finished. -/
def registered (l : Ledger) (P : Position) : Registry :=
  match P.realm with
  | .params => l.registry.insert P.fqoid P.id
  | .commands => l.registry

/-- What one step can do. -/
inductive Step (l : Ledger) : Ledger → Prop where
  | still : Step l l
  | add (p : Param) (hid : p.id = ⟨l.nodes.size⟩)
      (hcommand : p.isCommand = true → p.realm = .commands) :
      Step l { l with nodes := l.nodes.push p }
  | enter {P : Position} (hP : l.position? P.id = some P) (hparent : P.parent = l.underway.head?)
      (hnew : P.id ∉ l.begun) (hfree : l.idents.get? P.ident = none) :
      Step l { l with idents := (P.ident, P.fqoid) :: l.idents, underway := P.id :: l.underway }
  | change {id : ParamId} {rest : List ParamId} {p q : Param} (hunder : l.underway = id :: rest)
      (hp : l.param? id = some p) (hq : position q = position p) :
      Step l { l with nodes := l.nodes.setIfInBounds id.index q }
  | finish {P : Position} {rest : List ParamId} (hunder : l.underway = P.id :: rest)
      (hP : l.position? P.id = some P) :
      Step l { l with registry := l.registered P, underway := rest, finished := P.id :: l.finished }

/-- Each of these has the next one as its parent, and the last one has none. -/
def Lineage (l : Ledger) : List ParamId → Prop
  | [] => True
  | id :: rest => (∃ P, l.position? id = some P ∧ P.parent = rest.head?) ∧ l.Lineage rest

/-- What holds at every moment. No two parameters that have been begun have the same stem of names,
so no two of them have the same oid in the same realm. -/
structure Sound (l : Ledger) : Prop where
  numbered : ∀ {id P}, l.position? id = some P → P.id = id
  commands : ∀ {id P}, l.position? id = some P → P.isCommand = true → P.realm = .commands
  nodup : l.begun.Nodup
  claimed : ∀ {id}, id ∈ l.begun → ∃ P, l.position? id = some P ∧ (l.idents.get? P.ident).isSome
  distinct : ∀ {id id' P P'}, id ∈ l.begun → id' ∈ l.begun → l.position? id = some P →
    l.position? id' = some P' → P.ident = P'.ident → id = id'
  lineage : l.Lineage l.underway
  exact : ∀ s id, l.registry.entries.get? s = some id ↔
    id ∈ l.finished ∧ ∃ P, l.position? id = some P ∧ P.realm = .params ∧ P.fqoid = s

variable {l l' : Ledger} {id : ParamId} {P : Position} {p q : Param}

theorem position?_eq_some_iff :
    l.position? id = some P ↔ ∃ p, l.param? id = some p ∧ position p = P :=
  Option.map_eq_some_iff

/-- A new parameter is behind all that are there. -/
theorem param?_push (l : Ledger) (p : Param) (id : ParamId) :
    { l with nodes := l.nodes.push p }.param? id = if id.index =
      l.nodes.size then some p else l.param? id :=
  Array.getElem?_push

theorem param?_push_of_some (h : l.param? id = some q) (p : Param) :
    { l with nodes := l.nodes.push p }.param? id = some q := by
  have hlt := (Array.getElem?_eq_some_iff.mp h).1
  rw [param?_push, if_neg (Nat.ne_of_lt hlt), h]

theorem param?_set (hp : l.param? id = some p) (q : Param) (id' : ParamId) :
    { l with nodes := l.nodes.setIfInBounds id.index q }.param? id' = if id' =
      id then some q else l.param? id' := by
  have hlt := (Array.getElem?_eq_some_iff.mp hp).1
  by_cases h : id' = id
  · subst h
    rw [if_pos rfl]
    exact Array.getElem?_setIfInBounds_self_of_lt hlt
  · have hne : id.index ≠ id'.index := fun he => h (by cases id; cases id'; cases he; rfl)
    rw [if_neg h]
    exact Array.getElem?_setIfInBounds_ne hne

/-- Changing a parameter leaves every position as it is. -/
theorem position?_set (hp : l.param? id = some p) (hq : position q = position p) (id' : ParamId) :
    { l with nodes := l.nodes.setIfInBounds id.index q }.position? id' = l.position? id' := by
  simp only [position?, param?_set hp]
  split
  · next h =>
    rw [h, hp, Option.map_some, Option.map_some, hq]
  · rfl

/-- What is there stays where it is when a parameter is added. -/
theorem position?_push_of_some (h : l.position? id = some P) (p : Param) :
    { l with nodes := l.nodes.push p }.position? id = some P := by
  obtain ⟨q, hq, rfl⟩ := position?_eq_some_iff.mp h
  exact position?_eq_some_iff.mpr ⟨q, param?_push_of_some hq p, rfl⟩

theorem position?_push {p : Param} (h : { l with nodes := l.nodes.push p }.position? id = some P) :
    (id.index = l.nodes.size ∧ P = position p) ∨ l.position? id = some P := by
  obtain ⟨q, hq, rfl⟩ := position?_eq_some_iff.mp h
  rw [param?_push] at hq
  split at hq
  · next he =>
    cases hq
    exact .inl ⟨he, rfl⟩
  · exact .inr (position?_eq_some_iff.mpr ⟨q, hq, rfl⟩)

/-- A lineage depends on positions only. -/
theorem Lineage.mono (hpos : ∀ id P, l.position? id = some P → l'.position? id = some P) :
    ∀ {ids : List ParamId}, l.Lineage ids → l'.Lineage ids
  | [], _ => trivial
  | _ :: _, ⟨⟨P, hP, hparent⟩, hrest⟩ => ⟨⟨P, hpos _ _ hP, hparent⟩, mono hpos hrest⟩

/-- Whatever is above the first of a lineage is further on in it. -/
theorem Lineage.mem_of_above {m : Moment} {a : ParamId} (above : m.device.Above a id) :
    ∀ {rest : List ParamId}, m.ledger.Lineage (id :: rest) → a ∈ rest := by
  have hparent {id parent : ParamId} {p : Param} {rest : List ParamId}
      (hp : m.device.param? id = some p)
        (ha : p.parent = some parent) (h : m.ledger.Lineage (id :: rest)) :
        rest.head? = some parent := by
    obtain ⟨⟨P, hP, hhead⟩, -⟩ := h
    obtain ⟨q, hq, rfl⟩ := position?_eq_some_iff.mp hP
    cases hp.symm.trans hq
    exact hhead.symm.trans ha
  induction above with
  | parent hp ha =>
    intro rest h
    exact List.mem_of_mem_head? (hparent hp ha h)
  | further hp ha above ih =>
    intro rest h
    have hhead := hparent hp ha h
    cases rest with
    | nil => cases hhead
    | cons next rest =>
      cases hhead
      exact List.mem_cons_of_mem _ (ih h.2)

namespace Sound

/-- What is begun is there already. -/
theorem not_begun (h : l.Sound) : (⟨l.nodes.size⟩ : ParamId) ∉ l.begun := by
  intro hm
  obtain ⟨P, hP, -⟩ := h.claimed hm
  obtain ⟨p, hp, -⟩ := position?_eq_some_iff.mp hP
  exact Nat.lt_irrefl _ (Array.getElem?_eq_some_iff.mp hp).1

theorem add (h : l.Sound) (p : Param) (hid : p.id = ⟨l.nodes.size⟩)
    (hcommand : p.isCommand = true → p.realm = .commands) :
    { l with nodes := l.nodes.push p }.Sound := by
  -- of what is begun, nothing has moved
  have hold {id : ParamId} {P : Position} (hm : id ∈ l.begun)
      (hP : { l with nodes := l.nodes.push p }.position? id = some P) :
      l.position? id = some P := by
    rcases position?_push hP with ⟨he, -⟩ | hP
    · have : id = ⟨l.nodes.size⟩ := by rw [← he]
      exact absurd (this ▸ hm) h.not_begun
    · exact hP
  constructor
  case numbered =>
    intro id P hP
    rcases position?_push hP with ⟨he, rfl⟩ | hP
    · rw [← he] at hid
      exact hid
    · exact h.numbered hP
  case commands =>
    intro id P hP
    rcases position?_push hP with ⟨-, rfl⟩ | hP
    · exact hcommand
    · exact h.commands hP
  case nodup => exact h.nodup
  case claimed =>
    intro id hm
    obtain ⟨P, hP, hident⟩ := h.claimed hm
    exact ⟨P, position?_push_of_some hP p, hident⟩
  case distinct =>
    intro id id' P P' hm hm' hP hP'
    exact h.distinct hm hm' (hold hm hP) (hold hm' hP')
  case lineage => exact h.lineage.mono fun _ _ hP => position?_push_of_some hP p
  case exact =>
    intro s id
    refine (h.exact s id).trans
      (and_congr_right fun hm => exists_congr fun P => and_congr_left fun _ => ?_)
    exact ⟨fun hP => position?_push_of_some hP p, hold (List.mem_append_right _ hm)⟩

theorem enter (h : l.Sound) (hP : l.position? P.id = some P) (hparent : P.parent = l.underway.head?)
    (hnew : P.id ∉ l.begun) (hfree : l.idents.get? P.ident = none) :
    { l with idents := (P.ident, P.fqoid) :: l.idents, underway := P.id :: l.underway }.Sound := by
  -- a stem that is free is that of nothing begun
  have hother {id : ParamId} {Q : Position} (hm : id ∈ l.begun) (hQ : l.position? id = some Q) :
      Q.ident ≠ P.ident := by
    intro he
    obtain ⟨Q', hQ', hident⟩ := h.claimed hm
    cases hQ.symm.trans hQ'
    rw [he, hfree] at hident
    cases hident
  constructor
  case numbered => exact h.numbered
  case commands => exact h.commands
  case nodup => exact List.nodup_cons.mpr ⟨hnew, h.nodup⟩
  case claimed =>
    intro id hm
    rcases List.mem_cons.mp hm with rfl | hm
    · exact ⟨P, hP, by simp [Entries.get?]⟩
    · obtain ⟨Q, hQ, hident⟩ := h.claimed hm
      refine ⟨Q, hQ, ?_⟩
      rw [Entries.get?, List.lookup_cons, beq_false_of_ne (hother hm hQ)]
      exact hident
  case distinct =>
    intro id id' Q Q' hm hm' hQ hQ' he
    rcases List.mem_cons.mp hm with rfl | hm <;> rcases List.mem_cons.mp hm' with rfl | hm'
    · rfl
    · cases hP.symm.trans hQ
      exact absurd he.symm (hother hm' hQ')
    · cases hP.symm.trans hQ'
      exact absurd he (hother hm hQ)
    · exact h.distinct hm hm' hQ hQ' he
  case lineage =>
    refine ⟨⟨P, hP, hparent⟩, h.lineage.mono ?_⟩
    exact fun _ _ hQ => hQ
  case exact => exact h.exact

theorem change (h : l.Sound) (hp : l.param? id = some p) (hq : position q = position p) :
    { l with nodes := l.nodes.setIfInBounds id.index q }.Sound := by
  have hsame := position?_set hp hq
  constructor
  case numbered => exact fun hP => h.numbered ((hsame _).symm.trans hP)
  case commands => exact fun hP => h.commands ((hsame _).symm.trans hP)
  case nodup => exact h.nodup
  case claimed =>
    intro id' hm
    rw [hsame]
    exact h.claimed hm
  case distinct =>
    intro id' id'' P P' hm hm' hP hP'
    rw [hsame] at hP hP'
    exact h.distinct hm hm' hP hP'
  case lineage => exact h.lineage.mono fun _ _ hP => (hsame _).trans hP
  case exact =>
    intro s id'
    rw [hsame]
    exact h.exact s id'

/-- The oid of a parameter under way is not registered. -/
theorem unregistered (h : l.Sound) (hm : P.id ∈ l.underway) (hP : l.position? P.id = some P)
    (hrealm : P.realm = .params) : l.registry.entries.get? P.fqoid = none := by
  rw [Option.eq_none_iff_forall_not_mem]
  intro id hid
  obtain ⟨hfinished, Q, hQ, hrealm', hfqoid⟩ := (h.exact _ _).mp hid
  have hident : P.ident = Q.ident := by rw [Position.ident, Position.ident, hrealm, hrealm', hfqoid]
  have he : P.id = id :=
    h.distinct (List.mem_append_left _ hm) (List.mem_append_right _ hfinished) hP hQ hident
  exact (List.nodup_append.mp h.nodup).2.2 _ hm _ hfinished he

theorem finish (h : l.Sound) {rest : List ParamId} (hunder : l.underway = P.id :: rest)
    (hP : l.position? P.id = some P) :
    { l with registry := l.registered P, underway := rest, finished := P.id ::
      l.finished }.Sound := by
  have hbegun : (rest ++ P.id :: l.finished).Perm l.begun := by
    rw [begun, hunder]
    exact List.perm_middle
  have hmem {id : ParamId} (hm : id ∈ rest ++ P.id :: l.finished) : id ∈ l.begun :=
    hbegun.mem_iff.mp hm
  constructor
  case numbered => exact h.numbered
  case commands => exact h.commands
  case nodup => exact hbegun.nodup_iff.mpr h.nodup
  case claimed => exact fun hm => h.claimed (hmem hm)
  case distinct => exact fun hm hm' => h.distinct (hmem hm) (hmem hm')
  case lineage =>
    have hlineage := h.lineage
    rw [hunder] at hlineage
    refine hlineage.2.mono ?_
    exact fun _ _ hQ => hQ
  case exact =>
    change ∀ s id, (l.registered P).entries.get? s = some id ↔
      id ∈ P.id :: l.finished ∧ ∃ Q, l.position? id = some Q ∧ Q.realm = .params ∧ Q.fqoid = s
    intro s id
    -- what is finished now has one entry, under its own oid, unless it is a command's
    have hself : (id = P.id ∧ ∃ Q, l.position? id = some Q ∧ Q.realm = .params ∧ Q.fqoid = s) ↔
        id = P.id ∧ P.realm = .params ∧ P.fqoid = s := by
      refine and_congr_right fun he => ?_
      subst he
      simp [hP]
    rw [List.mem_cons, or_and_right, hself, ← h.exact s id, registered]
    cases hrealm : P.realm with
    | commands => simp
    | params =>
      have hfree := h.unregistered (by simp [hunder]) hP hrealm
      change (l.registry.insert P.fqoid P.id).entries.lookup s = some id ↔ _
      rw [Registry.lookup_insert]
      by_cases hs : s = P.fqoid
      · subst hs
        rw [hfree]
        simp [eq_comm]
      · have hs' : P.fqoid ≠ s := Ne.symm hs
        simp [hs, hs', Entries.get?]

end Sound

/-- One step keeps what holds at every moment. -/
theorem Step.sound (step : Step l l') (h : l.Sound) : l'.Sound := by
  cases step with
  | still => exact h
  | add p hid hcommand => exact h.add p hid hcommand
  | enter hP hparent hnew hfree => exact h.enter hP hparent hnew hfree
  | change hunder hp hq => exact h.change hp hq
  | finish hunder hP => exact h.finish hunder hP

/-- At most one entry is new in the registry, under an oid that had none. -/
def Grows (l l' : Ledger) : Prop := l'.registry = l.registry ∨
  ∃ fqoid id, l.registry.entries.get? fqoid = none ∧ l'.registry = l.registry.insert fqoid id

theorem Step.grows (step : Step l l') (h : l.Sound) : l.Grows l' := by
  cases step with
  | still => exact .inl rfl
  | add p hid hcommand => exact .inl rfl
  | enter hP hparent hnew hfree => exact .inl rfl
  | change hunder hp hq => exact .inl rfl
  | @finish P rest hunder hP =>
    change l.registered P = _ ∨ ∃ s id, _ ∧ l.registered P = _
    rw [registered]
    cases hrealm : P.realm with
    | commands => exact .inl rfl
    | params => exact .inr ⟨P.fqoid, P.id, h.unregistered (by simp [hunder]) hP hrealm, rfl⟩

/-- One step moves no parameter. -/
theorem Step.position (step : Step l l') (hP : l.position? id = some P) :
    l'.position? id = some P := by
  cases step with
  | still => exact hP
  | add p hid hcommand => exact position?_push_of_some hP p
  | enter hQ hparent hnew hfree => exact hP
  | change hunder hp hq => exact (position?_set hp hq id).trans hP
  | finish hunder hQ => exact hP

/-- What is finished stays finished, and as it is. -/
def Kept (l l' : Ledger) : Prop := ∀ id ∈ l.finished, id ∈ l'.finished ∧ l'.param? id = l.param? id

theorem Kept.trans {l'' : Ledger} (h : l.Kept l') (h' : l'.Kept l'') : l.Kept l'' := by
  intro id hm
  obtain ⟨hm', hp'⟩ := h id hm
  obtain ⟨hm'', hp''⟩ := h' id hm'
  exact ⟨hm'', hp''.trans hp'⟩

theorem Step.kept (step : Step l l') (h : l.Sound) : l.Kept l' := by
  intro id hm
  obtain ⟨P, hP, -⟩ := h.claimed (List.mem_append_right _ hm)
  obtain ⟨p, hp, -⟩ := position?_eq_some_iff.mp hP
  cases step with
  | still => exact ⟨hm, rfl⟩
  | add q hid hcommand => exact ⟨hm, (param?_push_of_some hp q).trans hp.symm⟩
  | enter hP hparent hnew hfree => exact ⟨hm, rfl⟩
  | @change id' rest p' q hunder hp' hq =>
    -- only what is under way changes
    have hne : id ≠ id' := by
      rintro rfl
      exact (List.nodup_append.mp h.nodup).2.2 _ (by simp [hunder]) _ hm rfl
    exact ⟨hm, by rw [param?_set hp', if_neg hne]⟩
  | finish hunder hP => exact ⟨List.mem_cons_of_mem _ hm, rfl⟩

/-- What is kept is registered as it was. -/
theorem Kept.registered (h : l.Kept l') (hs : l.Sound) (hs' : l'.Sound) {s : String}
    (hid : l.registry.entries.get? s = some id) :
    l'.registry.entries.get? s = some id ∧ l'.param? id = l.param? id := by
  obtain ⟨hm, P, hP, hrealm, hfqoid⟩ := (hs.exact s id).mp hid
  obtain ⟨hm', hp⟩ := h id hm
  refine ⟨(hs'.exact s id).mpr ⟨hm', P, ?_, hrealm, hfqoid⟩, hp⟩
  rw [position?, hp]
  exact hP

end Ledger

end Resolve

end DeviceModel
