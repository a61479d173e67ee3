import DeviceModel.Proofs.Singles
import DeviceModel.Proofs.Steps

namespace DeviceModel

open Number

namespace Description

/-- A range with what it leaves out filled in. -/
def Range.filled {α : Type} [Bound α] (r : Description.Range α) : DeviceModel.Range α where
  min := r.min
  max := r.max
  step := r.step.getD Bound.one
  displayMin := r.displayMin.getD r.min
  displayMax := r.displayMax.getD r.max

/-- Choices are not strict unless they say so. -/
def Choices.filled {α β : Type} (f : α → β) (c : Description.Choices α) :
    DeviceModel.Choices β where
  choices := c.choices.map f
  strict := c.strict.getD false

/-- A choice as it is written is the choice that is meant. -/
def Choice.filled {α : Type} (c : Description.Choice α) : DeviceModel.Choice α := ⟨c.value, c.name⟩

/-- The type code and the payload that goes with it; everything else is left out. -/
def Constraint.relevant (c : Description.Constraint) : Description.Constraint where
  type := c.type
  reference := none
  intRange := if c.type = some "INT_RANGE" then c.intRange else none
  floatRange := if c.type = some "FLOAT_RANGE" then c.floatRange else none
  intChoice := if c.type = some "INT_CHOICE" then c.intChoice else none
  namedChoice := if c.type = some "STRING_STRING_CHOICE" then c.namedChoice else none
  picklist := if c.type = some "STRING_CHOICE" then c.picklist else none

end Description

/-- Bounds in order and a step that goes up, as two relations have it. -/
structure Range.Consistent {α : Type} (atMost : α → α → Prop) (positive : α → Prop) (r : Range α) :
    Prop where
  bounds : atMost r.min r.max
  step : positive r.step
  displayBounds : atMost r.displayMin r.displayMax

/-- There are choices, and no two have the same value. -/
structure Distinct {α : Type} (values : List α) : Prop where
  given : values ≠ []
  nodup : values.Nodup

/-- The number is above zero. -/
def Number.Single.Positive (x : Single) : Prop := ∃ a ∈ x.value.place, 0 < a

/-- The rule that a constraint states: it goes with the type code, and its payload is there and
consistent. Whether the bounds of floats are in order is left open. -/
inductive Rule.Stated (atMost : Single → Single → Prop) (c : Description.Constraint) :
    Rule → Prop where
  | intRange {r : Description.Range Int32} (type : c.type = some "INT_RANGE")
      (given : c.intRange = some r)
      (consistent : r.filled.Consistent (· ≤ ·) (0 < ·)) : Rule.Stated atMost c (.intRange r.filled)
  | floatRange {r : Description.Range Single} (type : c.type = some "FLOAT_RANGE")
      (given : c.floatRange = some r)
      (consistent : r.filled.Consistent atMost Single.Positive) :
      Rule.Stated atMost c (.floatRange r.filled)
  | intChoice {cs : Description.Choices (Description.Choice Int32)}
      (type : c.type = some "INT_CHOICE")
      (given : c.intChoice = some cs) (distinct : Distinct (cs.choices.map (·.value))) :
      Rule.Stated atMost c (.intChoice (cs.filled Description.Choice.filled))
  | stringChoice {cs : Description.Choices (Description.Choice String)}
      (type : c.type = some "STRING_STRING_CHOICE")
      (given : c.namedChoice = some cs) (distinct : Distinct (cs.choices.map (·.value))) :
      Rule.Stated atMost c (.stringChoice (cs.filled Description.Choice.filled))
  | picklist {cs : Description.Choices String} (type : c.type = some "STRING_CHOICE")
      (given : c.picklist = some cs)
      (distinct : Distinct cs.choices) : Rule.Stated atMost c (.picklist (cs.filled id))

namespace Rule

open Resolve (except_bind_ok except_pure_ok except_mapError_ok)

theorem checkRange_eq {α : Type} [Bound α] (r : Description.Range α) :
    checkRange r =
      if Bound.exceeds r.filled.min r.filled.max then
        .error (.bounds (Bound.text r.filled.min) (Bound.text r.filled.max))
      else if Bound.isPositive r.filled.step then
        if Bound.exceeds r.filled.displayMin r.filled.displayMax then
          .error (.displayBounds (Bound.text r.filled.displayMin) (Bound.text r.filled.displayMax))
        else .ok r.filled
      else .error (.step (Bound.text r.filled.step)) := rfl

theorem checkRange_ok_iff {α : Type} [Bound α] {r : Description.Range α} {range : Range α} :
    checkRange r = .ok range ↔
      range.Consistent (fun a b => Bound.exceeds a b = false) (fun a => Bound.isPositive a = true) ∧
        range = r.filled := by
  rw [checkRange_eq]
  constructor
  · intro h
    split at h
    · cases h
    · next hbounds =>
      split at h
      · next hstep =>
        split at h
        · cases h
        · next hdisplay =>
          cases h
          exact ⟨⟨by simpa using hbounds, hstep, by simpa using hdisplay⟩, rfl⟩
      · cases h
  · rintro ⟨⟨hbounds, hstep, hdisplay⟩, rfl⟩
    simp only [hbounds, hstep, hdisplay]
    rfl

theorem checkChoices_ok_iff {α : Type} [BEq α] [LawfulBEq α] {text : α → String} {values : List α}
    {u : Unit} :
    checkChoices text values = .ok u ↔ Distinct values := by
  unfold checkChoices
  cases values with
  | nil =>
    constructor
    · intro h
      cases h
    · intro h
      exact absurd rfl h.given
  | cons a rest =>
    simp only [List.isEmpty_cons]
    cases hrepeat : firstRepeat? [] (a :: rest) with
    | some v =>
      constructor
      · intro h
        cases h
      · intro h
        rw [firstRepeat?_eq_none h.nodup (by simp)] at hrepeat
        cases hrepeat
    | none =>
      constructor
      · intro _
        exact ⟨by simp, (nodup_of_firstRepeat? hrepeat).1⟩
      · intro _
        rfl

theorem checkNamedChoices_ok_iff {α : Type} [BEq α] [LawfulBEq α] {text : α → String}
    {cs : Description.Choices (Description.Choice α)} {c : Choices (Choice α)} :
    checkNamedChoices text cs = .ok c ↔
      Distinct (cs.choices.map (·.value)) ∧ c = cs.filled Description.Choice.filled := by
  simp only [checkNamedChoices, except_bind_ok, except_pure_ok, checkChoices_ok_iff, exists_const]
  exact and_congr_right fun _ => eq_comm

theorem checkPicklist_ok_iff {cs : Description.Choices String} {c : Choices String} :
    checkPicklist cs = .ok c ↔ Distinct cs.choices ∧ c = cs.filled id := by
  simp only [checkPicklist, except_bind_ok, except_pure_ok, checkChoices_ok_iff, exists_const]
  rw [Description.Choices.filled, List.map_id]
  exact and_congr_right fun _ => eq_comm

theorem payload_ok_iff {α β : Type} {given : Option α} {check : α → Checked β} {b : β} :
    payload given check = .ok b ↔ ∃ a, given = some a ∧ check a = .ok b := by
  cases given with
  | none =>
    constructor
    · intro h
      cases h
    · rintro ⟨_, h, _⟩
      cases h
  | some a => simp [payload]

/-- A rule is accepted if its payload is there and passes its check. -/
theorem checked_ok_iff {α β : Type} {oid code : String} {given : Option α} {check : α → Checked β}
    {f : β → Rule} {rule : Rule} :
    (f <$> payload given check).mapError (ResolveError.invalidConstraint oid code) = .ok rule ↔
      ∃ a b, given = some a ∧ check a = .ok b ∧ rule = f b := by
  rw [except_mapError_ok, map_eq_pure_bind, except_bind_ok]
  simp only [except_pure_ok, payload_ok_iff]
  constructor
  · rintro ⟨b, ⟨a, hgiven, hcheck⟩, rfl⟩
    exact ⟨a, b, hgiven, hcheck, rfl⟩
  · rintro ⟨a, b, hgiven, hcheck, rfl⟩
    exact ⟨b, ⟨a, hgiven, hcheck⟩, rfl⟩

end Rule

theorem Range.consistent_congr {α : Type} {atMost atMost' : α → α → Prop}
    {positive positive' : α → Prop} (hatMost : ∀ a b, atMost a b ↔ atMost' a b)
    (hpositive : ∀ a, positive a ↔ positive' a) {r : Range α} :
    r.Consistent atMost positive ↔ r.Consistent atMost' positive' := by
  constructor
  · rintro ⟨hbounds, hstep, hdisplay⟩
    exact ⟨(hatMost _ _).mp hbounds, (hpositive _).mp hstep, (hatMost _ _).mp hdisplay⟩
  · rintro ⟨hbounds, hstep, hdisplay⟩
    exact ⟨(hatMost _ _).mpr hbounds, (hpositive _).mpr hstep, (hatMost _ _).mpr hdisplay⟩

/-- One number does not exceed another: it is at most the other, or one of them is NaN. -/
def Number.Single.NotAbove (x y : Single) : Prop := x.Le y ∨ x.isNaN = true ∨ y.isNaN = true

theorem Number.Single.place_zero : Single.zero.value.place = some 0 := by
  have hvalue : Single.zero.value = .finite false 0 (-149) := rfl
  rw [hvalue, Binary.place]
  simp [size]

theorem Number.Single.isPositive_iff (x : Single) : Bound.isPositive x = true ↔ x.Positive := by
  change Single.zero.lt x = true ↔ _
  rw [Single.lt_iff, Single.place_zero, Single.Positive]
  simp

theorem Rule.floatRange_ok_iff {r : Description.Range Single} {range : Range Single} :
    checkRange r = .ok range ↔ range.Consistent Single.NotAbove Single.Positive ∧
      range = r.filled := by
  rw [checkRange_ok_iff]
  exact and_congr_left fun _ =>
    Range.consistent_congr (fun a b => Single.lt_eq_false_iff a b) Single.isPositive_iff

theorem Rule.intRange_ok_iff {r : Description.Range Int32} {range : Range Int32} :
    checkRange r = .ok range ↔ range.Consistent (· ≤ ·) (0 < ·) ∧ range = r.filled := by
  rw [checkRange_ok_iff]
  refine and_congr_left fun _ => Range.consistent_congr (fun a b => ?_) fun a => ?_
  · change decide (b < a) = false ↔ a ≤ b
    rw [decide_eq_false_iff_not, Int32.not_lt]
  · exact decide_eq_true_iff

theorem Rule.type_of_code {c : Description.Constraint} {code : String} (h : c.type.getD "" = code)
    (hne : code ≠ "") :
    c.type = some code := by
  cases htype : c.type with
  | none =>
    rw [htype] at h
    exact absurd h.symm hne
  | some given =>
    rw [htype] at h
    exact congrArg some h

/-- A constraint is accepted as a rule if and only if it states it, with bounds that do not exceed
one another. -/
theorem Rule.classify_ok_iff {oid : String} {c : Description.Constraint} {rule : Rule} :
    classify oid c = .ok rule ↔ Rule.Stated Single.NotAbove c rule := by
  constructor
  · intro h
    unfold classify at h
    dsimp only at h
    split at h
    · next hcode =>
      obtain ⟨r, range, given, hcheck, rfl⟩ := checked_ok_iff.mp h
      obtain ⟨consistent, rfl⟩ := intRange_ok_iff.mp hcheck
      exact .intRange (type_of_code hcode (by decide)) given consistent
    · next hcode =>
      obtain ⟨r, range, given, hcheck, rfl⟩ := checked_ok_iff.mp h
      obtain ⟨consistent, rfl⟩ := floatRange_ok_iff.mp hcheck
      exact .floatRange (type_of_code hcode (by decide)) given consistent
    · next hcode =>
      obtain ⟨cs, choices, given, hcheck, rfl⟩ := checked_ok_iff.mp h
      obtain ⟨distinct, rfl⟩ := checkNamedChoices_ok_iff.mp hcheck
      exact .intChoice (type_of_code hcode (by decide)) given distinct
    · next hcode =>
      obtain ⟨cs, choices, given, hcheck, rfl⟩ := checked_ok_iff.mp h
      obtain ⟨distinct, rfl⟩ := checkNamedChoices_ok_iff.mp hcheck
      exact .stringChoice (type_of_code hcode (by decide)) given distinct
    · next hcode =>
      obtain ⟨cs, choices, given, hcheck, rfl⟩ := checked_ok_iff.mp h
      obtain ⟨distinct, rfl⟩ := checkPicklist_ok_iff.mp hcheck
      exact .picklist (type_of_code hcode (by decide)) given distinct
    · cases h
    · cases h
  · intro h
    cases h with
    | intRange type given consistent =>
      rw [classify, type]
      exact checked_ok_iff.mpr ⟨_, _, given, intRange_ok_iff.mpr ⟨consistent, rfl⟩, rfl⟩
    | floatRange type given consistent =>
      rw [classify, type]
      exact checked_ok_iff.mpr ⟨_, _, given, floatRange_ok_iff.mpr ⟨consistent, rfl⟩, rfl⟩
    | intChoice type given distinct | stringChoice type given distinct =>
      rw [classify, type]
      exact checked_ok_iff.mpr ⟨_, _, given, checkNamedChoices_ok_iff.mpr ⟨distinct, rfl⟩, rfl⟩
    | picklist type given distinct =>
      rw [classify, type]
      exact checked_ok_iff.mpr ⟨_, _, given, checkPicklist_ok_iff.mpr ⟨distinct, rfl⟩, rfl⟩

/-- Nothing but the type code and its payload has a part in the result, be it a rule or an error. -/
theorem Rule.classify_relevant (oid : String) (c : Description.Constraint) :
    classify oid c.relevant = classify oid c := by
  unfold classify
  rw [show c.relevant.type = c.type from rfl]
  dsimp only
  split
  · next hcode =>
      rw [show c.relevant.intRange = c.intRange from if_pos (type_of_code hcode (by decide))]
  · next hcode =>
      rw [show c.relevant.floatRange = c.floatRange from if_pos (type_of_code hcode (by decide))]
  · next hcode =>
      rw [show c.relevant.intChoice = c.intChoice from if_pos (type_of_code hcode (by decide))]
  · next hcode =>
      rw [show c.relevant.namedChoice = c.namedChoice from if_pos (type_of_code hcode (by decide))]
  · next hcode =>
      rw [show c.relevant.picklist = c.picklist from if_pos (type_of_code hcode (by decide))]
  · rfl
  · rfl

/-- Constraints are accepted for what they state, by their type code and its payload alone. -/
structure AcceptedAs (atMost : Single → Single → Prop) (oid : String) (c : Description.Constraint) :
    Prop where
  rules : ∀ rule, Rule.classify oid c = .ok rule ↔ Rule.Stated atMost c rule
  others : ∀ c' : Description.Constraint, c'.relevant = c.relevant →
    Rule.classify oid c' = Rule.classify oid c

/-- All bounds are accepted that do not exceed one another, NaN among them. -/
theorem Rule.classify_accepts (oid : String) (c : Description.Constraint) :
    AcceptedAs Single.NotAbove oid c := by
  constructor
  case rules =>
    intro rule
    exact classify_ok_iff
  case others =>
    intro c' hrelevant
    rw [← classify_relevant oid c', hrelevant, classify_relevant oid c]

/-- A range of floats from NaN to one. -/
def fromNaN : Description.Constraint where
  type := some "FLOAT_RANGE"
  reference := none
  intRange := none
  floatRange := some ⟨⟨0x7fc00000⟩, Single.one, none, none, none⟩
  intChoice := none
  namedChoice := none
  picklist := none

/-- It is accepted, although NaN is not at most one. -/
theorem fromNaN_accepted :
    ∃ rule, Rule.classify "level" fromNaN = .ok rule ∧ ¬ Rule.Stated Single.Le fromNaN rule := by
  refine ⟨.floatRange ⟨⟨0x7fc00000⟩, .one, .one, ⟨0x7fc00000⟩, .one⟩, rfl, ?_⟩
  intro h
  generalize hrule : Rule.floatRange _ = rule at h
  cases h with
  | floatRange _ given consistent =>
    cases given
    obtain ⟨a, ha, _⟩ := consistent.bounds
    cases ha.symm.trans (Single.place_nan (x := ⟨0x7fc00000⟩) rfl)
  | _ => cases hrule

end DeviceModel
