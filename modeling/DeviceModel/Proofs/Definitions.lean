import DeviceModel.Cpp.Body

namespace DeviceModel.Cpp

/-- A variable of the body, by what its name is made of. -/
inductive Variable where
  | device
  | languagePack (id : String)
  | sharedConstraint (stem : String)
  | ownConstraint (stem : String)
  | value (oid : String)
  | descriptor (stem : String)
  | param (stem : String)
  | menuGroup (oid : String)
  | menu (group oid : String)
  deriving DecidableEq, Repr

namespace Variable

def stem : Variable → String
  | .device => ""
  | .languagePack id => "_" ++ id
  | .sharedConstraint stem => stem
  | .ownConstraint stem => stem
  | .value oid => oid
  | .descriptor stem => stem
  | .param stem => stem
  | .menuGroup oid => "_" ++ oid
  | .menu group oid => "_" ++ group ++ "_" ++ oid

def ending : Variable → String
  | .device => "dm"
  | .languagePack _ => "LanguagePack"
  | .sharedConstraint _ => "Constraint"
  | .ownConstraint _ => "ParamConstraint"
  | .value _ => ""
  | .descriptor _ => "Descriptor"
  | .param _ => "Param"
  | .menuGroup _ => "MenuGroup"
  | .menu _ _ => "Menu"

def name (v : Variable) : String := v.stem ++ v.ending

theorem name_value (oid : String) : (value oid).name = oid := String.append_empty

end Variable

/-- The variable that an item defines. -/
def Item.global? (d : Device) : Item → Option Variable
  | .blank => none
  | .device => some .device
  | .languagePack p => some (.languagePack p.id)
  | .constraint id =>
    (d.constraint? id).map fun c =>
      if c.isShared then .sharedConstraint c.ident else .ownConstraint c.ident
  | .value id => (d.param? id).map fun p => .value p.oid
  | .descriptor id => (d.param? id).map fun p => .descriptor p.ident
  | .param id => (d.param? id).map fun p => .param p.ident
  | .command id => (d.param? id).map fun p => .param p.ident
  | .menuGroup g => some (.menuGroup g.oid)
  | .menu group m => some (.menu group m.oid)

/-- The text defines a variable of the name: a type, the name, and how it starts out. -/
def Defines (text name : String) : Prop :=
  ∃ type start rest, text = type ++ " " ++ name ++ start ++ rest ∧ (start = " " ∨ start = "\x7b")

section Idle

end Idle

section Texts

variable (d : Device)

theorem defines_define (type name : String) (arguments : List String) :
    Defines (define type name arguments) name := by
  refine ⟨runtime ++ "::" ++ type, " ", braced arguments ++ ";", ?_, .inl rfl⟩
  simp only [define, String.append_assoc]

theorem constraintName_eq (c : Constraint) :
    constraintName c =
      (if c.isShared then Variable.sharedConstraint c.ident else .ownConstraint c.ident).name := by
  unfold constraintName
  cases c.isShared <;> rfl

theorem constraintText_defines (c : Constraint) :
    Defines (constraintText c) (constraintName c) := by
  unfold constraintText
  split <;> exact defines_define _ _ _

/-- A type and a name, with a value or without one. -/
theorem defines_binding (type name : String) (value : Option Initializer)
    (write : Initializer → String) :
    Defines (type ++ " " ++ name ++
      match value with
      | some v => " = " ++ write v ++ ";"
      | none => "\x7b\x7d;") name := by
  cases value with
  | some v =>
    refine ⟨type, " ", "= " ++ write v ++ ";", ?_, .inl rfl⟩
    have hspace : " = " = " " ++ "= " := by decide
    simp only [hspace, String.append_assoc]
  | none =>
    refine ⟨type, "\x7b", "\x7d;", ?_, .inr rfl⟩
    have hempty : "\x7b\x7d;" = "\x7b" ++ "\x7d;" := by decide
    simp only [hempty, String.append_assoc]

/-- Every item but a blank one defines its variable. -/
theorem text_defines (i : Item) :
    (i.global? d = none ∧ i.text d = "") ∨
      ∃ v, i.global? d = some v ∧ Defines (i.text d) v.name := by
  cases i with
  | blank => exact .inl ⟨rfl, rfl⟩
  | device =>
    have hname : "Device dm " = "Device" ++ " " ++ Variable.device.name ++ " " := by decide
    refine .inr ⟨.device, rfl, ?_⟩
    simp only [Item.text, deviceText, hname, String.append_assoc]
    exact ⟨"Device", " ", _, by simp only [String.append_assoc]; rfl, .inl rfl⟩
  | languagePack p => exact .inr ⟨_, rfl, defines_define _ _ _⟩
  | constraint id =>
    cases hc : d.constraint? id with
    | none => exact .inl ⟨by simp [Item.global?, hc], by simp [Item.text, hc]⟩
    | some c =>
      refine .inr ⟨_, by simp only [Item.global?, hc]; rfl, ?_⟩
      rw [← constraintName_eq]
      simp only [Item.text, hc]
      exact constraintText_defines c
  | value id =>
    cases hp : d.param? id with
    | none => exact .inl ⟨by simp [Item.global?, hp], by simp [Item.text, hp]⟩
    | some p =>
      refine .inr ⟨.value p.oid, by simp only [Item.global?, hp]; rfl, ?_⟩
      rw [Variable.name_value]
      simp only [Item.text, hp]
      exact defines_binding _ _ _ _
  | descriptor id =>
    cases hp : d.param? id with
    | none => exact .inl ⟨by simp [Item.global?, hp], by simp [Item.text, hp]⟩
    | some p =>
      refine .inr ⟨.descriptor p.ident, by simp only [Item.global?, hp]; rfl, ?_⟩
      simp only [Item.text, hp]
      exact defines_define _ _ _
  | param id | command id =>
    cases hp : d.param? id with
    | none => exact .inl ⟨by simp [Item.global?, hp], by simp [Item.text, hp]⟩
    | some p =>
      refine .inr ⟨.param p.ident, by simp only [Item.global?, hp]; rfl, ?_⟩
      simp only [Item.text, hp]
      exact defines_define _ _ _
  | menuGroup g => exact .inr ⟨_, rfl, defines_define _ _ _⟩
  | menu group m => exact .inr ⟨_, rfl, defines_define _ _ _⟩

end Texts

/-- What a reader of code is in: the code itself, a string literal, or an escape in one. -/
inductive Quoting where
  | code
  | literal
  | escape
  deriving DecidableEq

def Quoting.next : Quoting → Char → Quoting
  | .code, c => if c = '"' then .literal else .code
  | .literal, c => if c = '"' then .code else if c = '\\' then .escape else .literal
  | .escape, _ => .literal

/-- From here on, no address is taken in the code, and the text ends in the code. -/
def plainFrom : Quoting → List Char → Bool
  | r, [] => r = .code
  | r, c :: rest => !(r = .code && c = '&') && plainFrom (r.next c) rest

/-- A text that takes no address. All string literals in it are closed. -/
def Plain (text : String) : Prop := plainFrom .code text.toList = true

instance (text : String) : Decidable (Plain text) := by
  unfold Plain
  infer_instance

section Plain

theorem plainFrom_append {r : Quoting} {a : List Char} (h : plainFrom r a = true) (b : List Char) :
    plainFrom r (a ++ b) = plainFrom .code b := by
  induction a generalizing r with
  | nil =>
    rw [plainFrom, decide_eq_true_eq] at h
    rw [h, List.nil_append]
  | cons c rest ih =>
    rw [plainFrom, Bool.and_eq_true] at h
    rw [List.cons_append, plainFrom, h.1, ih h.2, Bool.true_and]

theorem Plain.append {s t : String} (hs : Plain s) (ht : Plain t) : Plain (s ++ t) := by
  unfold Plain at *
  rw [String.toList_append, plainFrom_append hs, ht]

end Plain

section Arguments

end Arguments

end DeviceModel.Cpp
