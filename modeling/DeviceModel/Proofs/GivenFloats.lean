import DeviceModel.Proofs.Classification
import DeviceModel.Proofs.CodeFloats
import DeviceModel.Proofs.Conformance
import DeviceModel.Proofs.Constraints
import DeviceModel.Proofs.GeneratedNames

namespace DeviceModel

open Number

namespace Description

mutual

/-- The floats of a value as it is written. -/
def Value.singles : Value → List Single
  | .float32 x => [x]
  | .float32s items => items
  | .struct fields => entrySingles fields
  | .structs items => structSingles items
  | .variant _ v => v.singles
  | .variants items => entrySingles items
  | _ => []

def entrySingles : List (String × Value) → List Single
  | [] => []
  | (_, v) :: rest => v.singles ++ entrySingles rest

def structSingles : List (List (String × Value)) → List Single
  | [] => []
  | fields :: rest => entrySingles fields ++ structSingles rest

end

theorem entrySingles_eq (entries : List (String × Value)) :
    entrySingles entries = entries.flatMap fun e => e.2.singles := by
  induction entries with
  | nil => rfl
  | cons e rest ih => rw [entrySingles, ih, List.flatMap_cons]

theorem structSingles_eq (items : List (List (String × Value))) :
    structSingles items = items.flatMap entrySingles := by
  induction items with
  | nil => rfl
  | cons fields rest ih => rw [structSingles, ih, List.flatMap_cons]

/-- The numbers that a range gives. -/
def Range.numbers {α : Type} (r : Range α) : List α :=
  [r.min, r.max] ++ r.step.toList ++ r.displayMin.toList ++ r.displayMax.toList

def Constraint.singles (c : Constraint) : List Single := c.floatRange.toList.flatMap Range.numbers

def Declaration.singles (d : Declaration) : List Single :=
  d.value.toList.flatMap Value.singles ++ d.constraint.toList.flatMap Constraint.singles

mutual

/-- The floats of a parameter as it is written, and of those in it. -/
def singlesWithin : Param → List Single
  | ⟨d, params⟩ => d.singles ++ singlesEach params

def singlesEach : List (String × Param) → List Single
  | [] => []
  | (_, q) :: rest => singlesWithin q ++ singlesEach rest

end

/-- The floats that a description gives. -/
def Device.singles (d : Device) : List Single :=
  d.constraints.flatMap (fun e => e.2.singles) ++ singlesEach d.params ++ singlesEach d.commands

mutual

theorem inlineWithin_singles {e : Inline} {x : Single} (hx : x ∈ e.constraint.singles)
    {realm : Realm} {path oid : String} :
    ∀ q : Param, e ∈ inlineWithin realm path oid q → x ∈ singlesWithin q
  | ⟨d, params⟩, he => by
    rw [inlineWithin, List.mem_append] at he
    rw [singlesWithin, List.mem_append]
    rcases he with he | he
    · obtain ⟨c, hc, rfl⟩ := List.mem_map.mp he
      exact .inl (List.mem_append_right _ (List.mem_flatMap.mpr ⟨c, List.mem_of_mem_filter hc, hx⟩))
    · exact .inr (inlineEach_singles hx params he)

/-- The floats of a constraint that is written out are given where it is. -/
theorem inlineEach_singles {e : Inline} {x : Single} (hx : x ∈ e.constraint.singles) {realm : Realm}
    {path : String} :
    ∀ entries : List (String × Param), e ∈ inlineEach realm path entries → x ∈ singlesEach entries
  | [], he => by simp [inlineEach] at he
  | (oid, q) :: rest, he => by
    rw [inlineEach, List.mem_append] at he
    rw [singlesEach, List.mem_append]
    rcases he with he | he
    · exact .inl (inlineWithin_singles hx q he)
    · exact .inr (inlineEach_singles hx rest he)

end

end Description

/-- A range takes its numbers from what is given, with a step of one if none is. -/
theorem Description.Range.mem_numbers {α : Type} [Bound α] {r : Description.Range α} {x : α}
    (hx : x ∈ r.filled.numbers) :
    x = Bound.one ∨ x ∈ r.numbers := by
  obtain ⟨min, max, step, displayMin, displayMax⟩ := r
  cases step <;> cases displayMin <;> cases displayMax <;>
    simp only [DeviceModel.Range.numbers, filled, numbers, Option.getD_none, Option.getD_some,
      Option.toList_none, Option.toList_some, List.cons_append, List.nil_append, List.mem_cons,
      List.not_mem_nil, or_false] at hx ⊢ <;>
    tauto

theorem Rule.classify_singles {oid : String} {c : Description.Constraint} {rule : Rule}
    (h : classify oid c = .ok rule) {x : Single} (hx : x ∈ rule.singles) :
    x = .one ∨ x ∈ c.singles := by
  cases classify_ok_iff.mp h with
  | floatRange _ given _ =>
    refine (Description.Range.mem_numbers hx).imp id ?_
    intro hx
    exact List.mem_flatMap.mpr ⟨_, Option.mem_toList.mpr given, hx⟩
  | _ => simp [Rule.singles] at hx

namespace Resolve

open Description (Declaration Value singlesEach singlesWithin)

theorem exists_of_forall₂ {α β : Type} {R : α → β → Prop} {l : List α} {l' : List β}
    (h : List.Forall₂ R l l') {b : β} (hb : b ∈ l') : ∃ a ∈ l, R a b := by
  induction h with
  | nil => cases hb
  | @cons a b' l l' hab _ ih =>
    rcases List.mem_cons.mp hb with rfl | hb
    · exact ⟨a, List.mem_cons_self, hab⟩
    · obtain ⟨a', ha', hab'⟩ := ih hb
      exact ⟨a', List.mem_cons_of_mem _ ha', hab'⟩

section Values

variable {types : Array TypeDecl}

theorem structValue_singles {fields : List (String × Value)} {oid : String} {t : TypeId}
    {i : Initializer}
    (hfields : ∀ e ∈ fields, ∀ {oid : String} {t : ValueType} {i : Initializer},
      value types e.2 oid t = .ok i → i.singles ⊆ e.2.singles)
    (h : structValue types (fields.map Prod.fst) (fieldValue types fields) oid t = .ok i) :
    i.singles ⊆ Description.entrySingles fields := by
  simp only [structValue, except_bind_ok, except_pure_ok] at h
  obtain ⟨decl, _, _, _, set, hset, rfl⟩ := h
  rw [Initializer.singles, fieldSingles_eq, Description.entrySingles_eq]
  intro x hx
  obtain ⟨e, he, hx⟩ := List.mem_flatMap.mp hx
  obtain ⟨f, _, _, hvalue⟩ := (collectFields_ok hset).2 e he
  obtain ⟨v, hv, hok⟩ := fieldValue_eq_some hvalue
  exact List.mem_flatMap.mpr ⟨_, hv, hfields _ hv hok.symm hx⟩

/-- What stands in one list is like what stands at the same place of the other. -/
theorem exists_of_paired {α β : Type} {R : α → β → Prop} {l : List α} {l' : List β}
    (length : l'.length = l.length)
    (each : ∀ (k : Nat) a b, l[k]? = some a → l'[k]? = some b → R a b) {b : β} (hb : b ∈ l') :
    ∃ a ∈ l, R a b := by
  obtain ⟨k, hk⟩ := List.mem_iff_getElem?.mp hb
  have hlt : k < l.length := length ▸ (List.getElem?_eq_some_iff.mp hk).1
  exact ⟨l[k], List.getElem_mem hlt, each k l[k] b (List.getElem?_eq_getElem hlt) hk⟩

/-- What a value is read as has the floats that are written. -/
theorem value_singles (v : Value) :
    ∀ {oid : String} {t : ValueType} {i : Initializer}, value types v oid t = .ok i →
      i.singles ⊆ v.singles := by
  induction v using Value.nested with
  | plain v hv =>
    intro oid t i h
    unfold value at h
    split at h
    case h_1 | h_2 | h_3 =>
      cases h
      exact List.Subset.refl _
    case h_4 | h_5 | h_6 =>
      cases h
      simp [Initializer.singles, itemSingles_eq, Value.singles, List.flatMap_map]
    case h_7 | h_8 | h_9 | h_10 => cases hv
    case h_11 => cases h
  | struct fields ih =>
    intro oid t i h
    obtain ⟨u, _, hstruct⟩ := struct_ok h
    rw [Value.singles]
    exact structValue_singles ih hstruct
  | structs items ih =>
    intro oid t i h
    obtain ⟨u, set, _, hset, rfl⟩ := structs_ok h
    obtain ⟨length, each⟩ := structItems_ok hset
    rw [Initializer.singles, itemSingles_eq, Value.singles, Description.structSingles_eq]
    intro x hx
    obtain ⟨i, hi, hx⟩ := List.mem_flatMap.mp hx
    obtain ⟨fields, hmem, label, hstruct⟩ := exists_of_paired length each hi
    exact List.mem_flatMap.mpr ⟨fields, hmem, structValue_singles (ih fields hmem) hstruct hx⟩
  | variant name v ih =>
    intro oid t i h
    obtain ⟨u, decl, index, a, j, _, _, _, hj, rfl⟩ := variant_ok h
    rw [Initializer.singles, Value.singles]
    exact ih hj
  | variants items ih =>
    intro oid t i h
    obtain ⟨u, set, _, hset, rfl⟩ := variants_ok h
    obtain ⟨length, each⟩ := variantItems_ok hset
    rw [Initializer.singles, itemSingles_eq, Value.singles, Description.entrySingles_eq]
    intro x hx
    obtain ⟨i, hi, hx⟩ := List.mem_flatMap.mp hx
    obtain ⟨e, hmem, label, hvariant⟩ := exists_of_paired length each hi
    obtain ⟨u, decl, index, a, j, _, _, _, hj, rfl⟩ := variant_ok hvariant
    rw [Initializer.singles] at hx
    exact List.mem_flatMap.mpr ⟨e, hmem, ih e hmem hj hx⟩

end Values

section Growth

variable {given : Single → Prop} {g : Ground} {f : Forest}

/-- The floats of a parameter's value are given ones. -/
def FloatsGiven (given : Single → Prop) (p : Param) : Prop := ∀ x ∈ p.singles, given x

theorem Settled.floatsGiven {site : Site} {oid : String} {declaration : Declaration}
    {binding : Option Binding} {typing : Typing} {below : Forest} {own : Share} {p : Param}
    (settled : Settled g site oid declaration binding typing below own p)
    (hgiven : ∀ x ∈ declaration.singles, given x)
    (hbinding : ∀ i, binding.bind Binding.value = some i → ∀ x ∈ i.singles, given x) :
    FloatsGiven given p := by
  intro x hx
  obtain ⟨i, hi, hx⟩ := List.mem_flatMap.mp hx
  rw [Option.mem_toList] at hi
  cases hv : declaration.value with
  | none =>
    rw [settled.ungiven hv] at hi
    exact hbinding i hi x hx
  | some v =>
    obtain ⟨i', hvalue, hi'⟩ := settled.given v hv
    cases hi.symm.trans hi'
    exact hgiven x
      (List.mem_append_left _ (List.mem_flatMap.mpr ⟨v, by simp [hv], value_singles v hvalue hx⟩))

theorem Copied.floatsGiven {realm : Realm} {parent : ParamId} {path : String}
    {entries : Entries ParamId} (h : Copied realm g parent path entries f)
    (hknown : ∀ p ∈ g.known, FloatsGiven given p) :
    ∀ p ∈ f.params, FloatsGiven given p := by
  induction h with
  | nil => simp
  | @cons g parent path key entries source p below rest known node _ _ _ ihInner ihNext =>
    have hp : FloatsGiven given p := by
      rw [node]
      exact hknown source known
    have htree := Forest.forall_tree {} below hp (ihInner hknown)
    exact Forest.forall_append _ htree (ihNext (Ground.forall_after hknown htree))

/-- A forest has floats from what it grew from, with imports written out, or from what was there. -/
theorem Grown.floatsGiven {source : Source} {opened : List Path} {room : Nat} {site : Site}
    {entries entries' : List (String × Description.Param)}
    (h : Grown source opened g site entries f)
    (he : expandEach (expander source room opened) site.folder site.path entries = .ok entries')
    (hknown : ∀ p ∈ g.known, FloatsGiven given p) (hgiven : ∀ x ∈ singlesEach entries', given x) :
    ∀ p ∈ f.params, FloatsGiven given p := by
  induction h generalizing room entries' with
  | nil => simp
  | cons _ _ first next =>
    simp only [expandEach, except_bind_ok, except_pure_ok] at he
    obtain ⟨q', hq, rest', hrest, rfl⟩ := he
    simp only [singlesEach, List.mem_append] at hgiven
    have hfirst := first (except_bind_ok.mpr ⟨q', hq, rfl⟩) hknown
      (by simpa [singlesEach] using fun x hx => hgiven x (.inl hx))
    exact Forest.forall_append _ hfirst
      (next hrest (Ground.forall_after hknown hfirst) fun x hx => hgiven x (.inr hx))
  | imported elsewhere opens _ ih =>
    simp only [expandEach, expandParam, elsewhere, except_bind_ok, except_pure_ok] at he
    obtain ⟨q', hq, _, rfl, rfl⟩ := he
    cases room with
    | zero => cases hq
    | succ room =>
      obtain ⟨document, identity', described, hdocument, hidentity, hdescribed, hq⟩ :=
        expander_ok hq
      -- the import is opened in the same way by both
      obtain ⟨document', hdocument', hidentity', hdescribed'⟩ := opens
      cases hdocument.symm.trans hdocument'
      cases hidentity.symm.trans hidentity'
      cases hdescribed.symm.trans hdescribed'
      exact ih (except_bind_ok.mpr ⟨q', hq, rfl⟩) hknown hgiven
  | @templated opened g site oid d templateOid template p type overElements below rule written _
      known _ _ _ copied _ settled =>
    simp only [expandEach, expandParam, written, except_bind_ok, except_pure_ok] at he
    obtain ⟨_, ⟨_, rfl, rfl⟩, _, rfl, rfl⟩ := he
    refine Forest.forall_tree _ _ (settled.floatsGiven ?_ ?_) (copied.floatsGiven hknown)
    · simpa [singlesEach, singlesWithin] using hgiven
    · intro i hi x hx
      -- an array over the template's elements has no value from it
      cases overElements with
      | true => cases hi
      | false =>
        exact hknown template known x (List.mem_flatMap.mpr ⟨i, Option.mem_toList.mpr hi, hx⟩)
  | composite written _ _ _ _ _ _ _ settled ih | plain written _ _ _ _ _ settled ih =>
    simp only [expandEach, expandParam, written, except_bind_ok, except_pure_ok] at he
    obtain ⟨_, ⟨params', hparams, rfl⟩, _, rfl, rfl⟩ := he
    simp only [singlesEach, singlesWithin, List.append_nil, List.mem_append] at hgiven
    refine Forest.forall_tree _ _ (settled.floatsGiven (fun x hx => hgiven x (.inl hx)) ?_)
      (ih hparams hknown fun x hx => hgiven x (.inr hx))
    intro i hi
    cases hi

end Growth

namespace Resolved

variable {source : Source} {importRoot : Path} {description expanded : Description.Device}
  {d : Device} {shared : List Constraint} {params commands : Forest}
  (h : Resolved source importRoot description d shared params commands)
  (he : expand source importRoot description = .ok expanded)

include h

theorem expands : ∃ expanded, expand source importRoot description = .ok expanded := by
  obtain ⟨params', hparams⟩ := h.params_grown.expands (Roomy.start source)
  obtain ⟨commands', hcommands⟩ := h.commands_grown.expands (Roomy.start source)
  exact ⟨_, except_bind_ok.mpr ⟨params', hparams, except_bind_ok.mpr ⟨commands', hcommands, rfl⟩⟩⟩

include he

/-- The floats of the value of a parameter are given in the description. -/
theorem floatsGiven {p : Param} (hp : p ∈ d.nodes) : FloatsGiven (· ∈ expanded.singles) p := by
  obtain ⟨params', commands', hparams', hcommands', hexpanded⟩ := expand_ok he
  have hsingles : ∀ x, x ∈ singlesEach params' ∨ x ∈ singlesEach commands' →
      x ∈ expanded.singles := by
    intro x hx
    rw [hexpanded, Description.Device.singles, List.append_assoc, List.mem_append, List.mem_append]
    exact .inr hx
  have hparams : ∀ p ∈ params.params, FloatsGiven (· ∈ expanded.singles) p :=
    h.params_grown.floatsGiven hparams' (by simp [start]) fun x hx => hsingles x (.inl hx)
  have hcommands : ∀ p ∈ commands.params, FloatsGiven (· ∈ expanded.singles) p :=
    h.commands_grown.floatsGiven hcommands'
        (Ground.forall_after (by simp [start]) hparams) fun x hx =>
      hsingles x (.inr hx)
  rw [h.mem_nodes] at hp
  exact Forest.forall_append _ hparams hcommands p hp

theorem constraint_singles {c : Constraint} (hc : c ∈ d.constraints) {x : Single}
    (hx : x ∈ c.rule.singles) :
    x = .one ∨ x ∈ expanded.singles := by
  obtain ⟨params', commands', hparams', hcommands', rfl⟩ := expand_ok he
  rw [Description.Device.singles, List.mem_append, List.mem_append]
  rw [← Array.mem_toList_iff, h.constraints, List.mem_append, List.mem_append] at hc
  rcases hc with hc | hc | hc
  · obtain ⟨e, hmem, shares⟩ := exists_of_forall₂ h.shares hc
    refine (Rule.classify_singles shares.rule hx).imp id fun hx => ?_
    exact .inl (.inl (List.mem_flatMap.mpr ⟨e, hmem, hx⟩))
  · obtain ⟨e, hmem, states⟩ := exists_of_forall₂ (h.params_grown.states hparams') hc
    refine (Rule.classify_singles states.rule hx).imp id fun hx => ?_
    exact .inl (.inr (Description.inlineEach_singles hx params' hmem))
  · obtain ⟨e, hmem, states⟩ := exists_of_forall₂ (h.commands_grown.states hcommands') hc
    refine (Rule.classify_singles states.rule hx).imp id fun hx => ?_
    exact .inr (Description.inlineEach_singles hx commands' hmem)

/-- Every float in the code is given in the description, or is the step of a range that gives
none. -/
theorem floatOf_given {x : Single} (hx : Cpp.FloatOf d x) : x = .one ∨ x ∈ expanded.singles := by
  cases hx with
  | value _ found inside => exact .inr (h.floatsGiven he (Array.mem_of_getElem? found) x inside)
  | default struct member inside =>
    obtain ⟨decl, _, hdecl, _, rfl⟩ := struct
    obtain ⟨owner, hfound, _⟩ := h.owner hdecl
    rw [← h.id_eq hfound] at member
    exact .inr (h.floatsGiven he (h.mem_children (Array.mem_of_getElem? hfound) member).1 x inside)
  | range listed inside => exact h.constraint_singles he listed inside

end Resolved

end Resolve

/-- The bits stand for a finite number. -/
def Number.Single.isFinite (x : Single) : Bool :=
  match x.value with
  | .finite .. => true
  | _ => false

theorem Number.Single.isFinite_iff (x : Single) : x.isFinite = true ↔ x.magnitude < top := by
  rw [isFinite, value_eq]
  split
  · next hvalue =>
    split at hvalue
    · simp_all
    · split at hvalue <;> cases hvalue
  · next hvalue =>
    simp only [Bool.false_eq_true, false_iff]
    intro hlt
    exact hvalue _ _ _ (if_pos hlt)

namespace Cpp

/-- What is written for a float that is not finite. -/
def oddFloats : List String := ["inff", "-inff", "NaNf"]

/-- A literal has a digit after its sign. -/
theorem not_isFloatLiteral {text : String} (h : text ∈ oddFloats) : ¬ IsFloatLiteral text := by
  rintro ⟨negative, n, htext⟩
  obtain ⟨c, r, hn, hc⟩ := n.text_head
  rw [hn] at htext
  simp only [oddFloats, List.mem_cons, List.not_mem_nil, or_false] at h
  rcases h with rfl | rfl | rfl <;> cases negative <;> simp [signText] at htext
  all_goals
    obtain ⟨rfl, _⟩ := htext
    exact absurd hc (by decide)

theorem float_literal {x : Single} (hx : x.isFinite = true) : IsFloatLiteral (float x) := by
  obtain ⟨n, htext, _⟩ := float_finite (x.isFinite_iff.mp hx)
  exact ⟨x.isNegative, n, htext⟩

theorem float_odd {x : Single} (hx : x.isFinite = false) : float x ∈ oddFloats := by
  have hle : Single.top ≤ x.magnitude := by
    rw [← Nat.not_lt, ← Single.isFinite_iff, hx]
    exact Bool.false_ne_true
  rcases hle.eq_or_lt with htop | hnan
  · have htext := float_infinite htop.symm
    cases hsign : x.isNegative with
    | true =>
      rw [hsign] at htext
      rw [String.toList_inj.mp (htext.trans (show _ = "-inff".toList from rfl))]
      simp [oddFloats]
    | false =>
      rw [hsign] at htext
      rw [String.toList_inj.mp (htext.trans (show _ = "inff".toList from rfl))]
      simp [oddFloats]
  · rw [float_nan hnan]
    simp [oddFloats]

/-- The floats in the code for a device: where they stand, how they are written, and that they are
given. -/
structure FloatsTold (d : Device) (given : List Single) (sourceName : String) : Prop where
  header : (generate d sourceName).header = render (Marked.header d sourceName).spelled
  body : (generate d sourceName).body =
    render (Marked.body d (sourceName ++ ".h") sourceName).spelled
  written : ∀ x, x ∈ floatsWritten d sourceName ↔ FloatOf d x
  finite : ∀ x ∈ floatsWritten d sourceName, x.isFinite = true → IsFloatLiteral (float x)
  odd : ∀ x ∈ floatsWritten d sourceName, x.isFinite = false → float x ∈ oddFloats ∧
    ¬ IsFloatLiteral (float x)
  /-- Only the step of a range may be left out, and then it is one. -/
  described : ∀ x ∈ floatsWritten d sourceName, x = .one ∨ x ∈ given
  literals : (∀ x ∈ given, x.isFinite = true) → ∀ x ∈ floatsWritten d sourceName,
    IsFloatLiteral (float x)

end Cpp

open Resolve

/-- The code for a document that loads and resolves has a literal for each float that is finite, and
for no other. -/
theorem resolveFile_floatsTold {p : Path} {source : Source} {d : Device}
    (h : (resolveFile p source).result = .ok d) (sourceName : String) :
    ∃ doc expanded, DeviceDocument.load source p = .ok doc ∧
      expand source doc.importRoot doc.description = .ok expanded ∧
        Cpp.FloatsTold d expanded.singles sourceName := by
  obtain ⟨doc, hload, hresolve⟩ := resolveFile_ok h
  obtain ⟨shared, params, commands, hr⟩ := resolveDevice_resolved hresolve
  obtain ⟨expanded, hexpanded⟩ := hr.expands
  have hgiven : ∀ x ∈ Cpp.floatsWritten d sourceName, x = .one ∨ x ∈ expanded.singles := by
    intro x hx
    exact hr.floatOf_given hexpanded ((Cpp.mem_floatsWritten hr sourceName x).mp hx)
  refine ⟨doc, expanded, hload, hexpanded, ?_⟩
  constructor
  case header => rw [Cpp.generate_spelled]
  case body => rw [Cpp.generate_spelled]
  case written => exact Cpp.mem_floatsWritten hr sourceName
  case finite =>
    intro x _ hx
    exact Cpp.float_literal hx
  case odd =>
    intro x _ hx
    exact ⟨Cpp.float_odd hx, Cpp.not_isFloatLiteral (Cpp.float_odd hx)⟩
  case described => exact hgiven
  case literals =>
    intro hfinite x hx
    rcases hgiven x hx with rfl | hx
    · exact Cpp.float_literal (by decide)
    · exact Cpp.float_literal (hfinite x hx)

/-- A value beyond the largest float, a default, and a range from an import that gives no step. -/
def equalizer : FileTree :=
  .ofFiles [
    ("device.m.json",
      "\x7b\"params\": \x7b" ++
        "\"gain\": \x7b\"type\": \"FLOAT32\", \"value\": \x7b\"float32_value\": -1e39\x7d\x7d, " ++
        "\"band\": \x7b\"type\": \"STRUCT\", \"params\": \x7b\"low\": " ++
          "\x7b\"type\": \"FLOAT32\", \"value\": \x7b\"float32_value\": 20.5\x7d\x7d\x7d\x7d, " ++
        "\"level\": \x7b\"import\": \x7b\"file\": \"level.json\"\x7d\x7d\x7d\x7d"),
    ("params/level.json",
      "\x7b\"type\": \"FLOAT32\", \"constraint\": \x7b\"type\": \"FLOAT_RANGE\", " ++
        "\"float_range\": \x7b\"min_value\": 0, \"max_value\": 1e20\x7d\x7d\x7d")]

theorem equalizer_floatsTold :
    ∃ d, (resolveFile ⟨"device.m.json"⟩ equalizer.source).result = .ok d ∧
      (Cpp.floatsWritten d "device.m.json").map Cpp.float =
        ["20.5f", "-inff", "0.0f", "1e20f", "1.0f", "0.0f", "1e20f"] ∧
      ∃ doc expanded, DeviceDocument.load equalizer.source ⟨"device.m.json"⟩ = .ok doc ∧
        expand equalizer.source doc.importRoot doc.description = .ok expanded ∧
        Cpp.FloatsTold d expanded.singles "device.m.json" := by
  have hok : ((resolveFile ⟨"device.m.json"⟩ equalizer.source).result.toOption.map fun d =>
      (Cpp.floatsWritten d "device.m.json").map Cpp.float) =
        some ["20.5f", "-inff", "0.0f", "1e20f", "1.0f", "0.0f", "1e20f"] := by
    decide +kernel
  obtain ⟨d, hd, hfloats⟩ := ok_of_toOption hok
  exact ⟨d, hd, hfloats, resolveFile_floatsTold hd "device.m.json"⟩

/-- A model whose one value is beyond the largest float. -/
def loud : FileTree :=
  .ofFiles [("device.m.json",
    "\x7b\"params\": \x7b\"gain\": " ++
      "\x7b\"type\": \"FLOAT32\", \"value\": \x7b\"float32_value\": 1e39\x7d\x7d\x7d\x7d")]

/-- It loads and resolves, and its value is written as what is no literal. -/
theorem loud_not_literal :
    ∃ d x, (resolveFile ⟨"device.m.json"⟩ loud.source).result = .ok d ∧
      x ∈ Cpp.floatsWritten d "device.m.json" ∧
      Cpp.float x = "inff" ∧ ¬ Cpp.IsFloatLiteral (Cpp.float x) := by
  have hok : ((resolveFile ⟨"device.m.json"⟩ loud.source).result.toOption.map fun d =>
      (Cpp.floatsWritten d "device.m.json").map Cpp.float) = some ["inff"] := by decide +kernel
  obtain ⟨d, hd, hfloats⟩ := ok_of_toOption hok
  have hinf : "inff" ∈ (Cpp.floatsWritten d "device.m.json").map Cpp.float := by
    rw [hfloats]
    exact List.mem_singleton_self _
  obtain ⟨x, hx, htext⟩ := List.mem_map.mp hinf
  exact ⟨d, x, hd, hx, htext, Cpp.not_isFloatLiteral (by simp [htext, Cpp.oddFloats])⟩

end DeviceModel
