import DeviceModel.Proofs.Literals

namespace DeviceModel.Cpp

theorem octal_printable (n : Nat) : ∀ c ∈ octal n, 0x20 ≤ c.toNat := by
  have hdigit : ∀ d < 8, 0x20 ≤ (Char.ofNat ('0'.toNat + d)).toNat := by decide
  intro c hc
  simp only [octal, List.map_cons, List.map_nil, List.mem_cons, List.not_mem_nil, or_false] at hc
  rcases hc with rfl | rfl | rfl <;> exact hdigit _ (Nat.mod_lt _ (by decide))

theorem escape_printable (c : Char) : ∀ e ∈ escape c, 0x20 ≤ e.toNat := by
  unfold escape
  split
  case h_6 =>
    split
    · intro e he
      rcases List.mem_cons.mp he with rfl | he
      · decide
      · exact octal_printable _ e he
    · next hlow =>
      intro e he
      rw [List.mem_singleton.mp he]
      omega
  all_goals simp

theorem quote_printable (s : String) : ∀ c ∈ (quote s).toList, 0x20 ≤ c.toNat := by
  have hquote : 0x20 ≤ '"'.toNat := by decide
  intro c hc
  rw [quote, String.toList_ofList, List.mem_append, List.mem_cons, List.mem_singleton] at hc
  rcases hc with (rfl | hc) | rfl
  · exact hquote
  · obtain ⟨c', -, hc⟩ := List.mem_flatMap.mp hc
    exact escape_printable c' c hc
  · exact hquote

section Lists

variable {α : Type} {text : α → String}

/-- Texts that show where they end and what they stand for. None is empty or starts with a closing
brace, so that an item of a list is not taken for its end. -/
structure SelfDelimiting (text : α → String) : Prop where
  inj : ∀ {a b : α} {r t : List Char}, (text a).toList ++ r = (text b).toList ++ t → a = b ∧ r = t
  starts : ∀ a, ∃ c rest, (text a).toList = c :: rest ∧ c ≠ '\x7d'

theorem SelfDelimiting.injective (h : SelfDelimiting text) : Function.Injective text := by
  intro a b hab
  exact (h.inj (r := []) (t := []) (by rw [hab])).1

/-- Items after the first, each behind a comma. -/
def further (text : α → String) (items : List α) : List Char :=
  items.flatMap fun a => ',' :: ' ' :: (text a).toList

theorem toList_join (a : α) (items : List α) :
    (Text.join ", " ((a :: items).map text)).toList = (text a).toList ++ further text items := by
  induction items generalizing a with
  | nil => simp [Text.join, further]
  | cons b items ih =>
    have hjoin : Text.join ", " ((a :: b :: items).map text) =
        text a ++ ", " ++ Text.join ", " ((b :: items).map text) :=
      String.intercalate_cons_cons
    rw [hjoin, String.toList_append, String.toList_append, ih]
    simp [further]

theorem toList_braced_cons (a : α) (items : List α) :
    (braced ((a :: items).map text)).toList = '\x7b' ::
      ((text a).toList ++ (further text items ++ ['\x7d'])) := by
  rw [braced, String.toList_append, String.toList_append, toList_join]
  simp

theorem further_inj (h : SelfDelimiting text) {xs ys : List α} {r t : List Char}
    (heq : further text xs ++ '\x7d' :: r = further text ys ++ '\x7d' :: t) : xs = ys ∧ r = t := by
  induction xs generalizing ys with
  | nil =>
    cases ys with
    | nil => exact ⟨rfl, (List.cons.inj heq).2⟩
    | cons y ys => exact absurd (List.cons.inj heq).1 (by decide)
  | cons x xs ih =>
    cases ys with
    | nil => exact absurd (List.cons.inj heq).1 (by decide)
    | cons y ys =>
      simp only [further, List.flatMap_cons, List.cons_append, List.append_assoc, List.cons.injEq,
        true_and] at heq
      obtain ⟨rfl, hrest⟩ := h.inj heq
      obtain ⟨rfl, rfl⟩ := ih hrest
      exact ⟨rfl, rfl⟩

/-- A list in braces shows where it ends if its items do. -/
theorem SelfDelimiting.braced (h : SelfDelimiting text) :
    SelfDelimiting fun items : List α => braced (items.map text) := by
  have hends : ∀ {a : α} {items : List α} {r t : List Char},
      (Cpp.braced []).toList ++ r ≠ (Cpp.braced ((a :: items).map text)).toList ++ t := by
    intro a items r t heq
    obtain ⟨c, rest, hc, hne⟩ := h.starts a
    rw [toList_braced_cons, hc] at heq
    exact hne (List.cons.inj (List.cons.inj heq).2).1.symm
  constructor
  case inj =>
    intro xs ys r t heq
    cases xs with
    | nil =>
      cases ys with
      | nil => exact ⟨rfl, List.append_cancel_left heq⟩
      | cons y ys => exact absurd heq hends
    | cons x xs =>
      cases ys with
      | nil => exact absurd heq.symm hends
      | cons y ys =>
        simp only [toList_braced_cons, List.cons_append, List.append_assoc, List.nil_append,
          List.cons.injEq, true_and] at heq
        obtain ⟨rfl, hrest⟩ := h.inj heq
        obtain ⟨rfl, rfl⟩ := further_inj h hrest
        exact ⟨rfl, rfl⟩
  case starts =>
    intro items
    refine ⟨'\x7b', (Text.join ", " (items.map text)).toList ++ ['\x7d'], ?_, by decide⟩
    simp [Cpp.braced, String.toList_append]

end Lists

theorem quote_selfDelimiting : SelfDelimiting quote where
  inj h := quote_append_inj h
  starts s := ⟨'"', _, by rw [quote, String.toList_ofList, List.cons_append], by decide⟩

theorem strings_selfDelimiting : SelfDelimiting strings := quote_selfDelimiting.braced

theorem pair_selfDelimiting :
    SelfDelimiting fun e : String × String => braced [quote e.1, quote e.2] where
  inj {e e' r t} h := by
    obtain ⟨hlists, hr⟩ := strings_selfDelimiting.inj (a := [e.1, e.2]) (b := [e'.1, e'.2]) h
    simp only [List.cons.injEq, and_true] at hlists
    exact ⟨Prod.ext hlists.1 hlists.2, hr⟩
  starts e := strings_selfDelimiting.starts [e.1, e.2]

theorem pairs_selfDelimiting : SelfDelimiting pairs := pair_selfDelimiting.braced

/-- String literals are read back, whatever follows them, and stay on their line. So lists of
strings, and of pairs of strings, are told by their texts. -/
theorem literals_readBack :
    (∀ s r : String, readString? (quote s ++ r) = some (s, r)) ∧
      (∀ s : String, ∀ c ∈ (quote s).toList, 0x20 ≤ c.toNat) ∧
      Function.Injective strings ∧ Function.Injective pairs :=
  ⟨readString?_quote, quote_printable, strings_selfDelimiting.injective,
    pairs_selfDelimiting.injective⟩

/-- A digit behind an octal escape is not part of it. -/
example : quote "\x017" = "\"\\0017\"" := by decide

end DeviceModel.Cpp
