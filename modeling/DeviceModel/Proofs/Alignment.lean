import DeviceModel.Proofs.CodeNames
import DeviceModel.Proofs.Literals

namespace DeviceModel

namespace Cpp

/-- A text from its end. -/
def back (s : String) : List Char := s.toList.reverse

@[simp] theorem back_append (s t : String) : back (s ++ t) = back t ++ back s := by simp [back]

theorem back_injective : Function.Injective back :=
  fun _ _ h => String.toList_inj.mp (List.reverse_injective h)

theorem back_chars {p : Char → Bool} {s : String} (h : ∀ c ∈ s.toList, p c = true) :
    ∀ c ∈ back s, p c = true :=
  fun c hc => h c (List.mem_reverse.mp hc)

theorem back_cons {s : String} (h : s ≠ "") : ∃ c rest, back s = c :: rest :=
  List.exists_cons_of_ne_nil (by simpa [back] using h)

/-- A value, or what stands between two commas. -/
inductive Part where
  | value
  | item

/-- What comes before a value, from its end: nothing, a blank or a brace. Before an item it is the
brace that opens the list, or the comma behind another item. -/
def Leads : Part → List Char → Prop
  | .value, r => ∀ c ∈ r.head?, c = ' ' ∨ c = '\x7b'
  | .item, r => (∃ r', r = '\x7b' :: r') ∨ ∃ r', r = ' ' :: ',' :: r'

theorem Leads.value {r : List Char} (h : Leads .item r) : Leads .value r := by
  rcases h with ⟨r', rfl⟩ | ⟨r', rfl⟩ <;> simp [Leads]

/-- Where the texts end together, they start together. -/
def Aligned (part : Part) (s u : String) : Prop :=
  ∀ ⦃r t : List Char⦄, Leads part r → Leads part t → back s ++ r = back u ++ t → r = t

theorem Aligned.eq {part : Part} {s u : String} (h : Aligned part s u) {r t : List Char}
    (hr : Leads part r) (ht : Leads part t) (heq : back s ++ r = back u ++ t) : s = u ∧ r = t := by
  obtain rfl := h hr ht heq
  exact ⟨back_injective (List.append_cancel_right heq), rfl⟩

theorem Aligned.symm {part : Part} {s u : String} (h : Aligned part s u) : Aligned part u s :=
  fun _ _ hr ht heq => (h ht hr heq.symm).symm

theorem Aligned.of_last {part : Part} {s u : String} {c c' : Char} {rest rest' : List Char}
    (hs : back s = c :: rest) (hu : back u = c' :: rest') (hne : c ≠ c') : Aligned part s u := by
  intro r t _ _ heq
  rw [hs, hu] at heq
  exact absurd (List.cons.inj heq).1 hne

section Lists

/-- What comes before the last of joined parts, from its end. -/
def linked (separator : String) (parts : List String) (r : List Char) : List Char :=
  parts.foldl (fun before s => back separator ++ (back s ++ before)) r

theorem linked_concat (separator : String) (parts : List String) (s : String) (r : List Char) :
    linked separator (parts ++ [s]) r = back separator ++ (back s ++ linked separator parts r) := by
  simp [linked, List.foldl_append]

theorem back_join (separator : String) (parts : List String) (s : String) (r : List Char) :
    back (Text.join separator (parts ++ [s])) ++ r = back s ++ linked separator parts r := by
  induction parts generalizing r with
  | nil => simp [linked, Text.join]
  | cons a rest ih =>
    have hjoin : Text.join separator (a :: rest ++ [s]) = a ++ separator ++
        Text.join separator (rest ++ [s]) := by
      obtain ⟨b, bs, hrest⟩ := List.exists_cons_of_ne_nil (show rest ++ [s] ≠ [] by simp)
      rw [List.cons_append, hrest, Text.join, String.intercalate_cons_cons, Text.join]
    rw [hjoin, back_append, back_append, List.append_assoc, ih, List.append_assoc]
    rfl

theorem back_braced_nil (r : List Char) : back (braced []) ++ r = '\x7d' :: '\x7b' :: r := rfl

theorem back_braced_concat (items : List String) (s : String) (r : List Char) :
    back (braced (items ++ [s])) ++ r = '\x7d' :: (back s ++ linked ", " items ('\x7b' :: r)) := by
  rw [← back_join]
  simp [braced, back]

theorem back_braced (items : List String) : ∃ rest, back (braced items) = '\x7d' :: rest := by
  simp [braced, back]

theorem linked_leads (items : List String) (r : List Char) :
    Leads .item (linked ", " items ('\x7b' :: r)) := by
  rcases List.eq_nil_or_concat items with rfl | ⟨items, s, rfl⟩
  · exact .inl ⟨r, rfl⟩
  · rw [List.concat_eq_append, linked_concat]
    exact .inr ⟨_, rfl⟩

/-- A text that cannot be mistaken for the start of a list. -/
def Ends (s : String) : Prop := ∃ c rest, back s = c :: rest ∧ c ≠ '\x7b'

variable {α : Type} {text : α → String} {xs ys : List α}

theorem linked_inj (aligned : ∀ x ∈ xs, ∀ y ∈ ys, Aligned .item (text x) (text y))
    (inj : ∀ x ∈ xs, ∀ y ∈ ys, text x = text y → x = y) {r t : List Char}
    (h : linked ", " (xs.map text) ('\x7b' :: r) = linked ", " (ys.map text) ('\x7b' :: t)) :
    xs = ys ∧ r = t := by
  have hends : ∀ {items : List String} {s : String} {r t : List Char},
      linked ", " [] ('\x7b' :: r) ≠ linked ", " (items ++ [s]) ('\x7b' :: t) := by
    intro items s r t heq
    rw [linked_concat] at heq
    exact absurd (List.cons.inj heq).1 (by decide)
  induction xs using List.reverseRecOn generalizing ys with
  | nil =>
    rcases List.eq_nil_or_concat ys with rfl | ⟨ys, y, rfl⟩
    · exact ⟨rfl, (List.cons.inj h).2⟩
    · rw [List.concat_eq_append, List.map_append, List.map_singleton] at h
      exact absurd h hends
  | append_singleton xs x ih =>
    rcases List.eq_nil_or_concat ys with rfl | ⟨ys, y, rfl⟩
    · rw [List.map_append, List.map_singleton] at h
      exact absurd h.symm hends
    · rw [List.concat_eq_append] at aligned inj h ⊢
      rw [List.map_append, List.map_append, List.map_singleton, List.map_singleton, linked_concat,
        linked_concat] at h
      obtain ⟨htext, hrest⟩ := (aligned x (by simp) y (by simp)).eq (linked_leads _ _)
        (linked_leads _ _) (List.append_cancel_left h)
      obtain ⟨rfl, rfl⟩ := ih (fun a ha b hb => aligned a (by simp [ha]) b (by simp [hb]))
        (fun a ha b hb => inj a (by simp [ha]) b (by simp [hb])) hrest
      exact ⟨by rw [inj x (by simp) y (by simp) htext], rfl⟩

/-- Lists in braces are told apart by their items, whatever is before them. -/
theorem braced_inj (aligned : ∀ x ∈ xs, ∀ y ∈ ys, Aligned .item (text x) (text y))
    (inj : ∀ x ∈ xs, ∀ y ∈ ys, text x = text y → x = y) (hx : ∀ x ∈ xs, Ends (text x))
    (hy : ∀ y ∈ ys, Ends (text y)) {r t : List Char}
    (h : back (braced (xs.map text)) ++ r = back (braced (ys.map text)) ++ t) :
    xs = ys ∧ r = t := by
  have hends : ∀ {items : List String} {s : String} {r t : List Char}, Ends s →
      back (braced []) ++ r ≠ back (braced (items ++ [s])) ++ t := by
    rintro items s r t ⟨c, rest, hs, hc⟩ heq
    rw [back_braced_nil, back_braced_concat, hs] at heq
    exact hc (List.cons.inj (List.cons.inj heq).2).1.symm
  rcases List.eq_nil_or_concat xs with rfl | ⟨xs, x, rfl⟩
  · rcases List.eq_nil_or_concat ys with rfl | ⟨ys, y, rfl⟩
    · exact ⟨rfl, List.append_cancel_left h⟩
    · rw [List.concat_eq_append] at h hy
      rw [List.map_append, List.map_singleton] at h
      exact absurd h (hends (hy y (by simp)))
  · rw [List.concat_eq_append] at aligned inj hx h ⊢
    rcases List.eq_nil_or_concat ys with rfl | ⟨ys, y, rfl⟩
    · rw [List.map_append, List.map_singleton] at h
      exact absurd h.symm (hends (hx x (by simp)))
    · rw [List.concat_eq_append] at aligned inj h ⊢
      refine linked_inj aligned inj ?_
      rw [List.map_append, List.map_append, List.map_singleton, List.map_singleton,
        back_braced_concat, back_braced_concat] at h
      rw [List.map_append, List.map_append, List.map_singleton, List.map_singleton, linked_concat,
        linked_concat, (List.cons.inj h).2]

end Lists

section Types

/-- Characters of the names of types. -/
def isNameChar (c : Char) : Bool := Text.isIdentifierRest c || c == ':'

/-- Names behind one front: the front may be anything, since a character that is in no name has to
be found as often in what is before one as in what is before the other. -/
theorem front_append_inj {p : Char → Bool} {front a b r t : List Char} (ha : ∀ c ∈ a, p c = true)
    (hb : ∀ c ∈ b, p c = true) (hr : ∀ c ∈ r.head?, p c = false) (ht : ∀ c ∈ t.head?, p c = false)
    (h : a ++ (front ++ r) = b ++ (front ++ t)) : r = t := by
  have hnone : ∀ {l : List Char}, (∀ c ∈ l, p c = true) → l.countP (fun c => !p c) = 0 := by
    intro l hl
    rw [List.countP_eq_zero]
    intro c hc
    simp [hl c hc]
  have hshorter : ∀ {a b r t : List Char}, (∀ c ∈ a, p c = true) → (∀ c ∈ b, p c = true) →
      (∀ c ∈ t.head?, p c = false) →
        a ++ (front ++ r) = b ++ (front ++ t) → r <:+ t → r = t := by
    rintro a b r t ha hb ht h ⟨y, rfl⟩
    cases y with
    | nil => rfl
    | cons c y =>
      rw [← List.append_assoc, ← List.append_assoc, ← List.append_assoc] at h
      have hcount := congrArg (List.countP fun c => !p c) (List.append_cancel_right h)
      simp only [List.countP_append, hnone ha, hnone hb, List.countP_cons, ht c (by simp)] at hcount
      simp at hcount
  have hsuffix : r <:+ a ++ (front ++ r) := ⟨a ++ front, List.append_assoc ..⟩
  have hsuffix' : t <:+ a ++ (front ++ r) := ⟨b ++ front, by rw [h, List.append_assoc]⟩
  rcases List.suffix_or_suffix_of_suffix hsuffix hsuffix' with hrt | htr
  · exact hshorter ha hb ht h hrt
  · exact (hshorter hb ha hr h.symm htr).symm

/-- Names of types that are not declared and no arrays, each cut before its last word. -/
def scalars : List (String × String) := [("std::", "string"), ("", "int32_t"), ("", "float")]

/-- Names of types. All declared ones have the same front, and no last word that starts like that of
a scalar. -/
inductive TypeText (front : String) : String → Prop where
  | scalar {e : String × String} (known : e ∈ scalars) : TypeText front (e.1 ++ e.2)
  | declared {scope : List String} {name : String}
      (names : ∀ s ∈ scope ++ [name], Text.isIdentifier s = true)
      (capital : ∀ c ∈ name.toList.head?, c ∉ ['s', 'i', 'f']) :
      TypeText front (front ++ Text.join "::" (scope ++ [name]))
  | container {element : String} (of : TypeText front element) :
      TypeText front ("std::vector<" ++ element ++ ">")

theorem linked_colons {scope : List String} {r : List Char} :
    ∀ c ∈ (linked "::" scope r).head?, c = ':' ∨ c ∈ r.head? := by
  rcases List.eq_nil_or_concat scope with rfl | ⟨scope, s, rfl⟩
  · exact fun c hc => .inr hc
  · rw [List.concat_eq_append, linked_concat]
    intro c hc
    exact .inl (by simpa [back] using hc.symm)

theorem isIdentifier_chars {s : String} (h : Text.isIdentifier s = true) :
    ∀ c ∈ back s, Text.isIdentifierRest c = true :=
  back_chars (List.all_eq_true.mp (Text.isIdentifier_iff.mp h).1)

theorem word_cons {word : String} (h : Text.isIdentifier word = true) :
    ∃ c rest, back word = c :: rest ∧ Text.isIdentifierRest c = true := by
  obtain ⟨c, rest, hback⟩ := back_cons (show word ≠ "" by rintro rfl; cases h)
  exact ⟨c, rest, hback, isIdentifier_chars h c (by simp [hback])⟩

theorem join_chars {names : List String} (h : ∀ s ∈ names, Text.isIdentifier s = true) :
    ∀ c ∈ back (Text.join "::" names), isNameChar c = true := by
  have hname : ∀ s ∈ names, ∀ c ∈ back s, isNameChar c = true := by
    intro s hs c hc
    simp [isNameChar, isIdentifier_chars (h s hs) c hc]
  have hlinked : ∀ {scope : List String}, (∀ s ∈ scope, ∀ c ∈ back s, isNameChar c = true) →
      ∀ c ∈ linked "::" scope [], isNameChar c = true := by
    intro scope
    induction scope using List.reverseRecOn with
    | nil => simp [linked]
    | append_singleton scope s ih =>
      intro hs c hc
      rw [linked_concat, List.mem_append, List.mem_append] at hc
      rcases hc with hc | hc | hc
      · have hcolon : c = ':' := by simpa [back] using hc
        rw [hcolon]
        decide
      · exact hs s (by simp) c hc
      · exact ih (fun u hu => hs u (by simp [hu])) c hc
  rcases List.eq_nil_or_concat names with rfl | ⟨scope, s, rfl⟩
  · simp [Text.join, back]
  · rw [List.concat_eq_append] at hname ⊢
    intro c hc
    rw [← List.append_nil (back _), back_join, List.mem_append] at hc
    rcases hc with hc | hc
    · exact hname s (by simp) c hc
    · exact hlinked (fun u hu => hname u (by simp [hu])) c hc

variable {front : String} {r t : List Char}

/-- The last word of a name is cut off in one way. -/
theorem word_append_inj {a b : String} (ha : Text.isIdentifier a = true)
    (hb : Text.isIdentifier b = true) (hr : ∀ c ∈ r.head?, isNameChar c = false ∨ c = ':')
    (ht : ∀ c ∈ t.head?, isNameChar c = false ∨ c = ':') (h : back a ++ r = back b ++ t) :
    a = b ∧ r = t := by
  have hend : ∀ {c : Char}, isNameChar c = false ∨ c = ':' → Text.isIdentifierRest c = false := by
    rintro c (hc | rfl)
    · exact (Bool.or_eq_false_iff.mp hc).1
    · decide
  obtain ⟨hword, hrest⟩ := Text.run_append_inj (isIdentifier_chars ha) (isIdentifier_chars hb)
    (fun c hc => hend (hr c hc)) (fun c hc => hend (ht c hc)) h
  exact ⟨back_injective hword, hrest⟩

theorem back_declared (scope : List String) (name : String) :
    back (front ++ Text.join "::" (scope ++ [name])) ++ r = back name ++
      linked "::" scope (back front ++ r) := by
  rw [back_append, List.append_assoc, back_join]

/-- What is before the last word of a declared name. -/
theorem linked_front (hfront : ∀ c ∈ (back front).head?, c = ':')
    (hr : ∀ c ∈ r.head?, isNameChar c = false) (scope : List String) :
    ∀ c ∈ (linked "::" scope (back front ++ r)).head?, isNameChar c = false ∨ c = ':' := by
  intro c hc
  rcases linked_colons c hc with hcolon | hc
  · exact .inr hcolon
  · cases hb : back front with
    | nil =>
      rw [hb] at hc
      exact .inl (hr c hc)
    | cons first rest =>
      rw [hb] at hc hfront
      exact .inr (hfront c hc)

theorem scalar_spec {e : String × String} (h : e ∈ scalars) : Text.isIdentifier e.2 = true ∧
    (∀ c ∈ (back e.1).head?, c = ':') ∧ ∃ c ∈ e.2.toList.head?, c ∈ ['s', 'i', 'f'] := by
  simp only [scalars, List.mem_cons, List.not_mem_nil, or_false] at h
  rcases h with rfl | rfl | rfl <;> simp [back] <;> decide

theorem scalar_front {e : String × String} (h : e ∈ scalars)
    (hr : ∀ c ∈ r.head?, isNameChar c = false) :
    ∀ c ∈ (back e.1 ++ r).head?, isNameChar c = false ∨ c = ':' :=
  linked_front (scalar_spec h).2.1 hr []

theorem scalar_ext {e e' : String × String} (h : e ∈ scalars) (h' : e' ∈ scalars)
    (hword : e.2 = e'.2) : e = e' := by
  simp only [scalars, List.mem_cons, List.not_mem_nil, or_false] at h h'
  rcases h with rfl | rfl | rfl <;> rcases h' with rfl | rfl | rfl <;> simp at hword ⊢

theorem scalar_ne_declared {e : String × String} (h : e ∈ scalars) {scope : List String}
    {name : String} (hfront : ∀ c ∈ (back front).head?, c = ':')
    (names : ∀ s ∈ scope ++ [name], Text.isIdentifier s = true)
    (capital : ∀ c ∈ name.toList.head?, c ∉ ['s', 'i', 'f'])
    (hr : ∀ c ∈ r.head?, isNameChar c = false) (ht : ∀ c ∈ t.head?, isNameChar c = false) :
    back (e.1 ++ e.2) ++ r ≠ back (front ++ Text.join "::" (scope ++ [name])) ++ t := by
  intro heq
  rw [back_append, List.append_assoc, back_declared] at heq
  obtain ⟨hword, _, c, hc, hsmall⟩ := scalar_spec h
  obtain ⟨rfl, _⟩ :=
    word_append_inj hword (names name (by simp)) (scalar_front h hr)
    (linked_front hfront ht scope) heq
  exact capital c hc hsmall

theorem TypeText.aligned (hfront : ∀ c ∈ (back front).head?, c = ':') {s u : String}
    (h : TypeText front s) (h' : TypeText front u) (hr : ∀ c ∈ r.head?, isNameChar c = false)
    (ht : ∀ c ∈ t.head?, isNameChar c = false) (heq : back s ++ r = back u ++ t) : r = t := by
  have hcontainer : ∀ {element word : String} {r t : List Char}, Text.isIdentifier word = true →
      back ("std::vector<" ++ element ++ ">") ++ r ≠ back word ++ t := by
    intro element word r t hword heq
    obtain ⟨c, rest, hback, hc⟩ := word_cons hword
    rw [hback] at heq
    have hlast : '>' = c := by simpa [back] using congrArg List.head? heq
    rw [← hlast] at hc
    cases hc
  induction h generalizing u r t with
  | scalar known =>
    cases h' with
    | scalar known' =>
      rw [back_append, back_append, List.append_assoc, List.append_assoc] at heq
      obtain ⟨hword, hrest⟩ := word_append_inj (scalar_spec known).1 (scalar_spec known').1
        (scalar_front known hr) (scalar_front known' ht) heq
      rw [scalar_ext known known' hword] at hrest
      exact List.append_cancel_left hrest
    | declared names capital =>
      exact absurd heq (scalar_ne_declared known hfront names capital hr ht)
    | container of =>
      rw [back_append _ (Prod.snd _), List.append_assoc] at heq
      exact absurd heq.symm (hcontainer (scalar_spec known).1)
  | @declared scope name names capital =>
    cases h' with
    | scalar known => exact absurd heq.symm (scalar_ne_declared known hfront names capital ht hr)
    | @declared scope' name' names' capital' =>
      rw [back_append, back_append, List.append_assoc, List.append_assoc] at heq
      exact front_append_inj (join_chars names) (join_chars names') hr ht heq
    | container of =>
      rw [back_declared] at heq
      exact absurd heq.symm (hcontainer (names name (by simp)))
  | container of ih =>
    cases h' with
    | scalar known =>
      rw [back_append _ (Prod.snd _), List.append_assoc] at heq
      exact absurd heq (hcontainer (scalar_spec known).1)
    | @declared scope name names capital =>
      rw [back_declared] at heq
      exact absurd heq (hcontainer (names name (by simp)))
    | container of' =>
      -- the element's name stands behind a bracket here, and not behind what is before the
      -- container
      simp only [back_append, List.append_assoc] at heq
      have hrest :=
        ih of' (by simp [back]; decide) (by simp [back]; decide) (List.append_cancel_left heq)
      exact List.append_cancel_left hrest

theorem TypeText.last {s : String} (h : TypeText front s) :
    ∃ c rest, back s = c :: rest ∧ (Text.isIdentifierRest c = true ∨ c = '>') := by
  cases h with
  | @scalar e known =>
    obtain ⟨c, rest, hback, hc⟩ := word_cons (scalar_spec known).1
    exact ⟨c, rest ++ back e.1, by rw [back_append, hback]; rfl, .inl hc⟩
  | @declared scope name names =>
    obtain ⟨c, rest, hback, hc⟩ := word_cons (names name (by simp))
    have hname : back (front ++ Text.join "::" (scope ++ [name])) ++ [] = _ :=
      back_declared scope name
    rw [List.append_nil, hback] at hname
    exact ⟨c, _, hname, .inl hc⟩
  | @container element =>
    exact ⟨'>', back ("std::vector<" ++ element), by rw [back_append]; rfl, .inr rfl⟩

/-- A type in front of a brace, or none, is cut off in one way. -/
theorem typed_aligned (hfront : ∀ c ∈ (back front).head?, c = ':') {s u : String}
    (h : s = "" ∨ TypeText front s) (h' : u = "" ∨ TypeText front u) : Aligned .value s u := by
  have hname : ∀ {l : List Char}, Leads .value l → ∀ c ∈ l.head?, isNameChar c = false := by
    intro l hl c hc
    rcases hl c hc with rfl | rfl <;> decide
  have hnone : ∀ {s : String}, TypeText front s → Aligned .value "" s := by
    intro s hs r t hr _ heq
    obtain ⟨c, rest, hback, hc⟩ := hs.last
    rw [hback] at heq
    have hhead := hr c (by rw [show r = _ from heq]; rfl)
    rcases hhead with rfl | rfl <;> simp [Text.isIdentifierRest] at hc
  rcases h with rfl | h <;> rcases h' with rfl | h'
  · exact fun r t _ _ heq => heq
  · exact hnone h'
  · exact (hnone h).symm
  · exact fun r t hr ht heq => h.aligned hfront h' (hname hr) (hname ht) heq

end Types

section Quotes

/-- Every quote has a backslash before it. -/
def Masked (l : List Char) : Prop := ∀ front rest, l = front ++ '"' :: rest → rest.head? = some '\\'

theorem Masked.append {l l' : List Char} (h : Masked l) (h' : Masked l') : Masked (l ++ l') := by
  intro front rest heq
  rcases List.append_eq_append_iff.mp heq with ⟨middle, hfront, hrest⟩ | ⟨middle, hl, hl'⟩
  · exact h' middle rest hrest
  · cases middle with
    | nil => exact h' [] rest (by simpa using hl'.symm)
    | cons c middle =>
      rw [List.cons_append, List.cons.injEq] at hl'
      obtain ⟨rfl, rfl⟩ := hl'
      rw [List.head?_append, h front middle hl]
      rfl

theorem Masked.of_not_mem {l : List Char} (h : '"' ∉ l) : Masked l := by
  rintro front rest rfl
  exact absurd (by simp) h

theorem quote_not_mem_octal (n : Nat) : '"' ∉ octal n := by
  intro h
  obtain ⟨digit, hdigit, hc⟩ := List.mem_map.mp h
  have hlt : digit < 8 := by
    simp only [List.mem_cons, List.not_mem_nil, or_false] at hdigit
    omega
  have hread := octalDigit?_ofNat hlt
  rw [hc] at hread
  cases hread

theorem masked_escape (c : Char) : Masked (escape c).reverse := by
  unfold escape
  split
  case h_1 =>
    intro front rest heq
    cases front with
    | nil => exact congrArg List.head? (List.cons.inj heq).2.symm
    | cons a front => exact absurd (show '"' ∈ ['\\'] by simp [(List.cons.inj heq).2]) (by decide)
  case h_6 hquote _ _ _ _ =>
    split
    · exact .of_not_mem (by simp [quote_not_mem_octal])
    · exact .of_not_mem (by simpa using Ne.symm hquote)
  all_goals exact .of_not_mem (by decide)

theorem masked_escapes (cs : List Char) : Masked (cs.flatMap escape).reverse := by
  induction cs with
  | nil => exact .of_not_mem (by simp)
  | cons c cs ih =>
    rw [List.flatMap_cons, List.reverse_append]
    exact ih.append (masked_escape c)

theorem back_quote (s : String) (r : List Char) :
    back (quote s) ++ r = '"' :: ((s.toList.flatMap escape).reverse ++ '"' :: r) := by
  simp [back, quote]

/-- A string literal starts at the first quote from its end that has no backslash before it. -/
theorem quote_aligned (s u : String) : Aligned .value (quote s) (quote u) := by
  have hstart : ∀ {l : List Char}, Leads .value l → l.head? ≠ some '\\' := by
    intro l hl hslash
    rcases hl '\\' hslash with hc | hc <;> cases hc
  have hcut : ∀ {l l' r t : List Char}, Masked l' → Leads .value r →
      (∃ middle, l' = l ++ middle ∧ '"' :: r = middle ++ '"' :: t) →
        r = t := by
    rintro l l' r t hmasked hr ⟨middle, rfl, heq⟩
    cases middle with
    | nil => exact (List.cons.inj heq).2
    | cons c middle =>
      rw [List.cons_append, List.cons.injEq] at heq
      obtain ⟨rfl, rfl⟩ := heq
      have hslash := hmasked l middle rfl
      exact absurd (by rw [List.head?_append, hslash]; rfl) (hstart hr)
  intro r t hr ht heq
  rw [back_quote, back_quote] at heq
  rcases List.append_eq_append_iff.mp (List.cons.inj heq).2 with hlonger | hshorter
  · exact hcut (masked_escapes _) hr hlonger
  · exact (hcut (masked_escapes _) ht hshorter).symm

end Quotes

section Values

/-- Texts of values, and of what stands between commas in them. -/
inductive Spelled (front : String) : Part → String → Prop where
  | quoted {s : String} : Spelled front .value (quote s)
  | number {s : String} (given : s ≠ "") (chars : ∀ c ∈ s.toList, isNumberChar c = true) :
      Spelled front .value s
  | block {type : String} {items : List String} (typed : type = "" ∨ TypeText front type)
      (each : ∀ x ∈ items, Spelled front .item x) : Spelled front .value (type ++ braced items)
  | alone {s : String} (value : Spelled front .value s) : Spelled front .item s
  | field {name s : String} (word : Text.isIdentifier name = true)
      (value : Spelled front .value s) : Spelled front .item ("." ++ name ++ " = " ++ s)
  | index {k : Nat} : Spelled front .item ("std::in_place_index<" ++ toString k ++ ">")

variable {front : String}

theorem number_cons {s : String} (given : s ≠ "") (chars : ∀ c ∈ s.toList, isNumberChar c = true) :
    ∃ c rest, back s = c :: rest ∧ isNumberChar c = true := by
  obtain ⟨c, rest, hback⟩ := back_cons given
  exact ⟨c, rest, hback, back_chars chars c (by simp [hback])⟩

theorem quote_cons (s : String) : ∃ rest, back (quote s) = '"' :: rest := by
  simp [back, quote]

theorem block_cons (type : String) (items : List String) :
    ∃ rest, back (type ++ braced items) = '\x7d' :: rest := by
  obtain ⟨rest, hrest⟩ := back_braced items
  exact ⟨rest ++ back type, by rw [back_append, hrest]; rfl⟩

/-- A value ends with a character that no list starts with, and no index ends with. -/
theorem Spelled.last {s : String} (h : Spelled front .value s) :
    ∃ c rest, back s = c :: rest ∧ c ≠ '\x7b' ∧ c ≠ '>' := by
  cases h with
  | @quoted s =>
    obtain ⟨rest, hback⟩ := quote_cons s
    exact ⟨_, rest, hback, by decide, by decide⟩
  | number given chars =>
    obtain ⟨c, rest, hback, hc⟩ := number_cons given chars
    refine ⟨c, rest, hback, ?_, ?_⟩ <;>
    · rintro rfl
      cases hc
  | @block type items =>
    obtain ⟨rest, hback⟩ := block_cons type items
    exact ⟨_, rest, hback, by decide, by decide⟩

theorem back_field (name s : String) (r : List Char) :
    back ("." ++ name ++ " = " ++ s) ++ r = back s ++
      (' ' :: '=' :: ' ' :: (back name ++ '.' :: r)) := by
  simp [back]

theorem back_index (k : Nat) (r : List Char) :
    back ("std::in_place_index<" ++ toString k ++ ">") ++ r =
      '>' :: (back (toString k) ++ '<' :: (back "std::in_place_index" ++ r)) := by
  simp [back]

theorem Spelled.ends {s : String} (h : Spelled front .item s) : Ends s := by
  cases h with
  | alone value =>
    obtain ⟨c, rest, hback, hc, _⟩ := value.last
    exact ⟨c, rest, hback, hc⟩
  | @field name s word value =>
    obtain ⟨c, rest, hback, hc, _⟩ := value.last
    exact ⟨c, rest ++ back ("." ++ name ++ " = "), by rw [back_append, hback]; rfl, hc⟩
  | @index k =>
    exact ⟨'>', back ("std::in_place_index<" ++ toString k), by rw [back_append]; rfl, by decide⟩

/-- Values of different kinds are told apart by their last characters. -/
theorem quote_number {s u : String} (given : u ≠ "")
    (chars : ∀ c ∈ u.toList, isNumberChar c = true) :
    Aligned .value (quote s) u := by
  obtain ⟨rest, hback⟩ := quote_cons s
  obtain ⟨c, rest', hback', hc⟩ := number_cons given chars
  exact .of_last hback hback' (by rintro rfl; cases hc)

theorem quote_block {s type : String} {items : List String} :
    Aligned .value (quote s) (type ++ braced items) := by
  obtain ⟨rest, hback⟩ := quote_cons s
  obtain ⟨rest', hback'⟩ := block_cons type items
  exact .of_last hback hback' (by decide)

theorem number_block {s type : String} {items : List String} (given : s ≠ "")
    (chars : ∀ c ∈ s.toList, isNumberChar c = true) :
    Aligned .value s (type ++ braced items) := by
  obtain ⟨c, rest, hback, hc⟩ := number_cons given chars
  obtain ⟨rest', hback'⟩ := block_cons type items
  exact .of_last hback hback' (by rintro rfl; cases hc)

theorem number_aligned {s u : String} (hs : ∀ c ∈ s.toList, isNumberChar c = true)
    (hu : ∀ c ∈ u.toList, isNumberChar c = true) : Aligned .value s u := by
  have hend : ∀ {l : List Char}, Leads .value l → ∀ c ∈ l.head?, isNumberChar c = false := by
    intro l hl c hc
    rcases hl c hc with rfl | rfl <;> decide
  intro r t hr ht heq
  exact (Text.run_append_inj (back_chars hs) (back_chars hu) (hend hr) (hend ht) heq).2

/-- A field is no value by itself. -/
theorem alone_field {s name u : String} (h : Aligned .value s u) :
    Aligned .item s ("." ++ name ++ " = " ++ u) := by
  intro r t hr _ heq
  rw [back_field] at heq
  obtain rfl := h hr.value (by simp [Leads]) heq
  rcases hr with ⟨r', hr⟩ | ⟨r', hr⟩ <;> simp at hr

theorem index_other {k : Nat} {s : String} (h : ∃ c rest, back s = c :: rest ∧ c ≠ '>') :
    Aligned .item ("std::in_place_index<" ++ toString k ++ ">") s := by
  obtain ⟨c, rest, hback, hc⟩ := h
  have hindex := back_index k []
  rw [List.append_nil] at hindex
  exact .of_last hindex hback hc.symm

theorem index_field {k : Nat} {name s : String} (h : Spelled front .value s) :
    Aligned .item ("std::in_place_index<" ++ toString k ++ ">") ("." ++ name ++ " = " ++ s) := by
  obtain ⟨c, rest, hback, _, hc⟩ := h.last
  exact index_other ⟨c, rest ++ back ("." ++ name ++ " = "), by rw [back_append, hback]; rfl, hc⟩

theorem index_alone {k : Nat} {s : String} (h : Spelled front .value s) :
    Aligned .item ("std::in_place_index<" ++ toString k ++ ">") s := by
  obtain ⟨c, rest, hback, _, hc⟩ := h.last
  exact index_other ⟨c, rest, hback, hc⟩

theorem toString_digits {n : Nat} : ∀ c ∈ (toString n).toList, c.isDigit = true := by
  intro c hc
  rw [Nat.toString_eq_ofList_toDigits, String.toList_ofList] at hc
  exact Nat.isDigit_of_mem_toDigits (by decide) (by decide) hc

theorem index_aligned (k k' : Nat) :
    Aligned .item ("std::in_place_index<" ++ toString k ++ ">")
      ("std::in_place_index<" ++ toString k' ++ ">") := by
  intro r t _ _ heq
  rw [back_index, back_index] at heq
  obtain ⟨_, hrest⟩ := Text.run_append_inj (back_chars toString_digits) (back_chars toString_digits)
    (by simp) (by simp) (List.cons.inj heq).2
  exact List.append_cancel_left (List.cons.inj hrest).2

/-- What is before a value that is read from its end is where the value starts, whichever value it
is. -/
theorem Spelled.aligned (hfront : ∀ c ∈ (back front).head?, c = ':') {part : Part} {s : String}
    (h : Spelled front part s) :
    ∀ {u : String}, Spelled front part u → Aligned part s u := by
  induction h with
  | quoted =>
    intro u hu
    cases hu with
    | quoted => exact quote_aligned _ _
    | number given chars => exact quote_number given chars
    | block => exact quote_block
  | number given chars =>
    intro u hu
    cases hu with
    | quoted => exact (quote_number given chars).symm
    | number given' chars' => exact number_aligned chars chars'
    | block => exact number_block given chars
  | @block type items typed each ih =>
    intro u hu
    cases hu with
    | quoted => exact quote_block.symm
    | number given chars => exact (number_block given chars).symm
    | @block type' items' typed' each' =>
      -- from its end a block is its list first, and then the type
      intro r t hr ht heq
      rw [back_append, back_append, List.append_assoc, List.append_assoc, ← List.map_id items,
        ← List.map_id items'] at heq
      obtain ⟨_, hrest⟩ := braced_inj (fun x hx y hy => ih x hx (each' y hy)) (fun x _ y _ h => h)
        (fun x hx => (each x hx).ends) (fun y hy => (each' y hy).ends) heq
      exact typed_aligned hfront typed typed' hr ht hrest
  | alone value ih =>
    intro u hu
    cases hu with
    | alone value' => exact fun r t hr ht heq => ih value' hr.value ht.value heq
    | field word' value' => exact alone_field (ih value')
    | index => exact (index_alone value).symm
  | @field name s word value ih =>
    intro u hu
    cases hu with
    | alone value' => exact (alone_field (ih value').symm).symm
    | @field name' s' word' value' =>
      intro r t _ _ heq
      rw [back_field, back_field] at heq
      have hrest := ih value' (by simp [Leads]) (by simp [Leads]) heq
      simp only [List.cons.injEq, true_and] at hrest
      obtain ⟨_, hrest⟩ := word_append_inj word word' (by simp; decide) (by simp; decide) hrest
      exact (List.cons.inj hrest).2
    | index => exact (index_field value).symm
  | index =>
    intro u hu
    cases hu with
    | alone value => exact index_alone value
    | field word value => exact index_field value
    | index => exact index_aligned _ _

end Values

end Cpp

end DeviceModel
