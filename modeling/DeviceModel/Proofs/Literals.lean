import DeviceModel.Cpp.Literal
import DeviceModel.Proofs.ShortestDigits

namespace DeviceModel

/-- Text is cut in one way where a run of characters ends. -/
theorem Text.run_append_inj {p : Char → Bool} {a b r t : List Char} (ha : ∀ c ∈ a, p c = true)
    (hb : ∀ c ∈ b, p c = true) (hr : ∀ c ∈ r.head?, p c = false) (ht : ∀ c ∈ t.head?, p c = false)
    (h : a ++ r = b ++ t) : a = b ∧ r = t := by
  have hrun : ∀ {a r : List Char}, (∀ c ∈ a, p c = true) → (∀ c ∈ r.head?, p c = false) →
      (a ++ r).takeWhile p = a := by
    intro a r ha hr
    rw [List.takeWhile_append_of_pos ha]
    cases r with
    | nil => simp
    | cons c r => simp [hr c rfl]
  have hab : a = b := by rw [← hrun ha hr, h, hrun hb ht]
  subst hab
  exact ⟨rfl, List.append_cancel_left h⟩

theorem Text.toDigits_injective {n m : Nat} (h : Nat.toDigits 10 n = Nat.toDigits 10 m) :
    n = m := by
  rw [← Nat.ofDigitChars_ten_toDigits (n := n), h, Nat.ofDigitChars_ten_toDigits]

theorem Text.toList_int (i : Int) : (toString i).toList =
    if 0 ≤ i then Nat.toDigits 10 i.toNat else '-' :: Nat.toDigits 10 (-i).toNat := by
  rw [Int.toString_eq_repr, Int.repr_eq_if]
  split <;> simp

theorem Text.int_chars {i : Int} {c : Char} (hc : c ∈ (toString i).toList) :
    c.isDigit = true ∨ c = '-' := by
  have hdigits : ∀ {n : Nat}, c ∈ Nat.toDigits 10 n → c.isDigit = true :=
    Nat.isDigit_of_mem_toDigits (by decide) (by decide)
  rw [toList_int] at hc
  split at hc
  · exact .inl (hdigits hc)
  · obtain rfl | hc := List.mem_cons.mp hc
    · exact .inr rfl
    · exact .inl (hdigits hc)

theorem Text.int_injective {i j : Int} (h : toString i = toString j) : i = j := by
  have hsign : ∀ {n m : Nat}, Nat.toDigits 10 n ≠ '-' :: Nat.toDigits 10 m := by
    intro n m hnm
    have hminus : ('-').isDigit = true :=
      Nat.isDigit_of_mem_toDigits (b := 10) (n := n) (by decide) (by decide) (by simp [hnm])
    exact absurd hminus (by decide)
  have hlists := congrArg String.toList h
  rw [toList_int, toList_int] at hlists
  split at hlists <;> split at hlists
  · have := toDigits_injective hlists
    omega
  · exact absurd hlists hsign
  · exact absurd hlists.symm hsign
  · have := toDigits_injective (List.cons.inj hlists).2
    omega

namespace Number

/-- Digits, perhaps a point with digits after it, perhaps a power of ten; a point or a power is
there. -/
@[ext]
structure Numeral where
  whole : List Char
  fraction : Option (List Char)
  power : Option Int
  digits : ∀ ds ∈ whole :: fraction.toList, ds ≠ [] ∧ ∀ c ∈ ds, c.isDigit = true
  marked : fraction.isSome ∨ power.isSome

namespace Numeral

def powerText (power : Option Int) : List Char := power.elim [] fun e => 'e' :: (toString e).toList

def fractionText (fraction : Option (List Char)) : List Char := fraction.elim [] ('.' :: ·)

def text (n : Numeral) : List Char := n.whole ++ (fractionText n.fraction ++ powerText n.power)

def value (n : Numeral) : ℚ :=
  Nat.ofDigitChars 10 (n.whole ++ n.fraction.getD []) 0 * 10 ^
    (n.power.getD 0 - (n.fraction.getD []).length)

theorem powerText_head {power : Option Int} : ∀ c ∈ (powerText power).head?, c = 'e' := by
  cases power <;> simp [powerText]

theorem fractionText_head {fraction : Option (List Char)} {power : Option Int} :
    ∀ c ∈ (fractionText fraction ++ powerText power).head?, c = '.' ∨ c = 'e' := by
  cases fraction with
  | none => intro c hc; exact .inr (powerText_head c hc)
  | some ds => simp [fractionText]

theorem powerText_injective : Function.Injective powerText := by
  intro e e' h
  cases e with
  | none => cases e' <;> simp_all [powerText]
  | some i =>
    cases e' with
    | none => simp [powerText] at h
    | some j => exact congrArg some (Text.int_injective (String.toList_inj.mp (List.cons.inj h).2))

/-- A numeral is read in one way. -/
theorem text_injective : Function.Injective text := by
  intro n n' h
  have hpower : ∀ {e : Option Int}, ∀ c ∈ (powerText e).head?, c.isDigit = false := by
    intro e c hc
    rw [powerText_head c hc]
    decide
  have hrest : ∀ {n : Numeral}, ∀ c ∈ (fractionText n.fraction ++ powerText n.power).head?,
      c.isDigit = false := by
    intro n c hc
    obtain rfl | rfl := fractionText_head c hc <;> decide
  obtain ⟨hwhole, hrest⟩ :=
    Text.run_append_inj (n.digits n.whole (by simp)).2
    (n'.digits n'.whole (by simp)).2 hrest hrest h
  have hboth : n.fraction = n'.fraction ∧ powerText n.power = powerText n'.power := by
    have hds := n.digits
    have hds' := n'.digits
    cases hf : n.fraction with
    | none =>
      cases hf' : n'.fraction with
      | none => simpa [hf, hf', fractionText] using hrest
      | some ds' =>
        rw [hf, hf'] at hrest
        have hhead := powerText_head '.' (by simpa [fractionText] using congrArg List.head? hrest)
        exact absurd hhead (by decide)
    | some ds =>
      cases hf' : n'.fraction with
      | none =>
        rw [hf, hf'] at hrest
        have hhead :=
          powerText_head '.' (by simpa [fractionText] using (congrArg List.head? hrest).symm)
        exact absurd hhead (by decide)
      | some ds' =>
        simp only [hf, hf', fractionText, Option.elim_some, List.cons_append, List.cons.injEq,
          true_and] at hrest
        rw [hf] at hds
        rw [hf'] at hds'
        obtain ⟨rfl, hpowers⟩ :=
          Text.run_append_inj (hds ds (by simp)).2 (hds' ds' (by simp)).2 hpower hpower hrest
        exact ⟨rfl, hpowers⟩
  exact Numeral.ext hwhole hboth.1 (powerText_injective hboth.2)

/-- Characters of a numeral. -/
theorem text_chars (n : Numeral) : ∀ c ∈ n.text, c.isDigit = true ∨ c ∈ ['.', 'e', '-'] := by
  intro c hc
  rw [text, List.mem_append, List.mem_append] at hc
  obtain hc | hc | hc := hc
  · exact .inl ((n.digits n.whole (by simp)).2 c hc)
  · cases hf : n.fraction with
    | none => simp [hf, fractionText] at hc
    | some ds =>
      obtain rfl | hc := List.mem_cons.mp (show c ∈ '.' :: ds by simpa [hf, fractionText] using hc)
      · exact .inr (by simp)
      · exact .inl ((n.digits ds (by simp [hf])).2 c hc)
  · cases he : n.power with
    | none => simp [he, powerText] at hc
    | some e =>
      obtain rfl | hc :=
        List.mem_cons.mp (show c ∈ 'e' :: (toString e).toList by simpa [he, powerText] using hc)
      · exact .inr (by simp)
      · obtain hc | rfl := Text.int_chars hc
        · exact .inl hc
        · exact .inr (by simp)

theorem text_head (n : Numeral) : ∃ c r, n.text = c :: r ∧ c.isDigit = true := by
  obtain ⟨hne, hdigits⟩ := n.digits n.whole (by simp)
  obtain ⟨c, r, hwhole⟩ := List.exists_cons_of_ne_nil hne
  exact ⟨c, r ++ (fractionText n.fraction ++ powerText n.power), by rw [text, hwhole]; rfl,
    hdigits c (by simp [hwhole])⟩

end Numeral

namespace Layout

variable {l : Layout} {digits : List Char}

theorem toList_zeros (n : Nat) : (zeros n).toList = List.replicate n '0' := by simp [zeros]

theorem isDigit_zeros {n : Nat} : ∀ c ∈ List.replicate n '0', c.isDigit = true := by
  intro c hc
  rw [List.eq_of_mem_replicate hc]
  decide

/-- With a point: before all digits, after all digits, or between two of them. -/
theorem point_numeral (hzero : l.pointZero = true) (hne : digits ≠ [])
    (hdigits : ∀ c ∈ digits, c.isDigit = true) (lead : Int) :
    ∃ n : Numeral, (l.point digits lead).toList = n.text ∧
      n.value = Nat.ofDigitChars 10 digits 0 * 10 ^ (lead + 1 - digits.length) := by
  have hsplit : ∀ (k : Nat) (c : Char), c ∈ digits.take k ∨ c ∈ digits.drop k →
      c.isDigit = true := by
    intro k c hc
    exact hdigits c (hc.elim List.mem_of_mem_take List.mem_of_mem_drop)
  unfold point
  dsimp only
  split
  · rename_i hlead
    refine ⟨⟨['0'], some (List.replicate (-lead - 1).toNat '0' ++ digits), none, ?_,
      .inl rfl⟩, ?_, ?_⟩
    · simp only [Option.toList_some, List.mem_cons, List.not_mem_nil, or_false, forall_eq_or_imp,
        forall_eq]
      refine ⟨⟨by simp, by simp⟩, by simp [hne], fun c hc => ?_⟩
      exact (List.mem_append.mp hc).elim (isDigit_zeros c) (hdigits c)
    · simp [Numeral.text, Numeral.fractionText, Numeral.powerText, toList_zeros]
    · have hplaces : (0 : Int) - (((-lead - 1).toNat + digits.length : Nat) : Int) =
          lead + 1 - digits.length := by omega
      simp [Numeral.value, Nat.ofDigitChars_append, Nat.ofDigitChars_cons,
        Nat.ofDigitChars_replicate_zero, ← hplaces]
  · rename_i hlead
    split
    · rename_i hlength
      refine ⟨⟨digits ++ List.replicate (lead.toNat + 1 - digits.length) '0', some ['0'], none, ?_,
        .inl rfl⟩, ?_, ?_⟩
      · simp only [Option.toList_some, List.mem_cons, List.not_mem_nil, or_false, forall_eq_or_imp,
          forall_eq]
        refine ⟨⟨by simp [hne], fun c hc => ?_⟩, by simp, by simp⟩
        exact (List.mem_append.mp hc).elim (hdigits c) (isDigit_zeros c)
      · simp [Numeral.text, Numeral.fractionText, Numeral.powerText, toList_zeros]
      · have hplaces : lead + 1 - digits.length = (lead.toNat + 1 - digits.length : Nat) := by omega
        simp [Numeral.value, Nat.ofDigitChars_append, Nat.ofDigitChars_cons,
          Nat.ofDigitChars_replicate_zero, hplaces]
        ring
    · rename_i hlength
      refine ⟨⟨digits.take (lead.toNat + 1), some (digits.drop (lead.toNat + 1)), none, ?_,
        .inl rfl⟩, ?_, ?_⟩
      · simp only [Option.toList_some, List.mem_cons, List.not_mem_nil, or_false, forall_eq_or_imp,
          forall_eq]
        refine ⟨⟨?_, fun c hc => hsplit _ c (.inl hc)⟩, ?_, fun c hc => hsplit _ c (.inr hc)⟩
        · simp [hne]
        · simpa using hlength
      · simp [Numeral.text, Numeral.fractionText, Numeral.powerText]
      · have hplaces : (0 : Int) - (digits.length - (lead.toNat + 1) : Nat) =
            lead + 1 - digits.length := by omega
        simp only [Numeral.value, Option.getD_some, Option.getD_none, List.take_append_drop,
          List.length_drop, hplaces]

/-- With a power of ten: after one digit, or after one digit, a point and the rest. -/
theorem scientific_numeral (hplus : l.plus = false) (hne : digits ≠ [])
    (hdigits : ∀ c ∈ digits, c.isDigit = true) (lead : Int) :
    ∃ n : Numeral, (l.scientific digits lead).toList = n.text ∧
      n.value = Nat.ofDigitChars 10 digits 0 * 10 ^ (lead + 1 - digits.length) := by
  unfold scientific
  dsimp only
  obtain ⟨c, rest, rfl⟩ := List.exists_cons_of_ne_nil hne
  cases rest with
  | nil =>
    refine ⟨⟨[c], none, some lead, ?_, .inr rfl⟩, ?_, ?_⟩
    · simpa using hdigits
    · simp [Numeral.text, Numeral.fractionText, Numeral.powerText, hplus]
    · simp [Numeral.value]
  | cons c' rest =>
    refine ⟨⟨[c], some (c' :: rest), some lead, ?_, .inr rfl⟩, ?_, ?_⟩
    · simpa using hdigits
    · simp [Numeral.text, Numeral.fractionText, Numeral.powerText, hplus]
    · have hplaces : lead + 1 - (c :: c' :: rest).length = lead - (c' :: rest).length := by
        simp only [List.length_cons]
        push_cast
        ring
      rw [hplaces]
      rfl

/-- Digits are written as a numeral that stands for the same number. -/
theorem decimal_numeral (hzero : l.pointZero = true) (hplus : l.plus = false) (d : Decimal) :
    ∃ n : Numeral, (l.decimal d).toList = n.text ∧ n.value = d.amount := by
  have hne : Nat.toDigits 10 d.digits ≠ [] := Nat.toDigits_ne_nil
  have hdigits : ∀ c ∈ Nat.toDigits 10 d.digits, c.isDigit = true :=
    fun c hc => Nat.isDigit_of_mem_toDigits (by decide) (by decide) hc
  have hamount : d.amount = Nat.ofDigitChars 10 (Nat.toDigits 10 d.digits) 0 *
      10 ^
          (d.exponent + (Nat.toDigits 10 d.digits).length - 1 + 1 - (Nat.toDigits 10
          d.digits).length) := by
    rw [Nat.ofDigitChars_ten_toDigits, Decimal.amount]
    congr 2
    ring
  rw [hamount]
  unfold decimal
  dsimp only
  split
  · exact point_numeral hzero hne hdigits _
  · exact scientific_numeral hplus hne hdigits _

end Layout

/-- The number zero reads back as nothing else, and every other number as what lies in its
interval. -/
def Single.Reads (n : Nat) (q : ℚ) : Prop := if n = 0 then q = 0 else Owns n q

theorem Single.Reads.unique {n n' : Nat} {q : ℚ} (h : Reads n q) (h' : Reads n' q) : n = n' := by
  have hpos : ∀ {n : Nat}, Owns n q → 0 < q := by
    intro n hn
    have hmiddle : 0 < middle (n - 1) := by
      have hstep : (0 : ℚ) < 2 ^ exponentAt (n - 1) := by positivity
      have hsize : 0 ≤ sizeAt (n - 1) := sizeAt_zero ▸ sizeAt_strictMono.monotone (Nat.zero_le _)
      rw [middle]
      linarith
    exact hmiddle.trans_le hn.le.1
  unfold Reads at h h'
  split at h <;> split at h'
  · omega
  · exact absurd h (hpos h').ne'
  · exact absurd h' (hpos h).ne'
  · exact Owns.unique (by omega) (by omega) h h'

theorem Single.mantissaAt_eq_zero {n : Nat} : mantissaAt n = 0 ↔ n = 0 := by
  unfold mantissaAt
  split <;> omega

end Number

namespace Cpp

open Number

def signText (negative : Bool) : List Char := if negative then ['-'] else []

/-- A sign, digits with a point or a power of ten, and the suffix. -/
def IsFloatLiteral (text : String) : Prop :=
  ∃ (negative : Bool) (n : Numeral), text.toList = signText negative ++ n.text ++ ['f']

theorem float_finite {x : Single} (hfinite : x.magnitude < Single.top) :
    ∃ n : Numeral, (float x).toList = signText x.isNegative ++ n.text ++ ['f'] ∧
      Single.Reads x.magnitude n.value := by
  rw [float, Single.value_eq, if_pos hfinite]
  unfold Layout.text
  dsimp only
  split
  · rename_i hzero
    refine ⟨⟨['0'], some ['0'], none, by simp, .inl rfl⟩, ?_, ?_⟩
    · cases x.isNegative <;> simp [signText, floats, Numeral.text, Numeral.fractionText,
        Numeral.powerText]
    · rw [Single.Reads, if_pos (Single.mantissaAt_eq_zero.mp hzero)]
      simp [Numeral.value, Nat.ofDigitChars_cons]
  · rename_i hzero
    have hpos : x.magnitude ≠ 0 := fun h => hzero (Single.mantissaAt_eq_zero.mpr h)
    obtain ⟨n, htext, hvalue⟩ := Layout.decimal_numeral (l := floats) rfl rfl
      (shortest .single floats.tie (Single.mantissaAt x.magnitude) (Single.exponentAt x.magnitude))
    refine ⟨n, ?_, ?_⟩
    · cases x.isNegative <;> simp [signText, htext]
    · rw [Single.Reads, if_neg hpos, hvalue]
      exact shortest_owns (Nat.pos_of_ne_zero hpos) hfinite _

theorem float_infinite {x : Single} (htop : x.magnitude = Single.top) :
    (float x).toList = signText x.isNegative ++ ['i', 'n', 'f'] ++ ['f'] := by
  rw [float, Single.value_eq, htop]
  cases x.isNegative <;> rfl

theorem float_nan {x : Single} (hnan : Single.top < x.magnitude) : float x = "NaNf" := by
  rw [float, Single.value_eq, if_neg (by omega), if_neg (by omega)]
  rfl

/-- What stands between the sign and the suffix. -/
theorem float_body {x : Single} (hx : x.isNaN = false) :
    ∃ body, (float x).toList = signText x.isNegative ++ body ++ ['f'] ∧
    ((∃ n : Numeral, body = n.text ∧ Single.Reads x.magnitude n.value) ∨
      (body = ['i', 'n', 'f'] ∧ x.magnitude = Single.top)) := by
  obtain hfinite | htop := (Single.magnitude_le hx).lt_or_eq
  · obtain ⟨n, htext, hreads⟩ := float_finite hfinite
    exact ⟨n.text, htext, .inl ⟨n, rfl, hreads⟩⟩
  · exact ⟨_, float_infinite htop, .inr ⟨rfl, htop⟩⟩

theorem signText_inj {a b : Bool} {r t : List Char} (hr : '-' ∉ r.head?) (ht : '-' ∉ t.head?)
    (h : signText a ++ r = signText b ++ t) : a = b ∧ r = t := by
  cases a <;> cases b
  · exact ⟨rfl, h⟩
  · exact absurd (by simp [show r = '-' :: t from h]) hr
  · exact absurd (by simp [show t = '-' :: r from h.symm]) ht
  · exact ⟨rfl, (List.cons.inj h).2⟩

/-- The text of a float tells it from all others, NaNs apart. -/
theorem float_injective {x y : Single} (hx : x.isNaN = false) (hy : y.isNaN = false)
    (h : float x = float y) : x = y := by
  obtain ⟨body, hbody, hkind⟩ := float_body hx
  obtain ⟨body', hbody', hkind'⟩ := float_body hy
  have hdigit : ∀ {n : Numeral} {c : Char}, c ∈ n.text.head? → c.isDigit = true := by
    intro n c hc
    obtain ⟨c', r, htext, hdigit⟩ := n.text_head
    rw [htext] at hc
    obtain rfl : c' = c := by simpa using hc
    exact hdigit
  have hunsigned : ∀ {body : List Char} {P : Numeral → Prop} {q : Prop},
      (∃ n : Numeral, body = n.text ∧ P n) ∨ (body = ['i', 'n', 'f'] ∧ q) → '-' ∉ body.head? := by
    rintro body P q (⟨n, rfl, -⟩ | ⟨rfl, -⟩) hminus
    · exact absurd (hdigit hminus) (by decide)
    · simp at hminus
  have htext := congrArg String.toList h
  rw [hbody, hbody'] at htext
  obtain ⟨hsign, rfl⟩ :=
    signText_inj (hunsigned hkind) (hunsigned hkind') (List.append_cancel_right htext)
  refine Single.ext_magnitude hsign ?_
  obtain ⟨n, rfl, hreads⟩ | ⟨rfl, htop⟩ := hkind
  · obtain ⟨n', heq, hreads'⟩ | ⟨heq, -⟩ := hkind'
    · rw [Numeral.text_injective heq] at hreads
      exact hreads.unique hreads'
    · exact absurd (hdigit (n := n) (c := 'i') (by simp [heq])) (by decide)
  · obtain ⟨n', heq, -⟩ | ⟨-, htop'⟩ := hkind'
    · exact absurd (hdigit (n := n') (c := 'i') (by simp [← heq])) (by decide)
    · rw [htop, htop']

/-- Characters of numbers. -/
def isNumberChar (c : Char) : Bool := c.isAlphanum || c == '.' || c == '-'

theorem isNumberChar_of_isDigit {c : Char} (h : c.isDigit = true) : isNumberChar c = true := by
  simp [isNumberChar, Char.isAlphanum, h]

theorem int_chars (i : Int32) : ∀ c ∈ (int i).toList, isNumberChar c = true := by
  intro c hc
  obtain hc | rfl := Text.int_chars hc
  · exact isNumberChar_of_isDigit hc
  · decide

theorem float_chars {x : Single} (hx : x.isNaN = false) :
    ∀ c ∈ (float x).toList, isNumberChar c = true := by
  obtain ⟨body, hbody, hkind⟩ := float_body hx
  have hmarks : ['.', 'e', '-'].all isNumberChar = true := by decide
  have hinf : ['i', 'n', 'f'].all isNumberChar = true := by decide
  intro c hc
  rw [hbody, List.mem_append, List.mem_append] at hc
  obtain (hc | hc) | hc := hc
  · cases hneg : x.isNegative <;> simp [hneg, signText] at hc
    subst hc
    decide
  · obtain ⟨n, rfl, -⟩ | ⟨rfl, -⟩ := hkind
    · obtain hc | hc := n.text_chars c hc
      · exact isNumberChar_of_isDigit hc
      · exact List.all_eq_true.mp hmarks c hc
    · exact List.all_eq_true.mp hinf c hc
  · obtain rfl : c = 'f' := by simpa using hc
    decide

theorem int_injective {i j : Int32} (h : int i = int j) : i = j :=
  Int32.toInt_inj.mp (Text.int_injective h)

def octalDigit? (c : Char) : Option Nat :=
  if '0' ≤ c ∧ c ≤ '7' then some (c.toNat - '0'.toNat) else none

/-- At most `n` more octal digits. -/
def readOctal : Nat → Nat → List Char → Nat × List Char
  | 0, value, rest => (value, rest)
  | _ + 1, value, [] => (value, [])
  | n + 1, value, c :: rest =>
    match octalDigit? c with
    | some digit => readOctal n (8 * value + digit) rest
    | none => (value, c :: rest)

/-- What stands behind a backslash, unless it is octal digits, and what it means. -/
def escapes : List (Char × Char) :=
  [('"', '"'), ('\\', '\\'), ('n', '\n'), ('r', '\r'), ('t', '\t')]

def readEscape : List Char → Option (Char × List Char)
  | [] => none
  | c :: rest =>
    match escapes.lookup c with
    | some meant => some (meant, rest)
    | none => (octalDigit? c).map fun digit => (readOctal 2 digit rest).map Char.ofNat id

/-- One character of a string literal, and what follows it. -/
def readChar : List Char → Option (Char × List Char)
  | [] => none
  | c :: rest => if c = '\\' then readEscape rest else some (c, rest)

theorem octalDigit?_ofNat {d : Nat} (h : d < 8) :
    octalDigit? (Char.ofNat ('0'.toNat + d)) = some d :=
  (by decide : ∀ d < 8, octalDigit? (Char.ofNat ('0'.toNat + d)) = some d) d h

theorem readChar_octal {n : Nat} (h : n < 64) (r : List Char) :
    readChar ('\\' :: octal n ++ r) = some (Char.ofNat n, r) := by
  have hzero : Char.ofNat ('0'.toNat + n / 64 % 8) = '0' := by
    rw [Nat.div_eq_of_lt h]
    rfl
  have hread : ∀ {a b : Nat}, a < 8 → b < 8 →
      readOctal 2 0 (Char.ofNat ('0'.toNat + a) :: Char.ofNat ('0'.toNat + b) :: r) =
          (8 * (8 * 0 + a) + b, r) := by
    intro a b ha hb
    simp only [readOctal, octalDigit?_ofNat ha, octalDigit?_ofNat hb]
  simp only [octal, List.map_cons, List.map_nil, hzero, List.cons_append, List.nil_append]
  change some ((readOctal 2 0 _).map Char.ofNat id) = _
  rw [hread (Nat.mod_lt _ (by decide)) (Nat.mod_lt _ (by decide)),
    show 8 * (8 * 0 + n / 8 % 8) + n % 8 = n by omega]
  rfl

theorem readChar_escape (c : Char) (r : List Char) : readChar (escape c ++ r) = some (c, r) := by
  unfold escape
  split
  case h_6 hquote hslash hn hr ht =>
    split
    · rw [readChar_octal (by omega), Char.ofNat_toNat]
    · exact if_neg hslash
  all_goals rfl

theorem escape_cons (c : Char) : ∃ first rest, escape c = first :: rest ∧ first ≠ '"' := by
  unfold escape
  split
  case h_6 hquote _ _ _ _ =>
    split
    · exact ⟨_, _, rfl, by decide⟩
    · exact ⟨_, _, rfl, hquote⟩
  all_goals exact ⟨_, _, rfl, by decide⟩

theorem readOctal_length (n value : Nat) (cs : List Char) :
    (readOctal n value cs).2.length ≤ cs.length := by
  fun_induction readOctal n value cs with
  | case3 n value c rest digit hdigit ih => exact ih.trans (by simp)
  | _ => exact Nat.le_refl _

theorem readChar_length {cs rest : List Char} {c : Char} (h : readChar cs = some (c, rest)) :
    rest.length < cs.length := by
  cases cs with
  | nil => cases h
  | cons first cs =>
    rw [readChar] at h
    split at h
    · cases cs with
      | nil => cases h
      | cons second cs =>
        rw [readEscape] at h
        split at h
        · cases h
          simp only [List.length_cons]
          omega
        · obtain ⟨digit, -, hread⟩ := Option.map_eq_some_iff.mp h
          obtain ⟨-, rfl⟩ := Prod.mk.inj hread
          have hlength := readOctal_length 2 digit cs
          simp only [id_eq, List.length_cons]
          omega
    · cases h
      simp

/-- Characters up to the quote that ends a literal, and what follows the quote. -/
def readUntilQuote (cs : List Char) : Option (List Char × List Char) :=
  if cs.head? = some '"' then some ([], cs.tail)
  else
    match _h : readChar cs with
    | none => none
    | some (c, rest) => (readUntilQuote rest).map fun read => (c :: read.1, read.2)
termination_by cs.length
decreasing_by exact readChar_length _h

/-- The string literal that a text starts with, and what follows it. -/
def readString? (text : String) : Option (String × String) :=
  match text.toList with
  | '"' :: rest =>
    (readUntilQuote rest).map fun read => (String.ofList read.1, String.ofList read.2)
  | _ => none

theorem readUntilQuote_escape (cs r : List Char) :
    readUntilQuote (cs.flatMap escape ++ '"' :: r) = some (cs, r) := by
  induction cs with
  | nil => simp [readUntilQuote]
  | cons c cs ih =>
    -- No escape starts with the quote that ends the string.
    obtain ⟨first, rest, hfirst, hne⟩ := escape_cons c
    have hread := readChar_escape c (cs.flatMap escape ++ '"' :: r)
    rw [List.flatMap_cons, List.append_assoc, readUntilQuote, if_neg (by simp [hfirst, hne])]
    split
    · next hnone => cases hread.symm.trans hnone
    · next c' rest' hsome =>
      cases hread.symm.trans hsome
      rw [ih]
      rfl

/-- A string literal is read back, and nothing of what follows it. -/
theorem readString?_quote (s r : String) : readString? (quote s ++ r) = some (s, r) := by
  have htext : (quote s ++ r).toList = '"' :: (s.toList.flatMap escape ++ '"' :: r.toList) := by
    simp [quote, String.toList_append]
  rw [readString?, htext]
  simp [readUntilQuote_escape]

/-- A string literal shows where it ends and which string it is. -/
theorem quote_append_inj {s s' : String} {r t : List Char}
    (h : (quote s).toList ++ r = (quote s').toList ++ t) :
    s = s' ∧ r = t := by
  have htext : quote s ++ String.ofList r = quote s' ++ String.ofList t := by
    apply String.toList_inj.mp
    simpa [String.toList_append] using h
  have hread := readString?_quote s (String.ofList r)
  rw [htext, readString?_quote] at hread
  obtain ⟨hs, hr⟩ := Prod.mk.inj (Option.some.inj hread)
  exact ⟨hs.symm, String.ofList_injective hr.symm⟩

end Cpp

end DeviceModel
