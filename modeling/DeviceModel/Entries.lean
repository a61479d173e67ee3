namespace DeviceModel

/-- Values under names, in the order they were written. A name may be repeated. -/
abbrev Entries (α : Type) := List (String × α)

/-- The first item that is among those before it. -/
def firstRepeat? [BEq α] (seen : List α) : List α → Option α
  | [] => none
  | a :: rest => if seen.contains a then some a else firstRepeat? (a :: seen) rest

/-- What is found under a key has that key among the keys. -/
theorem mem_keys_of_lookup [BEq α] [LawfulBEq α] {k : α} {v : β} :
    ∀ {entries : List (α × β)}, entries.lookup k = some v → k ∈ entries.map Prod.fst
  | (a, b) :: rest, h => by
    rw [List.lookup_cons] at h
    split at h
    · next hk => simp [eq_of_beq hk]
    · exact List.mem_cons_of_mem _ (mem_keys_of_lookup h)

/-- Where nothing repeats, all are different from one another and from what was seen. -/
theorem nodup_of_firstRepeat? [BEq α] [LawfulBEq α] {seen items : List α}
    (h : firstRepeat? seen items = none) :
    items.Nodup ∧ ∀ a ∈ items, a ∉ seen := by
  induction items generalizing seen with
  | nil => simp
  | cons a rest ih =>
    unfold firstRepeat? at h
    split at h
    · cases h
    · next hseen =>
      obtain ⟨hnodup, hrest⟩ := ih h
      have ha : a ∉ rest := fun hm => hrest a hm (List.mem_cons_self ..)
      refine ⟨List.nodup_cons.mpr ⟨ha, hnodup⟩, fun b hb hm => ?_⟩
      rcases List.mem_cons.mp hb with rfl | hb
      · exact hseen (List.contains_iff_mem.mpr hm)
      · exact hrest b hb (List.mem_cons_of_mem _ hm)

/-- Nothing repeats where all are different from one another and from what was seen. -/
theorem firstRepeat?_eq_none [BEq α] [LawfulBEq α] {seen items : List α} (hnodup : items.Nodup)
    (hnew : ∀ a ∈ items, a ∉ seen) : firstRepeat? seen items = none := by
  induction items generalizing seen with
  | nil => rfl
  | cons a rest ih =>
    obtain ⟨ha, hrest⟩ := List.nodup_cons.mp hnodup
    have hseen : seen.contains a = false := by
      rw [Bool.eq_false_iff]
      exact fun hc => hnew a List.mem_cons_self (List.contains_iff_mem.mp hc)
    rw [firstRepeat?, hseen]
    refine ih hrest ?_
    intro b hb hm
    rcases List.mem_cons.mp hm with rfl | hm
    · exact ha hb
    · exact hnew b (List.mem_cons_of_mem _ hb) hm

namespace Entries

def keys (e : Entries α) : List String := e.map Prod.fst

def get? (e : Entries α) (key : String) : Option α := e.lookup key

/-- The name whose second use comes first. -/
def duplicate? (e : Entries α) : Option String := firstRepeat? [] (keys e)

theorem keys_nodup {e : Entries α} (h : e.duplicate? = none) : (e.map Prod.fst).Nodup :=
  (nodup_of_firstRepeat? h).1

end Entries

/-- Text by language. -/
abbrev Polyglot := Entries String

end DeviceModel
