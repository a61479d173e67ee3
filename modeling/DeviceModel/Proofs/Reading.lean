import DeviceModel.Description.Decode
import Mathlib.Data.List.Forall2
import Mathlib.Data.List.Nodup

namespace DeviceModel.Document

/-- The reading gives this, if enough references may be followed. -/
def Gives {α : Type} (x : Read α) (a : α) : Prop := ∃ s s', x.run s = some (a, s')

section Gives

variable {α β : Type}

theorem gives_bind {x : Read α} {f : α → Read β} {b : β} (h : Gives (x >>= f) b) :
    ∃ a, Gives x a ∧ Gives (f a) b := by
  obtain ⟨s, s', h⟩ := h
  rw [StateT.run_bind] at h
  obtain ⟨⟨a, t⟩, hx, hf⟩ := Option.bind_eq_some_iff.mp h
  exact ⟨a, ⟨s, t, hx⟩, t, s', hf⟩

theorem gives_pure {a b : α} (h : Gives (pure a) b) : b = a := by
  obtain ⟨s, s', h⟩ := h
  cases h
  rfl

theorem gives_lift {o : Option α} {a : α} (h : Gives (liftM o) a) : o = some a := by
  obtain ⟨s, s', h⟩ := h
  cases o with
  | none => cases h
  | some b =>
    cases h
    rfl

/-- What is read from the start of a document is read. -/
theorem gives_of_run' {x : Read α} {s : Nat} {a : α} (h : x.run' s = some a) : Gives x a := by
  obtain ⟨⟨b, s'⟩, hx, rfl⟩ :=
    Option.map_eq_some_iff.mp (show Option.map Prod.fst (x.run s) = some a from h)
  exact ⟨s, s', hx⟩

theorem not_gives_failure {a : α} : ¬ Gives failure a := by
  rintro ⟨s, s', h⟩
  cases h

theorem gives_mapM {f : α → Read β} {as : List α} {bs : List β} (h : Gives (as.mapM f) bs) :
    List.Forall₂ (fun a b => Gives (f a) b) as bs := by
  induction as generalizing bs with
  | nil =>
    rw [gives_pure h]
    exact .nil
  | cons a rest ih =>
    rw [List.mapM_cons] at h
    obtain ⟨b, hb, h⟩ := gives_bind h
    obtain ⟨bs', hbs, h⟩ := gives_bind h
    rw [gives_pure h]
    exact .cons hb (ih hbs)

end Gives

/-- The node that is read in the place of another. -/
def Tree.target? (t : Tree) : Node → Option Node
  | .reference number => t.numbered[number]?
  | n => some n

/-- What a key spells. -/
def Tree.key? (t : Tree) (k : Node) : Option String := (t.target? k).bind Node.string?

section Following

variable {t : Tree}

theorem follow_gives {p q : Spot} (h : Gives p.follow q) :
    ∃ n, p.tree.target? p.node = some n ∧ q = p.move n := by
  unfold Spot.follow at h
  split at h
  · next number hnode =>
    obtain ⟨left, _, h⟩ := gives_bind h
    cases left with
    | zero => exact absurd h not_gives_failure
    | succ left =>
      obtain ⟨_, _, h⟩ := gives_bind h
      obtain ⟨n, hn, h⟩ := gives_bind h
      rw [gives_pure h]
      exact ⟨n, by rw [hnode]; exact gives_lift hn, rfl⟩
  · next hnode =>
    rw [gives_pure h]
    refine ⟨p.node, ?_, rfl⟩
    unfold Tree.target?
    split
    · next number hnumber => exact absurd hnumber (hnode number)
    · rfl

theorem tree_follow_gives {n n' : Node} (h : Gives (t.follow n) n') : t.target? n = some n' := by
  obtain ⟨p, hp, h⟩ := gives_bind h
  obtain ⟨m, hm, rfl⟩ := follow_gives hp
  rw [gives_pure h]
  exact hm

end Following

/-- The node can be read as this JSON value. -/
def Reads (t : Tree) (n : Node) (v : Json) : Prop := ∃ levels, Gives (t.toJson levels n) v

/-- Members of an object come from entries of a map: every key is there, and what is under it is the
value of an entry with the key. -/
structure Members (t : Tree) (pairs : List (Node × Node)) (members : List (String × Json)) :
    Prop where
  keys : ∀ e ∈ pairs, ∃ key, t.key? e.1 = some key ∧ (members.lookup key).isSome
  values : ∀ key v, members.lookup key = some v → ∃ e ∈ pairs, t.key? e.1 = some key ∧ Reads t e.2 v

theorem lookup_cons_eq {α : Type} (k : String) (a : α) (rest : List (String × α)) (name : String) :
    ((k, a) :: rest).lookup name = if name = k then some a else rest.lookup name := by
  rw [List.lookup_cons]
  by_cases hname : name = k
  · simp [hname]
  · simp [hname, beq_false_of_ne hname]

/-- A member that is set is found under its key, and all others as before. -/
theorem lookup_setMember (members : List (String × Json)) (key : String) (v : Json)
    (name : String) :
    (Json.setMember members key v).lookup name = if name =
      key then some v else members.lookup name := by
  unfold Json.setMember
  induction members with
  | nil => simp [lookup_cons_eq]
  | cons m rest ih =>
    obtain ⟨k, w⟩ := m
    by_cases hk : k = key
    · have hrest : name ≠ key →
          (rest.map fun m => if m.1 = key then (key, v) else m).lookup name = rest.lookup name := by
        intro hname
        clear ih
        induction rest with
        | nil => rfl
        | cons m rest ih =>
          obtain ⟨k', w'⟩ := m
          by_cases hk' : k' = key
          · simp [lookup_cons_eq, hk', hname, ih]
          · simp [lookup_cons_eq, hk', ih]
      by_cases hname : name = key
      · simp [hk, hname]
      · simp [lookup_cons_eq, hk, hname, hrest]
    · have hany : ((k, w) :: rest).any (·.1 == key) = rest.any (·.1 == key) := by simp [hk]
      have hswap : (if name = k then some w else if name = key then some v else rest.lookup name) =
          if name = key then some v else if name = k then some w else rest.lookup name := by
        by_cases hname : name = k
        · simp [hname, hk]
        · simp [hname]
      rw [hany, lookup_cons_eq, ← hswap, ← ih]
      split
      · simp only [List.map_cons, if_neg hk, lookup_cons_eq]
      · simp only [List.cons_append, lookup_cons_eq]

section Objects

variable {t : Tree} {levels : Nat}

theorem foldlM_members {pairs : List (Node × Node)} {before members : List (String × Json)}
    (h : Gives (pairs.foldlM (fun members (k, v) => do
      return Json.setMember members (← (← t.follow k).string?) (← t.toJson levels v)) before)
      members) :
    (∀ key, (before.lookup key).isSome → (members.lookup key).isSome) ∧
      (∀ e ∈ pairs, ∃ key, t.key? e.1 = some key ∧ (members.lookup key).isSome) ∧
      ∀ key v, members.lookup key = some v →
        before.lookup key = some v ∨ ∃ e ∈ pairs, t.key? e.1 = some key ∧ Reads t e.2 v := by
  induction pairs generalizing before with
  | nil =>
    rw [gives_pure h]
    simp
  | cons e rest ih =>
    rw [List.foldlM_cons] at h
    obtain ⟨between, hbetween, h⟩ := gives_bind h
    obtain ⟨k, hk, hbetween⟩ := gives_bind hbetween
    obtain ⟨key, hkey, hbetween⟩ := gives_bind hbetween
    obtain ⟨v, hv, hbetween⟩ := gives_bind hbetween
    have hkey' : t.key? e.1 = some key := by
      rw [Tree.key?, tree_follow_gives hk, Option.bind_some]
      exact gives_lift hkey
    rw [gives_pure hbetween] at h
    obtain ⟨hbefore, hkeys, hvalues⟩ := ih h
    refine ⟨?_, ?_, ?_⟩
    · intro name hname
      apply hbefore
      rw [lookup_setMember]
      split <;> simp_all
    · intro e' he'
      rcases List.mem_cons.mp he' with rfl | he'
      · exact ⟨key, hkey', hbefore key (by simp [lookup_setMember])⟩
      · exact hkeys e' he'
    · intro name w hw
      rcases hvalues name w hw with hold | ⟨e', he', hnew⟩
      · rw [lookup_setMember] at hold
        split at hold
        · next heq =>
          cases hold
          exact .inr ⟨e, List.mem_cons_self .., heq ▸ hkey', levels, hv⟩
        · exact .inl hold
      · exact .inr ⟨e', List.mem_cons_of_mem _ he', hnew⟩

/-- Only a map is read as an object. -/
theorem Reads.object {n : Node} {members : List (String × Json)} (h : Reads t n (.object members)) :
    ∃ pairs, t.target? n = some (.map pairs) ∧ Members t pairs members := by
  have hatom : ∀ a : Atom, a.toJson? ≠ some (.object members) := by
    intro a ha
    unfold Atom.toJson? at ha
    split at ha
    · cases ha
    · split at ha <;> try cases ha
      split at ha <;> cases ha
  obtain ⟨levels, h⟩ := h
  cases levels with
  | zero =>
    obtain ⟨m, _, h⟩ := gives_bind h
    obtain ⟨a, _, ha⟩ := Option.bind_eq_some_iff.mp (gives_lift h)
    exact absurd ha (hatom a)
  | succ levels =>
    obtain ⟨m, hm, h⟩ := gives_bind h
    split at h
    · obtain ⟨a, _, ha⟩ := Option.bind_eq_some_iff.mp (gives_lift h)
      exact absurd ha (hatom a)
    · obtain ⟨items, _, h⟩ := gives_bind h
      cases gives_pure h
    · next pairs =>
      obtain ⟨members', hmembers, h⟩ := gives_bind h
      cases gives_pure h
      obtain ⟨_, hkeys, hvalues⟩ := foldlM_members hmembers
      refine ⟨pairs, tree_follow_gives hm, hkeys, ?_⟩
      intro key v hv
      exact (hvalues key v hv).resolve_left (by simp)
    · exact absurd h not_gives_failure

end Objects

namespace Decode

section Records

variable {names : List (List String)} {p below : Spot}

/-- Which of the named things an entry is for. -/
def entryPosition? (t : Tree) (names : List (List String)) (e : Node × Node) :
    Option (Option Nat) :=
  (t.target? e.1).bind (position? names)

theorem fill_gives {slots slots' : List (Option Spot)} {e : Node × Node}
    (h : Gives (fill names below slots e) slots') :
    (entryPosition? below.tree names e = some none ∧ slots' = slots) ∨
      ∃ j, entryPosition? below.tree names e = some (some j) ∧ slots[j]? = some none ∧
        slots' = slots.set j (some (below.move e.2)) := by
  obtain ⟨q, hq, h⟩ := gives_bind h
  obtain ⟨n, hn, rfl⟩ := follow_gives hq
  obtain ⟨position, hposition, h⟩ := gives_bind h
  have hentry : entryPosition? below.tree names e = some position := by
    rw [entryPosition?, show below.tree.target? e.1 = some n from hn, Option.bind_some]
    exact gives_lift hposition
  cases position with
  | none => exact .inl ⟨hentry, gives_pure h⟩
  | some j =>
    right
    have hplace := gives_lift h
    unfold place? at hplace
    split at hplace
    · next hfree =>
      cases hplace
      exact ⟨j, hentry, hfree, rfl⟩
    · cases hplace

/-- A slot is filled by the only entry that is for it. -/
theorem foldlM_fill {pairs : List (Node × Node)} {before slots : List (Option Spot)}
    (h : Gives (pairs.foldlM (fill names below) before) slots) {i : Nat} {q : Spot}
    (hq : slots[i]? = some (some q)) :
    (before[i]? = some (some q) ∧ ∀ e ∈ pairs, entryPosition? below.tree names e ≠ some (some i)) ∨
      (before[i]? = some none ∧ ∃ e ∈ pairs, entryPosition? below.tree names e = some (some i) ∧
        q = below.move e.2 ∧
        ∀ e' ∈ pairs, entryPosition? below.tree names e' = some (some i) → e' = e) := by
  induction pairs generalizing before with
  | nil =>
    rw [gives_pure h] at hq
    exact .inl ⟨hq, by simp⟩
  | cons e rest ih =>
    rw [List.foldlM_cons] at h
    obtain ⟨between, hbetween, h⟩ := gives_bind h
    have hrest := ih h
    rcases fill_gives hbetween with ⟨hskipped, rfl⟩ | ⟨j, hj, hfree, rfl⟩
    · have hne : entryPosition? below.tree names e ≠ some (some i) := by simp [hskipped]
      rcases hrest with ⟨hold, hnone⟩ | ⟨hold, e', he', hposition, rfl, honly⟩
      · exact .inl ⟨hold, by simpa [hne] using hnone⟩
      · exact .inr
          ⟨hold, e', List.mem_cons_of_mem _ he', hposition, rfl, by simpa [hne] using honly⟩
    · by_cases hij : i = j
      · subst hij
        have hlt := (List.getElem?_eq_some_iff.mp hfree).1
        have hset : (before.set i (some (below.move e.2)))[i]? =
            some (some (below.move e.2)) := by simp [hlt]
        rcases hrest with ⟨hnew, hnone⟩ | ⟨hold, _⟩
        · have hq' : q = below.move e.2 := Option.some.inj (Option.some.inj (hnew.symm.trans hset))
          refine .inr ⟨hfree, e, List.mem_cons_self .., hj, hq', ?_⟩
          intro e' he' hposition
          rcases List.mem_cons.mp he' with rfl | he'
          · rfl
          · exact absurd hposition (hnone e' he')
        · cases hset.symm.trans hold
      · have hset : (before.set j (some (below.move e.2)))[i]? = before[i]? := by
          rw [List.getElem?_set_ne (Ne.symm hij)]
        have hne : entryPosition? below.tree names e ≠ some (some i) := by
          rw [hj]
          intro heq
          exact hij (Option.some.inj (Option.some.inj heq)).symm
        rw [hset] at hrest
        rcases hrest with ⟨hold, hnone⟩ | ⟨hold, e', he', hposition, rfl, honly⟩
        · exact .inl ⟨hold, by simpa [hne] using hnone⟩
        · exact .inr
            ⟨hold, e', List.mem_cons_of_mem _ he', hposition, rfl, by simpa [hne] using honly⟩

/-- A key that is read as a string is looked for by its text. -/
theorem entryPosition?_eq {t : Tree} {e : Node × Node} {key : String} (h : t.key? e.1 = some key) :
    entryPosition? t names e = some (names.findIdx? (·.contains key)) := by
  obtain ⟨n, hn, hkey⟩ := Option.bind_eq_some_iff.mp h
  rw [entryPosition?, hn, Option.bind_some]
  unfold position?
  split
  · cases hkey
  · rw [hkey, Option.map_some]

theorem below?_tree {p q : Spot} (h : p.below? = some q) : q.tree = p.tree := by
  unfold Spot.below? at h
  split at h <;> cases h
  rfl

/-- Different names are found by their own texts. -/
theorem findIdx?_name {names : List String} (hnames : names.Nodup) {i : Nat} {name : String}
    (hi : names[i]? = some name) (key : String) :
    (names.map ([·])).findIdx? (·.contains key) = some i ↔ key = name := by
  obtain ⟨hlt, rfl⟩ := List.getElem?_eq_some_iff.mp hi
  rw [List.findIdx?_map, List.findIdx?_eq_some_iff_getElem]
  simp only [Function.comp_apply, List.contains_cons, List.contains_nil, Bool.or_false, beq_iff_eq]
  constructor
  · rintro ⟨_, hkey, _⟩
    exact hkey
  · rintro rfl
    refine ⟨hlt, rfl, ?_⟩
    intro j hj heq
    have hsame := (List.Nodup.getElem_inj_iff hnames).mp heq
    omega

/-- A field of a record is the member of that name. -/
theorem fields_reads {names : List String} (hnames : names.Nodup) {slots : List (Option Spot)}
    (h : Gives (fields names p) slots) {members : List (String × Json)}
    (hobject : Reads p.tree p.node (.object members)) {i : Nat} {name : String}
    (hi : names[i]? = some name) {q : Spot} (hq : slots[i]? = some (some q)) :
    q.tree = p.tree ∧ ∃ v, members.lookup name = some v ∧ Reads q.tree q.node v := by
  obtain ⟨pairs, hpairs, hmembers⟩ := hobject.object
  obtain ⟨p', hp', h⟩ := gives_bind h
  obtain ⟨n, hn, rfl⟩ := follow_gives hp'
  cases hpairs.symm.trans hn
  obtain ⟨below, hbelow, h⟩ := gives_bind h
  have htree : below.tree = (p.move (.map pairs)).tree := below?_tree (gives_lift hbelow)
  change below.tree = p.tree at htree
  rcases foldlM_fill h hq with ⟨hold, _⟩ | ⟨_, e, he, hposition, rfl, honly⟩
  · obtain ⟨_, _, hnone⟩ := List.mem_map.mp (List.mem_of_getElem? hold)
    cases hnone
  · rw [htree] at hposition honly
    have hfor : ∀ {e : Node × Node} {key : String}, p.tree.key? e.1 = some key →
        (entryPosition? p.tree (names.map ([·])) e = some (some i) ↔ key = name) := by
      intro e key hkey
      rw [entryPosition?_eq hkey, Option.some.injEq]
      exact findIdx?_name hnames hi key
    obtain ⟨key, hkey, hsome⟩ := hmembers.keys e he
    cases (hfor hkey).mp hposition
    obtain ⟨v, hv⟩ := Option.isSome_iff_exists.mp hsome
    obtain ⟨e', he', hkey', hreads⟩ := hmembers.values name v hv
    cases honly e' he' ((hfor hkey').mpr rfl)
    refine ⟨htree, v, hv, ?_⟩
    rw [show (below.move e.2).tree = p.tree from htree]
    exact hreads

/-- Entries are under keys of the object. Where no key is repeated, each is read from the value
under its key. -/
theorem entries_reads {α : Type} {value : Decoder α} {es : Entries α}
    (h : Gives (entries value p) es) {members : List (String × Json)}
    (hobject : Reads p.tree p.node (.object members)) {e : String × α} (he : e ∈ es) :
    (members.lookup e.1).isSome ∧ ((es.map Prod.fst).Nodup →
      ∃ q v, Gives (value q) e.2 ∧ members.lookup e.1 = some v ∧ Reads q.tree q.node v) := by
  obtain ⟨pairs, hpairs, hmembers⟩ := hobject.object
  obtain ⟨p', hp', h⟩ := gives_bind h
  obtain ⟨n, hn, rfl⟩ := follow_gives hp'
  cases hpairs.symm.trans hn
  obtain ⟨below, hbelow, h⟩ := gives_bind h
  have htree : below.tree = (p.move (.map pairs)).tree := below?_tree (gives_lift hbelow)
  change below.tree = p.tree at htree
  have heach : List.Forall₂
      (fun pair e => p.tree.key? pair.1 = some e.1 ∧ Gives (value (below.move pair.2)) e.2)
        pairs es := by
    refine (gives_mapM h).imp ?_
    intro pair e' hpair
    obtain ⟨key, hkey, hpair⟩ := gives_bind hpair
    obtain ⟨k, hk, hkey⟩ := gives_bind hkey
    obtain ⟨n, hn, rfl⟩ := follow_gives hk
    obtain ⟨a, ha, hpair⟩ := gives_bind hpair
    rw [gives_pure hpair, Tree.key?, ← htree, show below.tree.target? pair.1 = some n from hn]
    exact ⟨gives_lift hkey, ha⟩
  obtain ⟨i, hi, rfl⟩ := List.getElem_of_mem he
  have hlength := heach.length_eq
  have hpair := heach.get (hlength ▸ hi) hi
  simp only [List.get_eq_getElem] at hpair
  obtain ⟨key, hkey, hsome⟩ := hmembers.keys pairs[i] (List.getElem_mem _)
  cases hkey.symm.trans hpair.1
  refine ⟨hsome, ?_⟩
  intro hdistinct
  obtain ⟨v, hv⟩ := Option.isSome_iff_exists.mp hsome
  obtain ⟨pair', hpair', hkey', hreads⟩ := hmembers.values _ v hv
  obtain ⟨j, hj, rfl⟩ := List.getElem_of_mem hpair'
  have hother := heach.get hj (hlength ▸ hj)
  simp only [List.get_eq_getElem] at hother
  have hkeys : es[i].1 = es[j].1 := Option.some.inj (hkey'.symm.trans hother.1)
  have hi' : i < (es.map Prod.fst).length := by rwa [List.length_map]
  have hj' : j < (es.map Prod.fst).length := by rwa [List.length_map, ← hlength]
  have hfirst : (es.map Prod.fst)[i] = (es.map Prod.fst)[j] := by
    rwa [List.getElem_map, List.getElem_map]
  cases (List.Nodup.getElem_inj_iff hdistinct).mp hfirst
  refine ⟨_, v, hpair.2, hv, ?_⟩
  rw [show (below.move pairs[i].2).tree = p.tree from htree]
  exact hreads

end Records

end Decode

end DeviceModel.Document
