import DeviceModel.Proofs.HeaderOrder

namespace DeviceModel.Cpp

open Resolve

/-- A name in a scope, and the way to what it stands for. -/
structure Bound where
  scope : List String
  name : String
  path : List String
  deriving DecidableEq, Repr

/-- The names that a line brings into scope. A struct has its own name in it too. -/
def Written.binds (w : Written) : List Bound :=
  match w.opens with
  | some (name, block) =>
    ⟨w.nest, name, w.nest ++ [name]⟩ ::
      match block with
      | .holder false => []
      | _ => [⟨w.nest ++ [name], name, w.nest ++ [name]⟩]
  | none =>
    match w.completes with
    | some c => [⟨w.nest, c.name, w.nest ++ [c.name]⟩]
    | none => []

def bindings (ws : List Written) : List Bound := ws.flatMap Written.binds

/-- What a name stands for in a scope, after some lines. -/
def meanings (ws : List Written) (scope : List String) (name : String) : List (List String) :=
  ((bindings ws).filter fun b => b.scope = scope && b.name = name).map Bound.path

/-- The one meaning, unless there are two. -/
def sole : List (List String) → Option (List String)
  | [] => none
  | p :: rest => if rest.all (· = p) then some p else none

/-- The scopes around a place, from the innermost outwards; blocks are given in that order. -/
def scopesOut : List String → List (List String)
  | [] => [[]]
  | name :: outer => (name :: outer).reverse :: scopesOut outer

/-- A plain name stands for what it is in the first scope that has it. -/
def unqualified (ws : List Written) (name : String) : List (List String) → Option (List String)
  | [] => none
  | scope :: outer =>
    if meanings ws scope name = [] then unqualified ws name outer else sole (meanings ws scope name)

/-- Further parts are names declared in what was found. A struct's own name in it is its
constructor. -/
def qualified (ws : List Written) : List String → List String → Option (List String)
  | scope, [] => some scope
  | scope, name :: rest =>
    if sole (meanings ws scope name) =
      some (scope ++ [name]) then qualified ws (scope ++ [name]) rest
    else none

/-- What a name with several parts stands for, inside the given blocks and after some lines. -/
def lookup (ws : List Written) (nest : List String) : List String → Option (List String)
  | [] => none
  | name :: rest =>
    (unqualified ws name (scopesOut nest.reverse)).bind fun scope => qualified ws scope rest

/-- Every part of the way is declared in what the parts before it lead to. -/
def Reached (bound : List Bound) (path : List String) : Prop :=
  ∀ scope name rest, path = scope ++ name :: rest → ⟨scope, name, scope ++ [name]⟩ ∈ bound

/-- A block around, inside the namespace, holds the name for something else. -/
def Shadowed (ws : List Written) (nest : List String) (name : String) : Prop :=
  ∃ b ∈ bindings ws, b.scope ≠ [] ∧ b.scope <+: nest ∧ b.name = name ∧ b.path ≠ [name]

/-- A struct on the way has the name of what comes next. -/
def Doubled (ws : List Written) (path : List String) : Prop :=
  ∃ scope name rest, path = scope ++ name :: rest ∧ ⟨scope, name, scope⟩ ∈ bindings ws

section Meanings

variable {ws : List Written} {scope : List String} {name : String}

theorem mem_meanings {path : List String} :
    path ∈ meanings ws scope name ↔ ⟨scope, name, path⟩ ∈ bindings ws := by
  simp only [meanings, List.mem_map, List.mem_filter, Bool.and_eq_true, decide_eq_true_eq]
  constructor
  · rintro ⟨⟨_, _, _⟩, ⟨hb, rfl, rfl⟩, rfl⟩
    exact hb
  · intro hb
    exact ⟨_, ⟨hb, rfl, rfl⟩, rfl⟩

/-- A name stands for something declared in its scope, or for the scope itself. -/
theorem path_of_mem {b : Bound} (h : b ∈ bindings ws) :
    b.path = b.scope ++ [b.name] ∨ b.path = b.scope ∧ b.scope ≠ [] := by
  obtain ⟨w, _, hb⟩ := List.mem_flatMap.mp h
  unfold Written.binds at hb
  split at hb
  · next name block _ =>
    rcases List.mem_cons.mp hb with rfl | hb
    · exact .inl rfl
    · split at hb
      · simp at hb
      · rw [List.mem_singleton.mp hb]
        exact .inr ⟨rfl, by simp⟩
  · split at hb
    · rw [List.mem_singleton.mp hb]
      exact .inl rfl
    · simp at hb

theorem sole_eq_some_iff {ps : List (List String)} {p : List String} :
    sole ps = some p ↔ p ∈ ps ∧ ∀ q ∈ ps, q = p := by
  cases ps with
  | nil => simp [sole]
  | cons q rest =>
    rw [sole]
    split
    · next hall =>
      have heq : ∀ r ∈ rest, r = q := by simpa using hall
      simp only [Option.some.injEq, List.mem_cons, forall_eq_or_imp]
      constructor
      · rintro rfl
        exact ⟨.inl rfl, rfl, heq⟩
      · rintro ⟨_, hq, _⟩
        exact hq
    · next hall =>
      simp only [reduceCtorEq, List.mem_cons, forall_eq_or_imp, false_iff, not_and]
      rintro _ rfl hrest
      exact hall (by simpa using hrest)

/-- In the namespace itself a name stands for what is declared there. -/
theorem sole_outermost (h : ⟨[], name, [name]⟩ ∈ bindings ws) :
    sole (meanings ws [] name) = some [name] := by
  rw [sole_eq_some_iff]
  refine ⟨mem_meanings.mpr h, fun path hp => ?_⟩
  rcases path_of_mem (mem_meanings.mp hp) with he | ⟨_, hne⟩
  · exact he
  · exact absurd rfl hne

/-- A name that a scope declares is found in it, unless the scope is a struct of that name. -/
theorem sole_declared_iff (h : ⟨scope, name, scope ++ [name]⟩ ∈ bindings ws) :
    sole (meanings ws scope name) = some (scope ++ [name]) ↔
      ⟨scope, name, scope⟩ ∉ bindings ws := by
  rw [sole_eq_some_iff]
  constructor
  · rintro ⟨_, hall⟩ hown
    have he := hall scope (mem_meanings.mpr hown)
    simp at he
  · intro hown
    refine ⟨mem_meanings.mpr h, fun path hp => ?_⟩
    rcases path_of_mem (mem_meanings.mp hp) with he | ⟨he, _⟩
    · exact he
    · simp only at he
      subst he
      exact absurd (mem_meanings.mp hp) hown

/-- What is declared all the way is found, unless a struct has the name of what comes next. -/
theorem qualified_eq_iff {path : List String} :
    (∀ inner name rest, path = inner ++ name :: rest →
      ⟨scope ++ inner, name, scope ++ inner ++ [name]⟩ ∈ bindings ws) →
    (qualified ws scope path = some (scope ++ path) ↔
      ∀ inner name rest, path = inner ++ name :: rest →
        ⟨scope ++ inner, name, scope ++ inner⟩ ∉ bindings ws) := by
  induction path generalizing scope with
  | nil =>
    intro _
    simp [qualified]
  | cons first path ih =>
    intro declared
    have hfirst := sole_declared_iff (declared [] first path rfl)
    rw [List.append_nil] at hfirst
    have hinner : ∀ inner name rest, path = inner ++ name :: rest →
        ⟨scope ++ [first] ++ inner, name, scope ++ [first] ++ inner ++ [name]⟩ ∈ bindings ws := by
      intro inner name rest he
      simpa using declared (first :: inner) name rest (by rw [he]; rfl)
    have hsplit : scope ++ first :: path = scope ++ [first] ++ path := by simp
    rw [qualified]
    by_cases hown : ⟨scope, first, scope⟩ ∈ bindings ws
    · rw [if_neg (fun h => hfirst.mp h hown)]
      simp only [reduceCtorEq, false_iff]
      intro h
      exact h [] first path rfl (by simpa using hown)
    · rw [if_pos (hfirst.mpr hown), hsplit, ih hinner]
      constructor
      · rintro h (_ | ⟨x, inner⟩) name rest he
        · cases he
          simpa using hown
        · cases he
          simpa using h inner name rest rfl
      · intro h inner name rest he
        simpa using h (first :: inner) name rest (by rw [he]; rfl)

/-- The first part is found in the namespace, unless a block on the way out holds it too. -/
theorem unqualified_eq_iff {nest : List String} (h : ⟨[], name, [name]⟩ ∈ bindings ws) :
    unqualified ws name (scopesOut nest.reverse) = some [name] ↔ ¬ Shadowed ws nest name := by
  generalize hout : nest.reverse = out
  induction out generalizing nest with
  | nil =>
    cases List.reverse_eq_nil_iff.mp hout
    have hsole := sole_outermost h
    have hne : meanings ws [] name ≠ [] := by
      intro he
      simp [he, sole] at hsole
    simp only [scopesOut, unqualified, if_neg hne, hsole, true_iff]
    rintro ⟨b, _, hscope, hin, _⟩
    exact hscope (List.prefix_nil.mp hin)
  | cons inner outer ih =>
    have hnest : nest = outer.reverse ++ [inner] := by
      rw [← List.reverse_reverse nest, hout, List.reverse_cons]
    have hne : nest ≠ [] := by simp [hnest]
    rw [scopesOut, ← hout, List.reverse_reverse, unqualified]
    by_cases hnone : meanings ws nest name = []
    · rw [if_pos hnone, ih (List.reverse_reverse outer)]
      -- The innermost block does not hold the name, so only those around it matter.
      refine not_congr ⟨?_, ?_⟩
      · rintro ⟨b, hb, hscope, hin, hname⟩
        exact ⟨b, hb, hscope, hin.trans (hnest ▸ List.prefix_append _ _), hname⟩
      · rintro ⟨b, hb, hscope, hin, hname, hpath⟩
        rw [hnest, List.prefix_concat_iff, ← hnest] at hin
        rcases hin with he | hin
        · have hm : b.path ∈ meanings ws nest name :=
            mem_meanings.mpr (by rw [← he, ← hname]; exact hb)
          rw [hnone] at hm
          cases hm
        · exact ⟨b, hb, hscope, hin, hname, hpath⟩
    · rw [if_neg hnone, sole_eq_some_iff]
      constructor
      · rintro ⟨hm, hall⟩ ⟨b, hb, hscope, hin, hname, hpath⟩
        -- Only a struct of that name, right in the namespace, holds the name for itself.
        have hone : nest = [name] := by
          rcases path_of_mem (mem_meanings.mp hm) with he | ⟨he, _⟩
          · have hlength := congrArg List.length he
            simp [hne] at hlength
          · exact he.symm
        have hsame : b.scope = nest := by
          rw [hone, ← List.nil_append [name], List.prefix_concat_iff, List.nil_append,
            ← hone] at hin
          exact hin.resolve_right fun hin => hscope (List.prefix_nil.mp hin)
        exact hpath (hall b.path (mem_meanings.mpr (by rw [← hsame, ← hname]; exact hb)))
      · intro hfree
        have hall : ∀ q ∈ meanings ws nest name, q = [name] := by
          intro q hq
          refine Decidable.byContradiction fun hq' => ?_
          exact hfree ⟨_, mem_meanings.mp hq, hne, List.prefix_rfl, rfl, hq'⟩
        obtain ⟨q, hq⟩ := List.exists_mem_of_ne_nil _ hnone
        exact ⟨hall q hq ▸ hq, hall⟩

theorem qualified_eq_append {path found : List String} (h : qualified ws scope path = some found) :
    found = scope ++ path := by
  induction path generalizing scope with
  | nil => simpa [qualified] using h.symm
  | cons first path ih =>
    rw [qualified] at h
    split at h
    · simpa using ih h
    · cases h

/-- A name that is declared all the way stands for what is meant, unless it is shadowed or
doubled. -/
theorem lookup_eq_iff {nest rest : List String} (h : Reached (bindings ws) (name :: rest)) :
    lookup ws nest (name :: rest) = some (name :: rest) ↔
      ¬ Shadowed ws nest name ∧ ¬ Doubled ws (name :: rest) := by
  have hinner : ∀ inner m others, rest = inner ++ m :: others →
      ⟨[name] ++ inner, m, [name] ++ inner ++ [m]⟩ ∈ bindings ws := by
    intro inner m others he
    exact h (name :: inner) m others (by rw [he]; rfl)
  have hdoubled : (∀ inner m others, rest = inner ++ m :: others →
      ⟨[name] ++ inner, m, [name] ++ inner⟩ ∉ bindings ws) ↔ ¬ Doubled ws (name :: rest) := by
    constructor
    · rintro hfree ⟨_ | ⟨_, inner⟩, m, others, he, hown⟩
      · rcases path_of_mem hown with hpath | ⟨_, hne⟩
        · cases hpath
        · exact hne rfl
      · cases he
        exact hfree inner m others rfl hown
    · intro hfree inner m others he hown
      exact hfree ⟨name :: inner, m, others, by rw [he]; rfl, hown⟩
  rw [← unqualified_eq_iff (h [] name rest rfl), ← hdoubled, ← qualified_eq_iff hinner, lookup]
  constructor
  · intro hfound
    obtain ⟨found, hfirst, hrest⟩ := Option.bind_eq_some_iff.mp hfound
    have hsame : [name] = found := List.append_cancel_right (qualified_eq_append hrest)
    subst hsame
    exact ⟨hfirst, hrest⟩
  · rintro ⟨hfirst, hrest⟩
    rw [hfirst]
    exact hrest

end Meanings

section Announcing

variable {bound bound' : List Bound} {nest : List String}

theorem Reached.mono (h : Reached bound nest) (hsub : bound ⊆ bound') : Reached bound' nest := by
  intro scope name rest he
  exact hsub (h scope name rest he)

theorem Reached.nil : Reached bound [] := by
  intro scope name rest he
  cases scope <;> cases he

theorem Reached.concat {name : String} (h : Reached bound nest)
    (hname : ⟨nest, name, nest ++ [name]⟩ ∈ bound) :
    Reached bound (nest ++ [name]) := by
  intro scope m rest he
  rcases List.eq_nil_or_concat rest with rfl | ⟨others, last, rfl⟩
  · obtain ⟨rfl, hlast⟩ := List.append_inj' he rfl
    cases hlast
    exact hname
  · rw [List.concat_eq_append, ← List.cons_append, ← List.append_assoc] at he
    obtain ⟨rfl, _⟩ := List.append_inj' he rfl
    exact h scope m others rfl

/-- The blocks around each line are bound before it, and what it completes is bound with it. -/
def Announced : List Bound → List Written → Prop
  | _, [] => True
  | bound, w :: rest =>
    Reached bound w.nest ∧
      (∀ c, w.completes = some c → Reached (bound ++ w.binds) (w.nest ++ [c.name])) ∧
      Announced (bound ++ w.binds) rest

namespace Announced

variable {ws ws' : List Written}

theorem append (h : Announced bound ws) (h' : Announced (bound ++ bindings ws) ws') :
    Announced bound (ws ++ ws') := by
  induction ws generalizing bound with
  | nil => simpa [bindings] using h'
  | cons w ws ih =>
    refine ⟨h.1, h.2.1, ih h.2.2 ?_⟩
    simpa [bindings] using h'

theorem left (h : Announced bound (ws ++ ws')) : Announced bound ws := by
  induction ws generalizing bound with
  | nil => trivial
  | cons w ws ih => exact ⟨h.1, h.2.1, ih h.2.2⟩

/-- The way to a type that is complete is bound. -/
theorem reached (h : Announced bound ws) {w : Written} (hw : w ∈ ws) {c : Completed}
    (hc : w.completes = some c) :
    Reached (bound ++ bindings ws) (w.nest ++ [c.name]) := by
  induction ws generalizing bound with
  | nil => cases hw
  | cons v ws ih =>
    rcases List.mem_cons.mp hw with rfl | hw
    · refine (h.2.1 c hc).mono ?_
      simp [bindings]
    · have hreached := ih h.2.2 hw
      simpa [bindings] using hreached

/-- Lines that complete nothing, in blocks that are bound. -/
theorem of_incomplete (hn : Reached bound nest) (h : ∀ w ∈ ws, w.nest = nest ∧ w.completes = none) :
    Announced bound ws := by
  induction ws generalizing bound with
  | nil => trivial
  | cons w ws ih =>
    obtain ⟨rfl, hc⟩ := h w (by simp)
    refine ⟨hn, ?_, ih (hn.mono (by simp)) fun v hv => h v (List.mem_cons_of_mem _ hv)⟩
    rw [hc]
    rintro c ⟨⟩

/-- A line that is bound as what it completes. -/
theorem single {w : Written} {c : Completed} (hn : Reached bound w.nest) (hopens : w.opens = none)
    (hc : w.completes = some c) : Announced bound [w] := by
  refine ⟨hn, ?_, trivial⟩
  intro c' hc'
  cases hc.symm.trans hc'
  refine (hn.mono (List.subset_append_left _ _)).concat ?_
  simp [Written.binds, hopens, hc]

/-- A block whose name is bound with its first line. -/
theorem enclosed {name opening closing : String} {block : Opened} {completes : Option Completed}
    (hn : Reached bound nest) (hc : ∀ c, completes = some c → c.name = name)
    (h : ∀ bound', Reached bound' (nest ++ [name]) → Announced bound' ws) :
    Announced bound (Cpp.enclosed nest name block opening closing completes ws) := by
  have hbound : ∀ w : Written, w.nest = nest → w.opens = some (name, block) →
      Reached (bound ++ w.binds) (nest ++ [name]) := by
    rintro w rfl hopens
    refine (hn.mono (List.subset_append_left _ _)).concat ?_
    simp [Written.binds, hopens]
  refine ⟨hn, by rintro c ⟨⟩, ?_⟩
  have hinner :=
    hbound ⟨⟨nest.length + 1, opening ++ " \x7b"⟩, nest, some (name, block), none, []⟩ rfl rfl
  refine (h _ hinner).append ⟨?_, ?_, trivial⟩
  · exact hn.mono (by simp [List.append_assoc])
  · intro c hc'
    rw [hc c hc']
    exact hinner.mono (by simp [List.append_assoc])

end Announced

mutual

theorem written_announced (d : Device) :
    ∀ (decl : Decl) {bound : List Bound} {nest : List String}, Reached bound nest →
      Announced bound (decl.written d nest)
  | .struct t name inner members, bound, nest, hn => by
    rw [Decl.written]
    refine .enclosed hn (by rintro c ⟨⟩; rfl) fun bound' hinner => ?_
    refine .append (.append (declsWritten_announced d inner hinner) ?_) ?_
    · refine .of_incomplete (hinner.mono (List.subset_append_left _ _)) ?_
      intro w hw
      obtain ⟨p, _, rfl⟩ := List.mem_map.mp hw
      exact ⟨rfl, rfl⟩
    · refine .of_incomplete (hinner.mono (List.subset_append_left _ _)) ?_
      intro w hw
      rw [List.mem_singleton.mp hw]
      exact ⟨rfl, rfl⟩
  | .variant t name alternatives, bound, nest, hn => by
    rw [Decl.written]
    exact .single hn rfl rfl
  | .container t name element, bound, nest, hn => by
    rw [Decl.written]
    exact .single hn rfl rfl
  | .holder name inStruct inner, bound, nest, hn => by
    rw [Decl.written]
    split
    · exact .enclosed hn (by rintro c ⟨⟩) fun bound' hinner => declsWritten_announced d inner hinner
    · exact .enclosed hn (by rintro c ⟨⟩) fun bound' hinner => declsWritten_announced d inner hinner

theorem declsWritten_announced (d : Device) :
    ∀ (decls : List Decl) {bound : List Bound} {nest : List String}, Reached bound nest →
      Announced bound (declsWritten d nest decls)
  | [], _, _, _ => by
    rw [declsWritten_nil]
    trivial
  | decl :: rest, bound, nest, hn => by
    rw [declsWritten_cons]
    exact (written_announced d decl hn).append
      (declsWritten_announced d rest (hn.mono (List.subset_append_left _ _)))

end

theorem typesWritten_announced (d : Device) : Announced [] (typesWritten d) :=
  declsWritten_announced d _ .nil

end Announcing

/-- The names in the header stand for the types that are meant, as far as nothing hides them. -/
structure ReadsUnlessHidden (d : Device) : Prop where
  /-- The blocks around a line, and what it declares, are in the text. -/
  read : ReadsThrough [] (typesWritten d) []
  /-- The lines are those of the header, with no names of types but those that they spell. -/
  spelled : ∀ d', AlikeIn d d' (typesWritten d) →
    declLines d' 1 (types d) = (typesWritten d).map Written.line
  /-- A name is in its line, and is the way to its type. Looked up from where it stands, it leads
  there unless a block on the way out holds its first part, or a struct has the name of the part
  that follows it. -/
  found : ∀ (before : List Written) (w : Written) (after : List Written),
    typesWritten d = before ++ w :: after → ∀ t ∈ w.spells, ∃ decl, d.typeDecl? t = some decl ∧
      Contains w.line.text (declName d .inside t) ∧
      declName d .inside t = Text.join "::" (decl.scope ++ [decl.name]) ∧
      (lookup before w.nest (decl.scope ++ [decl.name]) = some (decl.scope ++ [decl.name]) ↔
        ¬ Shadowed before w.nest (decl.scope.headD decl.name) ∧
          ¬ Doubled before (decl.scope ++ [decl.name]))

theorem resolved_readsUnlessHidden {ns : String} {description : Description.Device}
    {importRoot : Path} {source : Source} {d : Device}
    (h : (resolveDevice ns description importRoot source).result = .ok d) :
    ReadsUnlessHidden d := by
  refine ⟨declsWritten_readsThrough d (types d) [], ?_, ?_⟩
  · intro d' halike
    exact (declLines_congr rfl halike).trans (line_declsWritten d [] (types d)).symm
  intro before w after he t ht
  have hcontains : Contains w.line.text (declName d .inside t) :=
    declsWritten_contains (he ▸ List.mem_append_right _ List.mem_cons_self) ht
  obtain ⟨shared, params, commands, hr⟩ := resolveDevice_resolved h
  have hordered := typesWritten_inOrder hr
  have hannounced := typesWritten_announced d
  rw [he] at hordered hannounced
  obtain ⟨m, hm, hw⟩ := hordered.split
  obtain ⟨v, hv, decl, hdecl, hnest, hc⟩ := hm.mem (Nat.zero_le _) (hw t ht)
  have hreached := hannounced.left.reached hv hc
  rw [List.nil_append, hnest] at hreached
  refine ⟨decl, hdecl, hcontains, ?_, ?_⟩
  · rw [declName, Device.typeDecl?, hdecl]
    rfl
  · cases hscope : decl.scope with
    | nil =>
      rw [hscope] at hreached
      exact lookup_eq_iff hreached
    | cons first inner =>
      rw [hscope] at hreached
      exact lookup_eq_iff hreached

/-- Every name in the header stands for the type that is meant. -/
def ReadsAsMeant (d : Device) : Prop :=
  ∀ (before : List Written) (w : Written) (after : List Written), typesWritten d = before ++
    w :: after → ∀ t ∈ w.spells, ∀ decl, d.typeDecl? t = some decl →
      lookup before w.nest (decl.scope ++ [decl.name]) = some (decl.scope ++ [decl.name])

/-- A struct beside another that holds a struct of the same name, and a field with the first as
template. -/
def nestedNamesake : Description.Device :=
  .small
    [("point", ⟨.ofType "STRUCT", [("x", ⟨.ofType "INT32", []⟩)]⟩),
      ("outer", ⟨.ofType "STRUCT", [("point", ⟨.ofType "STRUCT", [("y", ⟨.ofType "INT32", []⟩)]⟩),
        ("q", ⟨{ Description.Declaration.ofType "STRUCT" with template := some "/point" }, []⟩)]⟩)]
    []

/-- What the name spelled by the line at an index stands for, and what is meant. -/
def reading (d : Device) (i : Nat) : Option (Option (List String) × List String) := do
  let w ← (typesWritten d)[i]?
  let t ← w.spells.head?
  let decl ← d.typeDecl? t
  let path := decl.scope ++ [decl.name]
  return (lookup ((typesWritten d).take i) w.nest path, path)

theorem ReadsAsMeant.reading_eq {d : Device} (h : ReadsAsMeant d) {i : Nat}
    {found : Option (List String)} {path : List String} (hi : reading d i = some (found, path)) :
    found = some path := by
  simp only [reading, Option.bind_eq_bind, Option.bind_eq_some_iff, Option.pure_def,
    Option.some.injEq, Prod.mk.injEq] at hi
  obtain ⟨w, hw, t, ht, decl, hdecl, rfl, rfl⟩ := hi
  obtain ⟨hlt, rfl⟩ := List.getElem?_eq_some_iff.mp hw
  refine h _ _ ((typesWritten d).drop (i + 1)) ?_ t (List.mem_of_head? ht) decl hdecl
  rw [← List.drop_eq_getElem_cons hlt, List.take_append_drop]

theorem nestedNamesake_readsUnlessHidden :
    ∃ d, (resolveDevice "m" nestedNamesake ⟨"params"⟩ (Documents.source {})).result = .ok d ∧
      reading d 9 = some (some ["Outer", "Point"], ["Outer", "Point"]) ∧ ReadsUnlessHidden d := by
  have hok :
      ((resolveDevice "m" nestedNamesake ⟨"params"⟩ (Documents.source {})).result.toOption.map
        fun d => reading d 9) = some (some (some ["Outer", "Point"], ["Outer", "Point"])) := by
        decide +kernel
  obtain ⟨d, hd, hreading⟩ := ok_of_toOption hok
  exact ⟨d, hd, hreading, resolved_readsUnlessHidden hd⟩

/-- The template of the field is in the namespace, but the name in the field is that of the struct
beside it. -/
theorem nestedNamesake_not_readsAsMeant :
    ∃ d, (resolveDevice "m" nestedNamesake ⟨"params"⟩ (Documents.source {})).result = .ok d ∧
      ¬ ReadsAsMeant d := by
  have hok :
      ((resolveDevice "m" nestedNamesake ⟨"params"⟩ (Documents.source {})).result.toOption.map
        fun d => reading d 10) = some (some (some ["Outer", "Point"], ["Point"])) := by
    decide +kernel
  obtain ⟨d, hd, hreading⟩ := ok_of_toOption hok
  refine ⟨d, hd, fun h => ?_⟩
  have hpath := h.reading_eq hreading
  simp at hpath

end DeviceModel.Cpp
