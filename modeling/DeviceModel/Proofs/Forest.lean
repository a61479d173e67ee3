import DeviceModel.Device.Basic

namespace DeviceModel

/-- Where something comes of every item, something comes of the whole list. -/
theorem mapM_eq_some {α β : Type} {f : α → Option β} {g : α → β} {as : List α}
    (h : ∀ a ∈ as, f a = some (g a)) :
    as.mapM f = some (as.map g) := by
  induction as with
  | nil => rfl
  | cons a rest ih =>
    have hrest := ih fun b hb => h b (List.mem_cons_of_mem _ hb)
    rw [List.mapM_cons, h a (List.mem_cons_self ..), hrest]
    rfl

/-- What a parameter adds to a device beside itself: a constraint of its own, the struct or variant
that it declares, and its container. -/
structure Share where
  rule : Option Constraint := none
  element : Option TypeDecl := none
  container : Option TypeDecl := none

namespace Share

def types (own : Share) : List TypeDecl := own.element.toList ++ own.container.toList

end Share

/-- A parameter with what it adds and those below it, and then those after it. -/
inductive Forest where
  | nil
  | cons (node : Param) (own : Share) (below rest : Forest)

namespace Forest

/-- A parameter with nothing after it. -/
def tree (p : Param) (own : Share) (below : Forest) : Forest := .cons p own below .nil

def params : Forest → List Param
  | nil => []
  | cons p _ below rest => p :: (below.params ++ rest.params)

def types : Forest → List TypeDecl
  | nil => []
  | cons _ own below rest => below.types ++ (own.types ++ rest.types)

def constraints : Forest → List Constraint
  | nil => []
  | cons _ own below rest => own.rule.toList ++ (below.constraints ++ rest.constraints)

/-- The outermost parameters. -/
def roots : Forest → List Param
  | nil => []
  | cons p _ _ rest => p :: rest.roots

def entries (f : Forest) : Entries ParamId := f.roots.map fun p => (p.oid, p.id)

def append : Forest → Forest → Forest
  | nil, g => g
  | cons p own below rest, g => cons p own below (rest.append g)

@[simp] theorem params_nil : nil.params = [] := rfl

@[simp] theorem types_nil : nil.types = [] := rfl

@[simp] theorem constraints_nil : nil.constraints = [] := rfl

@[simp] theorem roots_nil : nil.roots = [] := rfl

@[simp] theorem entries_nil : nil.entries = [] := rfl

@[simp] theorem nil_append (f : Forest) : nil.append f = f := rfl

variable (p : Param) (own : Share) (below rest f g : Forest)

@[simp] theorem params_cons : (cons p own below rest).params = p :: (below.params ++ rest.params) :=
  rfl

@[simp] theorem types_cons :
    (cons p own below rest).types = below.types ++ (own.types ++ rest.types) := rfl

@[simp] theorem constraints_cons :
    (cons p own below rest).constraints = own.rule.toList ++
      (below.constraints ++ rest.constraints) :=
  rfl

@[simp] theorem roots_cons : (cons p own below rest).roots = p :: rest.roots := rfl

@[simp] theorem entries_cons : (cons p own below rest).entries = (p.oid, p.id) :: rest.entries :=
  rfl

@[simp] theorem cons_append : (cons p own below rest).append f = cons p own below (rest.append f) :=
  rfl

@[simp] theorem params_tree : (tree p own below).params = p :: below.params := by simp [tree]

@[simp] theorem types_tree : (tree p own below).types = below.types ++ own.types := by simp [tree]

@[simp] theorem constraints_tree :
    (tree p own below).constraints = own.rule.toList ++ below.constraints := by simp [tree]

@[simp] theorem roots_tree : (tree p own below).roots = [p] := rfl

@[simp] theorem entries_tree : (tree p own below).entries = [(p.oid, p.id)] := rfl

@[simp] theorem tree_append : (tree p own below).append f = cons p own below f := rfl

@[simp] theorem params_append : (f.append g).params = f.params ++ g.params := by
  induction f with
  | nil => rfl
  | cons p own below rest _ ih => simp [ih]

@[simp] theorem types_append : (f.append g).types = f.types ++ g.types := by
  induction f with
  | nil => rfl
  | cons p own below rest _ ih => simp [ih]

@[simp] theorem constraints_append : (f.append g).constraints = f.constraints ++ g.constraints := by
  induction f with
  | nil => rfl
  | cons p own below rest _ ih => simp [ih]

@[simp] theorem roots_append : (f.append g).roots = f.roots ++ g.roots := by
  induction f with
  | nil => rfl
  | cons p own below rest _ ih => simp [ih]

@[simp] theorem entries_append : (f.append g).entries = f.entries ++ g.entries := by
  simp [entries]

@[simp] theorem append_nil : f.append .nil = f := by
  induction f with
  | nil => rfl
  | cons p own below rest _ ih => simp [ih]

theorem append_assoc (h : Forest) : (f.append g).append h = f.append (g.append h) := by
  induction f with
  | nil => rfl
  | cons p own below rest _ ih => simp [ih]

variable {p f}

theorem mem_params_of_mem_roots (h : p ∈ f.roots) : p ∈ f.params := by
  induction f with
  | nil => exact h
  | cons q own below rest _ ih =>
    rcases List.mem_cons.mp h with rfl | h
    · simp
    · simp [ih h]

/-- What holds of a parameter and of all below it holds of its tree. -/
theorem forall_tree {P : Param → Prop} (hp : P p) (hbelow : ∀ q ∈ below.params, P q) :
    ∀ q ∈ (tree p own below).params, P q := by
  intro q hq
  rw [params_tree] at hq
  rcases List.mem_cons.mp hq with rfl | hq
  · exact hp
  · exact hbelow q hq

theorem forall_append {P : Param → Prop} (hf : ∀ q ∈ f.params, P q) (hg : ∀ q ∈ g.params, P q) :
    ∀ q ∈ (f.append g).params, P q := by
  intro q hq
  rw [params_append] at hq
  rcases List.mem_append.mp hq with hq | hq
  · exact hf q hq
  · exact hg q hq

/-- What is done for every entry is done for every outermost parameter. -/
theorem flatMap_entries {β : Type} {onEntry : String × ParamId → List β} {onParam : Param → List β}
    (h : ∀ p ∈ f.roots, onEntry (p.oid, p.id) = onParam p) :
    f.entries.flatMap onEntry = f.roots.flatMap onParam := by
  rw [entries, List.flatMap_map, List.flatMap_def, List.flatMap_def]
  exact congrArg List.flatten (List.map_congr_left h)

/-- Where the outermost parameters are found under their ids, they are the children of what lists
them. -/
theorem children_eq {d : Device} {id : ParamId} (hp : d.param? id = some p)
    (hc : p.children = f.entries) (found : ∀ q ∈ f.roots, d.param? q.id = some q) :
    d.children id = f.roots := by
  have hf : ∀ qs : List Param, (∀ q ∈ qs, d.param? q.id = some q) →
      (qs.map fun q => (q.oid, q.id)).filterMap (fun e => d.param? e.2) = qs := by
    intro qs hqs
    induction qs with
    | nil => rfl
    | cons q qs ih =>
      have hrest := ih fun r hr => hqs r (by simp [hr])
      simp only [List.map_cons, List.filterMap_cons, hqs q (List.mem_cons_self ..), hrest]
  rw [Device.children, hp]
  simp only [hc, entries]
  exact hf f.roots found

theorem children?_eq {d : Device} {id : ParamId} (hp : d.param? id = some p)
    (hc : p.children = f.entries) (found : ∀ q ∈ f.roots, d.param? q.id = some q) :
    d.children? id = some f.roots := by
  have hroots : f.roots.mapM (fun q => d.param? q.id) = some (f.roots.map fun q => q) :=
    mapM_eq_some found
  rw [List.map_id'] at hroots
  rw [Device.children?, hp]
  simp only [hc, entries, Option.bind_eq_bind, Option.bind_some, List.mapM_map]
  exact hroots

end Forest

/-- What stands before a forest grows: the arenas so far, the finished parameters among them, and
the stems of names that are taken. -/
structure Ground where
  shared : Entries ConstraintId
  count : Nat
  known : List Param
  types : List TypeDecl
  constraints : List Constraint
  idents : Entries String

namespace Ground

/-- The ground after a parameter is entered, before those below it. -/
def enter (g : Ground) (realm : Realm) (fqoid : String) (rule : Option Constraint) : Ground :=
  { g with
    count := g.count + 1
    constraints := g.constraints ++ rule.toList
    idents := (Param.identOf realm fqoid, fqoid) :: g.idents }

/-- The ground after a whole forest. -/
def after (g : Ground) (f : Forest) : Ground :=
  { shared := g.shared
    count := g.count + f.params.length
    known := g.known ++ f.params
    types := g.types ++ f.types
    constraints := g.constraints ++ f.constraints
    idents := (f.params.map fun p => (p.ident, p.fqoid)).reverse ++ g.idents }

variable (g : Ground) (f h : Forest)

@[simp] theorem after_nil : g.after .nil = g := by simp [after]

@[simp] theorem after_append : g.after (f.append h) = (g.after f).after h := by
  simp [after, Nat.add_assoc]

@[simp] theorem after_shared : (g.after f).shared = g.shared := rfl

@[simp] theorem after_count : (g.after f).count = g.count + f.params.length := rfl

@[simp] theorem after_known : (g.after f).known = g.known ++ f.params := rfl

@[simp] theorem after_types : (g.after f).types = g.types ++ f.types := rfl

@[simp] theorem after_constraints : (g.after f).constraints = g.constraints ++ f.constraints := rfl

/-- What holds of the finished parameters and of a forest holds of all that are finished after
it. -/
theorem forall_after {P : Param → Prop} {g : Ground} {f : Forest} (hg : ∀ p ∈ g.known, P p)
    (hf : ∀ p ∈ f.params, P p) : ∀ p ∈ (g.after f).known, P p := by
  intro p hp
  rcases List.mem_append.mp hp with hp | hp
  · exact hg p hp
  · exact hf p hp

variable (realm : Realm) (fqoid : String) (rule : Option Constraint)

@[simp] theorem enter_shared : (g.enter realm fqoid rule).shared = g.shared := rfl

@[simp] theorem enter_count : (g.enter realm fqoid rule).count = g.count + 1 := rfl

@[simp] theorem enter_known : (g.enter realm fqoid rule).known = g.known := rfl

@[simp] theorem enter_types : (g.enter realm fqoid rule).types = g.types := rfl

@[simp] theorem enter_constraints :
    (g.enter realm fqoid rule).constraints = g.constraints ++ rule.toList := rfl

end Ground

end DeviceModel
