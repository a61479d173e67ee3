import DeviceModel.Proofs.Initializers

namespace DeviceModel

/-- The names on a way down, as a full oid ends with them. -/
def trail (names : List String) : String := String.join (names.map fun name => "/" ++ name)

@[simp] theorem trail_nil : trail [] = "" := rfl

@[simp] theorem trail_cons (name : String) (rest : List String) :
    trail (name :: rest) = "/" ++ name ++ trail rest := by
  simp [trail]

/-- Where no key is there twice, an entry is what is found under its key. -/
theorem Entries.get?_of_mem {α : Type} {e : Entries α} (distinct : (e.map Prod.fst).Nodup)
    {key : String} {a : α} (h : (key, a) ∈ e) : e.get? key = some a := by
  induction e with
  | nil => cases h
  | cons first rest ih =>
    obtain ⟨hfirst, hrest⟩ := List.nodup_cons.mp distinct
    rw [Entries.get?, List.lookup_cons]
    rcases List.mem_cons.mp h with rfl | h
    · rw [beq_self_eq_true]
    · have hne : (key == first.1) = false := by
        rw [beq_eq_false_iff_ne]
        rintro rfl
        exact hfirst (List.mem_map.mpr ⟨(first.1, a), h, rfl⟩)
      rw [hne]
      exact ih hrest h

namespace Device

variable {d : Device}

/-- A way down goes on below a child. -/
theorem descend_cons {p : Param} (hp : d.param? p.id = some p)
    (distinct : (p.children.map Prod.fst).Nodup) {name : String} {child : ParamId}
    (hc : (name, child) ∈ p.children) (rest : List String) :
    d.descend p.id (name :: rest) = d.descend child rest := by
  rw [descend, hp]
  simp only [Option.bind_eq_bind, Option.bind_some, Entries.get?_of_mem distinct hc]

end Device

namespace Resolve.Resolved

variable {source : Source} {importRoot : Path} {description : Description.Device} {d : Device}
  {shared : List Constraint} {params commands : Forest}
  (h : Resolved source importRoot description d shared params commands)

include h

/-- No name leads to two children. -/
theorem keys_nodup {p : Param} (hp : p ∈ d.nodes) : (p.children.map Prod.fst).Nodup := by
  have hoids := h.children_oids_nodup hp
  rw [h.mem_nodes] at hp
  obtain ⟨own, below, part⟩ := Forest.exists_part hp
  have hc := part.children h.linked
  have hchildren : d.children p.id = below.roots := by
    refine Forest.children_eq (h.found p hp) hc ?_
    intro q hq
    exact h.found q (part.mem_below (Forest.mem_params_of_mem_roots hq))
  rw [hc, Forest.entries, List.map_map]
  rw [hchildren] at hoids
  exact hoids

end Resolve.Resolved

open Resolve

/-- Stems and full oids tell parameters apart, and a full oid is made of the names on the way. -/
structure ToldApart (d : Device) : Prop where
  stems : ∀ (i j : Nat) p q, d.nodes[i]? = some p → d.nodes[j]? = some q → i ≠ j → p.ident ≠ q.ident
  fqoids : ∀ p ∈ d.nodes, ∀ q ∈ d.nodes, p.realm = q.realm → p.fqoid = q.fqoid → p = q
  outermost : ∀ p ∈ d.nodes, p.parent = none → p.fqoid = "/" ++ p.oid
  inner : ∀ p ∈ d.nodes, ∀ above, p.parent = some above →
    ∃ q, d.param? above = some q ∧ p.fqoid = q.fqoid ++ "/" ++ p.oid

theorem resolved_toldApart {ns : String} {description : Description.Device} {importRoot : Path}
    {source : Source} {d : Device}
    (h : (resolveDevice ns description importRoot source).result = .ok d) : ToldApart d := by
  obtain ⟨shared, params, commands, hr⟩ := resolveDevice_resolved h
  constructor
  case stems =>
    intro i j p q hp hq hne hident
    apply hne
    have hnodes := hr.nodes
    rw [← Forest.params_append] at hnodes
    rw [← Array.getElem?_toList, hnodes] at hp hq
    refine (List.getElem?_inj ?_ hr.stems_nodup).mp ?_
    · rw [List.length_map]
      exact (List.getElem?_eq_some_iff.mp hp).1
    · rw [List.getElem?_map, List.getElem?_map, hp, hq, Option.map_some, Option.map_some, hident]
  case fqoids =>
    intro p hp q hq hrealm hfqoid
    apply hr.orderly.stems p hp q hq
    rw [Param.ident, Param.ident, hrealm, hfqoid]
  case outermost =>
    intro p hp hparent
    rw [hr.mem_nodes] at hp
    rcases hr.lineage hp with ⟨_, seat⟩ | ⟨q, _, seat, _⟩
    · rw [seat.fqoid, String.empty_append]
    · cases hparent.symm.trans seat.parent
  case inner =>
    intro p hp above hparent
    rw [hr.mem_nodes] at hp
    rcases hr.lineage hp with ⟨_, seat⟩ | ⟨q, hq, seat, _⟩
    · cases hparent.symm.trans seat.parent
    · cases hparent.symm.trans seat.parent
      exact ⟨q, hr.found q hq, seat.fqoid⟩

/-- Names with characters that no stem keeps, a copy of them, and a command that is named like a
parameter. -/
def oddlyNamed : Description.Device :=
  .small
    [("a b", ⟨.ofType "STRUCT", [("c/d", ⟨.ofType "INT32", []⟩), ("", ⟨.ofType "INT32", []⟩)]⟩),
      ("é", ⟨{ Description.Declaration.ofType "STRUCT" with template := some "/a b" }, []⟩)]
    [("a b", ⟨.ofType "EMPTY", [("c/d", ⟨.ofType "INT32", []⟩)]⟩)]

theorem oddlyNamed_toldApart :
    ∃ d, (resolveDevice "m" oddlyNamed ⟨"params"⟩ (Documents.source {})).result = .ok d ∧
      d.nodes.toList.map (fun p => (p.fqoid, p.ident)) =
        [("/a b", "_a_b"), ("/a b/c/d", "_a_b_c_d"), ("/a b/", "_a_b_"), ("/é", "__"),
          ("/é/c/d", "___c_d"),
          ("/é/", "___"), ("/a b", "_cmd_a_b"), ("/a b/c/d", "_cmd_a_b_c_d")] ∧
      ToldApart d := by
  have hok :
      ((resolveDevice "m" oddlyNamed ⟨"params"⟩ (Documents.source {})).result.toOption.map fun d =>
      d.nodes.toList.map fun p => (p.fqoid, p.ident)) = some
        [("/a b", "_a_b"), ("/a b/c/d", "_a_b_c_d"), ("/a b/", "_a_b_"), ("/é", "__"),
          ("/é/c/d", "___c_d"),
          ("/é/", "___"), ("/a b", "_cmd_a_b"), ("/a b/c/d", "_cmd_a_b_c_d")] := by
    decide +kernel
  obtain ⟨d, hd, hnames⟩ := ok_of_toOption hok
  exact ⟨d, hd, hnames, resolved_toldApart hd⟩

end DeviceModel
