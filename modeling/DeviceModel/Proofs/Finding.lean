import DeviceModel.Proofs.Replicas

namespace DeviceModel

namespace Text

variable {sep : Char}

theorem fields_ne_nil (cs : List Char) : fields sep cs ≠ [] := by
  cases cs with
  | nil => simp [fields]
  | cons c cs =>
    rw [fields]
    split
    · simp
    · split <;> simp

/-- Fields with the separator before each are the text with one more in front. -/
theorem flatMap_fields (cs : List Char) : (fields sep cs).flatMap (sep :: ·) = sep :: cs := by
  induction cs with
  | nil => rfl
  | cons c cs ih =>
    rw [fields]
    cases hfields : fields sep cs with
    | nil => exact absurd hfields (fields_ne_nil cs)
    | cons f fs =>
      rw [hfields, List.flatMap_cons, List.cons_append, List.cons.injEq] at ih
      dsimp only
      split
      · next hc => simp [hc, ih.2]
      · simp [ih.2]

theorem fields_of_not_mem {cs : List Char} (h : sep ∉ cs) : fields sep cs = [cs] := by
  induction cs with
  | nil => rfl
  | cons c cs ih =>
    simp only [List.mem_cons, not_or] at h
    rw [fields, ih h.2]
    dsimp only
    rw [if_neg (Ne.symm h.1)]

/-- The first separator ends the first field. -/
theorem fields_append {cs : List Char} (h : sep ∉ cs) (rest : List Char) :
    fields sep (cs ++ sep :: rest) = cs :: fields sep rest := by
  induction cs with
  | nil =>
    cases hfields : fields sep rest with
    | nil => exact absurd hfields (fields_ne_nil rest)
    | cons f fs => simp [fields, hfields]
  | cons c cs ih =>
    simp only [List.mem_cons, not_or] at h
    rw [List.cons_append, fields, ih h.2]
    dsimp only
    rw [if_neg (Ne.symm h.1)]

end Text

theorem Entries.mem_of_get? {α : Type} {e : Entries α} {key : String} {a : α}
    (h : e.get? key = some a) :
    (key, a) ∈ e := by
  obtain ⟨before, after, rfl, _⟩ := List.lookup_eq_some_iff.mp h
  simp

/-- The text without the slashes that it starts with. -/
def unrooted (s : String) : String := String.ofList (s.toList.dropWhile (· = '/'))

/-- The names on the way that a full oid describes. -/
def segments (s : String) : List String := (Text.fields '/' (unrooted s).toList).map String.ofList

/-- A name that can be told from what stands around it in a full oid. -/
def Plain (name : String) : Prop := name ≠ "" ∧ '/' ∉ name.toList

theorem toList_trail (names : List String) :
    (trail names).toList = names.flatMap ('/' :: ·.toList) := by
  induction names with
  | nil => rfl
  | cons name rest ih => simp [String.toList_append, ih]

/-- An oid is made of the names that are read off it. -/
theorem trail_segments (s : String) : trail (segments s) = "/" ++ unrooted s := by
  apply String.toList_inj.mp
  rw [toList_trail, segments, List.flatMap_map]
  simp [Text.flatMap_fields, String.toList_append]

theorem fields_trail {name : String} {rest : List String} (hname : '/' ∉ name.toList)
    (hrest : ∀ n ∈ rest, '/' ∉ n.toList) :
    (Text.fields '/' (name.toList ++ (trail rest).toList)).map String.ofList = name :: rest := by
  induction rest generalizing name with
  | nil => simp [Text.fields_of_not_mem hname]
  | cons next rest ih =>
    have hnext := ih (hrest next List.mem_cons_self) fun n hn => hrest n (List.mem_cons_of_mem _ hn)
    have htext : (trail (next :: rest)).toList = '/' :: (next.toList ++ (trail rest).toList) := by
      simp [String.toList_append]
    rw [htext, Text.fields_append hname, List.map_cons, hnext, String.ofList_toList]

/-- The names that an oid is made of are read off it. -/
theorem segments_trail {name : String} {rest : List String} (hname : Plain name)
    (hrest : ∀ n ∈ rest, '/' ∉ n.toList) : segments (trail (name :: rest)) = name :: rest := by
  obtain ⟨hne, hslash⟩ := hname
  have htext : (unrooted (trail (name :: rest))).toList = name.toList ++ (trail rest).toList := by
    cases hlist : name.toList with
    | nil => exact absurd (String.toList_inj.mp hlist) hne
    | cons c cs =>
      rw [hlist, List.mem_cons, not_or] at hslash
      simp [unrooted, String.toList_append, hlist, Ne.symm hslash.1]
  rw [segments, htext, fields_trail hslash hrest]

theorem Device.find?_eq (d : Device) (realm : Realm) (s : String) :
    d.find? realm s = match segments s with
      | [] => none
      | root :: rest => ((d.roots realm).get? root).bind fun id => d.descend id rest := by
  rw [find?, segments, unrooted, String.toList_ofList]
  rfl

theorem Device.descend_append (d : Device) (start : ParamId) (names others : List String) :
    d.descend start (names ++ others) = (d.descend start names).bind fun id =>
      d.descend id others := by
  induction names generalizing start with
  | nil => rfl
  | cons name rest ih =>
    rw [List.cons_append, descend, descend]
    simp only [Option.bind_eq_bind, Option.bind_assoc, ih]

theorem Leads.concat {d : Device} {p q r : Param} {names : List String} (h : Leads d p names q)
    (hq : d.param? q.id = some q) (distinct : (q.children.map Prod.fst).Nodup)
    (hr : (r.oid, r.id) ∈ q.children) (fqoid : r.fqoid = q.fqoid ++ "/" ++ r.oid) :
    Leads d p (names ++ [r.oid]) r := by
  have hstep := (Leads.here d r).child hq distinct hr fqoid
  constructor
  · rw [Device.descend_append, h.descend, Option.bind_some, hstep.descend]
  · rw [hstep.fqoid, h.fqoid, String.append_assoc]
    simp [trail]

namespace Resolve.Resolved

variable {source : Source} {importRoot : Path} {description : Description.Device} {d : Device}
  {shared : List Constraint} {params commands : Forest}
  (h : Resolved source importRoot description d shared params commands)

include h

/-- No name leads to two outermost parameters of a realm. -/
theorem root_keys_nodup (realm : Realm) : ((d.roots realm).map Prod.fst).Nodup := by
  cases realm with
  | params =>
    rw [Device.roots, h.params_eq, Forest.entries, List.map_map]
    change (params.roots.map Param.oid).Nodup
    rw [h.params_grown.keys]
    exact Entries.keys_nodup h.distinctParams
  | commands =>
    rw [Device.roots, h.commands_eq, Forest.entries, List.map_map]
    change (commands.roots.map Param.oid).Nodup
    rw [h.commands_grown.keys]
    exact Entries.keys_nodup h.distinctCommands

/-- The way to a parameter, from an outermost one of its realm. All names on it are oids of
parameters. -/
theorem exists_way {p : Param} (hp : p ∈ d.nodes) :
    ∃ root names, (root.oid, root.id) ∈ d.roots p.realm ∧ root.fqoid = "/" ++ root.oid ∧
      Leads d root names p ∧
      ∀ name ∈ root.oid :: names, ∃ q ∈ d.nodes, q.oid = name := by
  -- Parents have smaller ids.
  induction hn : p.id.index using Nat.strongRecOn generalizing p with
  | ind n ih =>
    rcases h.lineage (h.mem_nodes.mp hp) with ⟨hroot, seat⟩ | ⟨q, hq, seat, hlisted⟩
    · refine ⟨p, [], h.mem_roots hroot, ?_, .here d p, ?_⟩
      · rw [seat.fqoid, String.empty_append]
      · simpa using ⟨p, hp, rfl⟩
    · have hlt : q.id.index < n := hn ▸ h.numbered.child h.linked hq hlisted
      obtain ⟨root, names, hroot, hfqoid, hleads, hnames⟩ :=
        ih q.id.index hlt (h.mem_nodes.mpr hq) rfl
      refine ⟨root, names ++ [p.oid], ?_, hfqoid, ?_, ?_⟩
      · rw [seat.realm]
        exact hroot
      · exact hleads.concat (h.found q hq) (h.keys_nodup (h.mem_nodes.mpr hq)) hlisted seat.fqoid
      · intro name hname
        rw [← List.cons_append, List.mem_append, List.mem_singleton] at hname
        rcases hname with hname | rfl
        · exact hnames name hname
        · exact ⟨p, hp, rfl⟩

/-- A parameter is found by its full oid, if the names on the way to it can be told apart there. -/
theorem find?_fqoid (plain : ∀ p ∈ d.nodes, Plain p.oid) {p : Param} (hp : p ∈ d.nodes) :
    d.find? p.realm p.fqoid = some p.id := by
  obtain ⟨root, names, hroot, hfqoid, hleads, hnames⟩ := h.exists_way hp
  have hplain : ∀ name ∈ root.oid :: names, Plain name := by
    intro name hname
    obtain ⟨q, hq, rfl⟩ := hnames name hname
    exact plain q hq
  have hsegments : segments p.fqoid = root.oid :: names := by
    rw [hleads.fqoid, hfqoid, ← trail_cons]
    exact segments_trail (hplain _ List.mem_cons_self) fun n hn =>
      (hplain n (List.mem_cons_of_mem _ hn)).2
  rw [Device.find?_eq, hsegments]
  simp only [Entries.get?_of_mem (h.root_keys_nodup p.realm) hroot, Option.bind_some,
    hleads.descend]

/-- Where names lead, they lead within a realm. -/
theorem leads_of_descend {p : Param} (hp : p ∈ d.nodes) {names : List String} {id : ParamId}
    (hd : d.descend p.id names = some id) :
    ∃ q, d.param? id = some q ∧ q.realm = p.realm ∧ Leads d p names q := by
  induction names generalizing p with
  | nil =>
    cases hd
    exact ⟨p, h.found p (h.mem_nodes.mp hp), rfl, .here d p⟩
  | cons name rest ih =>
    have hfound := h.found p (h.mem_nodes.mp hp)
    simp only [Device.descend, hfound, Option.bind_eq_bind, Option.bind_some] at hd
    obtain ⟨child, hchild, hd⟩ := Option.bind_eq_some_iff.mp hd
    obtain ⟨c, hc, heq, seat⟩ := h.child (h.mem_nodes.mp hp) (Entries.mem_of_get? hchild)
    cases heq
    obtain ⟨q, hq, hrealm, hleads⟩ := ih (h.mem_nodes.mpr hc) hd
    refine ⟨q, hq, hrealm.trans seat.realm, ?_⟩
    exact hleads.child hfound (h.keys_nodup hp) (Entries.mem_of_get? hchild) seat.fqoid

/-- What is found has the oid that it was looked up by, but for the slashes at its start. -/
theorem fqoid_of_find? {realm : Realm} {s : String} {id : ParamId}
    (hs : d.find? realm s = some id) :
    ∃ p, d.param? id = some p ∧ p.realm = realm ∧ p.fqoid = "/" ++ unrooted s := by
  rw [Device.find?_eq] at hs
  split at hs
  · cases hs
  · next root rest hsegments =>
    obtain ⟨first, hfirst, hd⟩ := Option.bind_eq_some_iff.mp hs
    obtain ⟨r, hr, heq, hparent, hrealm⟩ := h.root (Entries.mem_of_get? hfirst)
    cases heq
    obtain ⟨q, hq, hrealm', hleads⟩ := h.leads_of_descend (h.mem_nodes.mpr hr) hd
    refine ⟨q, hq, hrealm'.trans hrealm, ?_⟩
    rcases h.lineage hr with ⟨_, seat⟩ | ⟨_, _, seat, _⟩
    · rw [hleads.fqoid, seat.fqoid, String.empty_append, ← trail_cons, ← hsegments, trail_segments]
    · cases hparent.symm.trans seat.parent

end Resolve.Resolved

open Resolve

/-- Looking up by a full oid and having it are inverse to one another. -/
structure FoundByOid (d : Device) : Prop where
  found : ∀ id p, d.param? id = some p → d.find? p.realm p.fqoid = some id
  asked : ∀ realm s id, d.find? realm s = some id →
    ∃ p, d.param? id = some p ∧ p.realm = realm ∧ p.fqoid = "/" ++ unrooted s

theorem resolved_foundByOid {ns : String} {description : Description.Device} {importRoot : Path}
    {source : Source} {d : Device}
    (h : (resolveDevice ns description importRoot source).result = .ok d)
    (plain : ∀ p ∈ d.nodes, Plain p.oid) : FoundByOid d := by
  obtain ⟨shared, params, commands, hr⟩ := resolveDevice_resolved h
  constructor
  case found =>
    intro id p hp
    rw [hr.find?_fqoid plain (Array.mem_of_getElem? hp), hr.id_eq hp]
  case asked =>
    intro realm s id hs
    exact hr.fqoid_of_find? hs

/-- A struct with a struct in it, a copy of both, and a command that is named like the struct. -/
def linesAndMove : Description.Device :=
  .small
    [("line", ⟨.ofType "STRUCT", [("from", ⟨.ofType "STRUCT", [("x", ⟨.ofType "INT32", []⟩)]⟩)]⟩),
      ("edge", ⟨{ Description.Declaration.ofType "STRUCT" with template := some "line" }, []⟩)]
    [("line", ⟨.ofType "EMPTY", [("x", ⟨.ofType "INT32", []⟩)]⟩)]

theorem linesAndMove_foundByOid :
    ∃ d, (resolveDevice "m" linesAndMove ⟨"params"⟩ (Documents.source {})).result = .ok d ∧
      d.nodes.toList.map Param.fqoid =
        ["/line", "/line/from", "/line/from/x", "/edge", "/edge/from", "/edge/from/x", "/line",
          "/line/x"] ∧
      (∀ p ∈ d.nodes, Plain p.oid) ∧ FoundByOid d := by
  have hok :
      ((resolveDevice "m" linesAndMove ⟨"params"⟩
      (Documents.source {})).result.toOption.map fun d =>
      (d.nodes.toList.map Param.fqoid, d.nodes.toList.map Param.oid)) = some
        (["/line", "/line/from", "/line/from/x", "/edge", "/edge/from", "/edge/from/x",
          "/line", "/line/x"], ["line", "from", "x", "edge", "from", "x", "line", "x"]) := by
    decide +kernel
  obtain ⟨d, hd, hnames⟩ := ok_of_toOption hok
  obtain ⟨hfqoids, hoids⟩ := Prod.mk.inj hnames
  have plain : ∀ p ∈ d.nodes, Plain p.oid := by
    have hall : ∀ oid ∈ ["line", "from", "x", "edge", "from", "x", "line", "x"], Plain oid := by
      unfold Plain
      decide
    intro p hp
    apply hall
    rw [← hoids]
    exact List.mem_map.mpr ⟨p, Array.mem_toList_iff.mpr hp, rfl⟩
  exact ⟨d, hd, hfqoids, plain, resolved_foundByOid hd plain⟩

end DeviceModel
