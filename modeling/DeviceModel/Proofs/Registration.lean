import DeviceModel.Proofs.LedgerSteps

namespace DeviceModel

namespace Resolve

/-- A template is not there, for whatever parameter. -/
def ofMissingTemplate : ResolveError → Bool
  | .missingTemplate _ _ => true
  | _ => false

/-- A template is missing where nothing is registered under its oid, and only there. -/
theorem bindTemplate_missing_iff {fqoid templateOid : String} {declared : TypeCode} {s : Progress} :
    (∃ t, (bindTemplate fqoid declared templateOid).run s =
      .error (.missingTemplate fqoid templateOid) t) ↔
      s.registry.get? templateOid = none := by
  constructor
  · rintro ⟨t, h⟩
    cases hget : s.registry.get? templateOid with
    | none => rfl
    | some id =>
      have hspares : Spares ofMissingTemplate s (bindTemplate fqoid declared templateOid) := by
        apply get_spares.bind
        intro progress u hprogress
        obtain ⟨rfl, rfl⟩ := get_ok.mp hprogress
        rw [hget]
        apply (param_spares fun hdangling => Bool.noConfusion hdangling).bind
        intro template u _
        split
        · exact throw_spares rfl
        · exact (note_spares _ _ _).bind fun _ _ _ => pure_spares _
      cases hspares _ _ h
  · intro hget
    cases hrun : (bindTemplate fqoid declared templateOid).run s with
    | ok b t =>
      obtain ⟨id, _, _, _, _, hid, -⟩ := bindTemplate_ok hrun
      cases hget.symm.trans hid
    | error e t =>
      rcases bind_error.mp hrun with h | ⟨progress, u, hprogress, h⟩
      · cases h
      · obtain ⟨rfl, rfl⟩ := get_ok.mp hprogress
        rw [hget] at h
        cases h
        exact ⟨_, rfl⟩

namespace Watch

/-- What holds of all moments so far, the last one first: each is sound, each follows from the one
before it without replacing what is registered, and what is finished at one of them is so at all
later ones. -/
structure Coherent (w : Watch) : Prop where
  sound : ∀ m ∈ w.now :: w.past, m.ledger.Sound ∧ m.Asks
  grows : (w.now :: w.past).IsChain fun m' m => m.ledger.Grows m'.ledger
  kept : (w.now :: w.past).Pairwise fun m' m => m.ledger.Kept m'.ledger

theorem Coherent.next {w : Watch} {m : Moment} (h : w.Coherent) (step : w.now.ledger.Step m.ledger)
    (asks : m.Asks) :
    (w.next m).Coherent := by
  have hnow := (h.sound w.now List.mem_cons_self).1
  constructor
  case sound =>
    intro m' hm'
    rcases List.mem_cons.mp hm' with rfl | hm'
    · exact ⟨step.sound hnow, asks⟩
    · exact h.sound m' hm'
  case grows => exact List.isChain_cons_cons.mpr ⟨step.grows hnow, h.grows⟩
  case kept =>
    refine List.pairwise_cons.mpr ⟨?_, h.kept⟩
    intro m' hm'
    have hstep := step.kept hnow
    rcases List.mem_cons.mp hm' with rfl | hm'
    · exact hstep
    · exact ((List.pairwise_cons.mp h.kept).1 m' hm').trans hstep

/-- Moments that follow step by step on coherent ones are coherent. -/
theorem Coherent.onward {v w : Watch} (hv : v.Coherent) (h : Onward v w) : w.Coherent := by
  induction h with
  | refl => exact hv
  | next _ step asks ih => exact ih.next step asks

end Watch

namespace Moment

/-- A parameter outside commands, with this full oid, is finished. -/
def Completed (m : Moment) (fqoid : String) (id : ParamId) : Prop :=
  id ∈ m.finished ∧ ∃ p, m.device.param? id = some p ∧ p.realm = .params ∧ p.fqoid = fqoid

/-- What a parameter finds that looks for a template at this moment. -/
structure LooksUp (m : Moment) (asker : ParamId) (templateOid : String) : Prop where
  innermost : m.underway.head? = some asker
  found : (m.registry.get? templateOid).isSome ↔ ∃ id, m.Completed (completeOid templateOid) id
  refused : ∀ fqoid declared,
    (∃ s, (bindTemplate fqoid declared templateOid).run m.progress =
      .error (.missingTemplate fqoid templateOid) s) ↔
      ¬ ∃ id, m.Completed (completeOid templateOid) id
  other : ∀ id, m.registry.get? templateOid = some id → id ≠ asker ∧ ¬ m.device.Above id asker ∧
    ∃ p, m.device.param? id = some p ∧ p.realm = .params ∧ p.isCommand = false

variable {m : Moment} {fqoid templateOid : String} {asker id : ParamId}

theorem completed_iff (h : m.ledger.Sound) :
    m.registry.entries.get? fqoid = some id ↔ m.Completed fqoid id := by
  refine (h.exact fqoid id).trans (and_congr_right fun _ => ?_)
  constructor
  · rintro ⟨P, hP, hrealm, hfqoid⟩
    obtain ⟨p, hp, rfl⟩ := Ledger.position?_eq_some_iff.mp hP
    exact ⟨p, hp, hrealm, hfqoid⟩
  · rintro ⟨p, hp, hrealm, hfqoid⟩
    exact ⟨position p, Ledger.position?_eq_some_iff.mpr ⟨p, hp, rfl⟩, hrealm, hfqoid⟩

/-- What is finished is neither the innermost parameter nor above it. -/
theorem not_above_of_finished (h : m.ledger.Sound) (hasker : m.underway.head? = some asker)
    (hid : id ∈ m.finished) :
    id ≠ asker ∧ ¬ m.device.Above id asker := by
  obtain ⟨rest, hunder⟩ := List.head?_eq_some_iff.mp hasker
  have hopen : ∀ other ∈ m.underway, id ≠ other := by
    intro other hother he
    exact (List.nodup_append.mp h.nodup).2.2 other hother id hid he.symm
  constructor
  · exact hopen asker (by simp [hunder])
  · intro above
    have hlineage : m.ledger.Lineage m.underway := h.lineage
    rw [hunder] at hlineage
    have hrest := Ledger.Lineage.mem_of_above above hlineage
    exact hopen id (by simp [hunder, hrest]) rfl

theorem looksUp (h : m.ledger.Sound) (hasker : m.underway.head? = some asker) :
    m.LooksUp asker templateOid := by
  have hfound : (m.registry.get? templateOid).isSome ↔
      ∃ id, m.Completed (completeOid templateOid) id := by
    rw [Option.isSome_iff_exists]
    exact exists_congr fun id => completed_iff h
  constructor
  case innermost => exact hasker
  case found => exact hfound
  case refused =>
    intro fqoid declared
    rw [bindTemplate_missing_iff, ← hfound, Option.not_isSome_iff_eq_none]
    rfl
  case other =>
    intro id hid
    obtain ⟨hfinished, p, hp, hrealm, -⟩ := (completed_iff h).mp hid
    obtain ⟨hne, habove⟩ := not_above_of_finished h hasker hfinished
    refine ⟨hne, habove, p, hp, hrealm, ?_⟩
    rw [Bool.eq_false_iff]
    intro hcommand
    cases hrealm.symm.trans (h.commands (Ledger.position?_eq_some_iff.mpr ⟨p, hp, rfl⟩) hcommand)

end Moment

/-- The start of a resolution. -/
def Watch.started (ns : String) (settings : Settings) : Watch :=
  ⟨{ progress := { device := { ns, settings } } }, []⟩

/-- A resolution of a device, watched from its start to its end. -/
def watch (ns : String) (d : Description.Device) (importRoot : Path) (source : Source) :
    EStateM.Result ResolveError Watch Unit :=
  (Watched.parts source importRoot d).run (.started ns d.settings)

def moments (ns : String) (d : Description.Device) (importRoot : Path) (source : Source) :
    List Moment :=
  (Watched.ending (watch ns d importRoot source)).moments

theorem started_sound (ns : String) (settings : Settings) :
    (Watch.started ns settings).now.ledger.Sound := by
  have hnone {id : ParamId} {P : Position}
      (hP : (Watch.started ns settings).now.ledger.position? id = some P) :
        False := by cases hP
  constructor
  case numbered => exact fun hP => (hnone hP).elim
  case commands => exact fun hP => (hnone hP).elim
  case nodup => exact List.nodup_nil
  case claimed => exact fun hm => absurd hm List.not_mem_nil
  case distinct => exact fun hm => absurd hm List.not_mem_nil
  case lineage => exact trivial
  case exact =>
    intro s id
    constructor
    · intro h
      cases h
    · rintro ⟨hm, -⟩
      exact absurd hm List.not_mem_nil

theorem started_coherent (ns : String) (settings : Settings) :
    (Watch.started ns settings).Coherent where
  sound := by
    intro m hm
    obtain rfl := List.mem_singleton.mp hm
    exact ⟨started_sound ns settings, Watched.asks_of_none rfl⟩
  grows := List.isChain_singleton _
  kept := List.pairwise_singleton _ _

/-- How the registry stands at all moments of a resolution. -/
structure RegistryExact (ns : String) (d : Description.Device) (importRoot : Path)
    (source : Source) : Prop where
  /-- What is watched is the resolution itself. -/
  watched : Watched.forget (watch ns d importRoot source) =
    (parts source importRoot d).run { device := { ns, settings := d.settings } }
  exact : ∀ m ∈ moments ns d importRoot source, ∀ fqoid id,
    m.registry.entries.get? fqoid = some id ↔ m.Completed fqoid id
  /-- Nothing is entered under an oid that has an entry. -/
  grows : (moments ns d importRoot source).IsChain fun m m' => m'.registry = m.registry ∨
    ∃ fqoid id, m.registry.entries.get? fqoid = none ∧ m'.registry = m.registry.insert fqoid id
  /-- What is registered stays so, and none of its fields changes. -/
  kept : (moments ns d importRoot source).Pairwise fun m m' => ∀ fqoid id,
    m.registry.entries.get? fqoid = some id →
    m'.registry.entries.get? fqoid = some id ∧ m'.device.param? id = m.device.param? id
  bound : ∀ m ∈ moments ns d importRoot source, ∀ asker templateOid,
    m.asked = some (asker, templateOid) → m.LooksUp asker templateOid

end Resolve

open Resolve
open Description (Declaration)

/-- At every moment of a resolution, the registry holds the finished parameters outside commands,
and nothing that is in it changes; so what looks for a template finds such a parameter, which is
never itself or above it. -/
theorem registry_exact (ns : String) (d : Description.Device) (importRoot : Path)
    (source : Source) :
    RegistryExact ns d importRoot source := by
  have hcoherent := (started_coherent ns d.settings).onward
    (Watched.parts_balanced source importRoot d _ (started_sound ns d.settings) rfl).onward
  constructor
  case watched => exact Watched.parts_shows source importRoot d _
  case exact =>
    intro m hm fqoid id
    exact Moment.completed_iff (hcoherent.sound m (List.mem_reverse.mp hm)).1
  case grows => exact List.isChain_reverse.mpr hcoherent.grows
  case kept =>
    refine List.pairwise_reverse.mpr (hcoherent.kept.imp_of_mem ?_)
    intro m' m hm' hm hkept fqoid id hid
    exact hkept.registered (hcoherent.sound m hm).1 (hcoherent.sound m' hm').1 hid
  case bound =>
    intro m hm asker templateOid hasked
    obtain ⟨hsound, hasks⟩ := hcoherent.sound m (List.mem_reverse.mp hm)
    exact Moment.looksUp hsound (hasks asker templateOid hasked)

/-- A struct with a member, another member that has the first as its template, and a third that has
the struct. -/
def insideItself : Description.Device :=
  .small
    [("a", ⟨.ofType "STRUCT",
      [("x", ⟨.ofType "INT32", []⟩),
        ("y", ⟨{ Declaration.ofType "INT32" with template := some "a/x" }, []⟩),
        ("z", ⟨{ Declaration.ofType "STRUCT" with template := some "/a" }, []⟩)]⟩)]
    []

theorem insideItself_registryExact :
    RegistryExact "m" insideItself ⟨"params"⟩ (Documents.ofList []).source ∧
      ((moments "m" insideItself ⟨"params"⟩ (Documents.ofList []).source).filterMap fun m =>
        m.asked.map fun a => (a, m.registry.get? a.2, m.underway, m.finished)) =
        [((⟨2⟩, "a/x"), some ⟨1⟩, [⟨2⟩, ⟨0⟩], [⟨1⟩]),
          ((⟨3⟩, "/a"), none, [⟨3⟩, ⟨0⟩], [⟨2⟩, ⟨1⟩])] := by
  refine ⟨registry_exact _ _ _ _, ?_⟩
  decide +kernel

end DeviceModel
