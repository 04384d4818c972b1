import RelayGateway.Proofs.Shadow.Convergence
import RelayGateway.Proofs.Shadow.Reports

namespace RelayGateway.Shadow

open RelayGateway.Text (toBytes)

theorem missing_lookup {targets : Targets} (h : Sorted.Ascending targets) {entry : Nat × Bool}
    (hentry : entry ∈ targets) (store : Relay.Store) :
    (missing store targets).lookup entry.1 =
      if store.states[entry.1]? = some entry.2 then none else some entry.2 := by
  unfold missing
  rw [h.lookup_filter, h.lookup_eq hentry]
  by_cases hshown : store.states[entry.1]? = some entry.2
  · rw [if_pos hshown]
    exact if_neg (by simp [hshown])
  · rw [if_neg hshown]
    exact if_pos (by simp [hshown])

def Query.Reports (relays index : Nat) : Query → Prop
  | .publish _ text =>
    ∃ full, Full.ofBytes? relays (toBytes text) = some full ∧ (full.reported.lookup index).isSome
  | _ => False

theorem reports_relayReport {relays index : Nat} (hindex : index < relays)
    (hword : index + 1 < 2 ^ 64) (topic : String) (state : Bool) (other : Nat) :
    Query.Reports relays other (.publish topic (relayReport index state)) ↔ other = index := by
  have hread := ofBytes?_relayReport hindex hword state
  constructor
  · rintro ⟨full, hfull, hlookup⟩
    obtain rfl := Option.some.inj (hread.symm.trans hfull)
    by_contra hne
    simp [List.lookup_cons, beq_false_of_ne hne] at hlookup
  · rintro rfl
    exact ⟨_, hread, by simp⟩

namespace Engine

variable {e : Engine}

-- What the remote side holds as reported after an effect of the engine: the states in a published
-- update take the place of those it had.
def absorb (e : Engine) (relays : Nat) (remote : Targets) : Query → Targets
  | .publish topic text =>
    if topic = e.topics.update then
      match Full.ofBytes? relays (toBytes text) with
      | none => remote
      | some full =>
        full.reported.foldl (fun remote (index, state) => Sorted.insert index state remote) remote
    else remote
  | _ => remote

def Repaired (full : Full) (remote : Targets) (store : Relay.Store) : Prop :=
  ∀ entry ∈ full.desired, remote.lookup entry.1 = store.states[entry.1]?

instance (full : Full) (remote : Targets) (store : Relay.Store) :
    Decidable (Repaired full remote store) :=
  inferInstanceAs (Decidable (∀ entry ∈ full.desired, _))

theorem foldl_absorb_course {relays : Nat} {targets : Targets}
    (hlt : ∀ entry ∈ targets, entry.1 < relays) (hword : ∀ entry ∈ targets, entry.1 + 1 < 2 ^ 64)
    (issued : Bool) (remote : Targets) :
    (e.course issued targets).foldl (e.absorb relays) remote =
      targets.foldl (fun remote (index, state) => Sorted.insert index state remote) remote := by
  induction targets generalizing issued remote with
  | nil => rfl
  | cons entry targets ih =>
      obtain ⟨index, target⟩ := entry
      obtain ⟨hindex, hlt⟩ := List.forall_mem_cons.mp hlt
      obtain ⟨hfirst, hword⟩ := List.forall_mem_cons.mp hword
      have hreport : e.absorb relays remote (.publish e.topics.update (relayReport index target)) =
          Sorted.insert index target remote := by
        simp only [absorb, if_true, ofBytes?_relayReport hindex hfirst]
        rfl
      have hpause : (e.pause issued).foldl (e.absorb relays) remote = remote := by
        cases issued <;> rfl
      rw [course, List.foldl_append, hpause]
      change (e.course true targets).foldl (e.absorb relays)
        (e.absorb relays remote (.publish e.topics.update (relayReport index target))) = _
      rw [hreport, ih hlt hword]
      rfl

theorem exists_reports_course {relays : Nat} {targets : Targets}
    (hlt : ∀ entry ∈ targets, entry.1 < relays) (hword : ∀ entry ∈ targets, entry.1 + 1 < 2 ^ 64)
    (issued : Bool) (index : Nat) :
    (∃ query ∈ e.course issued targets, query.Reports relays index) ↔
      (targets.lookup index).isSome := by
  induction targets generalizing issued with
  | nil => simp [course]
  | cons entry targets ih =>
      obtain ⟨other, target⟩ := entry
      obtain ⟨hother, hlt⟩ := List.forall_mem_cons.mp hlt
      obtain ⟨hfirst, hword⟩ := List.forall_mem_cons.mp hword
      have hpause : ¬ ∃ query ∈ e.pause issued, query.Reports relays index := by
        cases issued <;> simp [pause, Query.Reports]
      have hreport := reports_relayReport hother hfirst e.topics.update target index
      simp only [course, List.mem_append, List.mem_cons, or_and_right, exists_or, hpause,
        exists_eq_left, hreport, ih hlt hword true, false_or]
      by_cases h : index = other
      · simp [h]
      · simp [Query.Reports, List.lookup_cons, beq_false_of_ne h, h]

theorem targets?_of_full {topic : String} (htopic : e.topics.classify topic = some .getAccepted)
    {relays : Nat} {payload : List UInt8} {full : Full}
    (hfull : Full.ofBytes? relays payload = some full) :
    e.targets? relays topic payload = some full.desired := by
  simp only [targets?, htopic, hfull, Option.map_some]

theorem desired_word {relays : Nat} {payload : List UInt8} {full : Full}
    (hfull : Full.ofBytes? relays payload = some full) :
    ∀ entry ∈ full.desired, entry.1 + 1 < 2 ^ 64 := by
  obtain ⟨partitions, -, rfl⟩ := Option.map_eq_some_iff.mp hfull
  intro entry hentry
  exact index_lt_of_mem_targets hentry

theorem exists_reports_missing {store : Relay.Store} {relays : Nat} {targets : Targets}
    (hascending : Sorted.Ascending targets) (hlt : ∀ entry ∈ targets, entry.1 < relays)
    (hword : ∀ entry ∈ targets, entry.1 + 1 < 2 ^ 64) {entry : Nat × Bool}
    (hentry : entry ∈ targets) :
    (∃ query ∈ e.course false (missing store targets), query.Reports relays entry.1) ↔
      store.states[entry.1]? ≠ some entry.2 := by
  rw [exists_reports_course (forall_mem_missing hlt) (forall_mem_missing hword),
    missing_lookup hascending hentry]
  by_cases hshown : store.states[entry.1]? = some entry.2
  · simp [hshown]
  · simp [hshown]

-- The remote takes over what is missing in the store, and keeps what it had of the other relays.
theorem lookup_absorb_missing {store : Relay.Store} {relays : Nat} {targets : Targets}
    (hascending : Sorted.Ascending targets) (hlt : ∀ entry ∈ targets, entry.1 < relays)
    (hword : ∀ entry ∈ targets, entry.1 + 1 < 2 ^ 64) (remote : Targets) {entry : Nat × Bool}
    (hentry : entry ∈ targets) :
    ((e.course false (missing store targets)).foldl (e.absorb relays) remote).lookup entry.1 =
      if store.states[entry.1]? = some entry.2 then remote.lookup entry.1 else some entry.2 := by
  have hchanged : Sorted.Ascending (missing store targets) := hascending.filter _
  rw [foldl_absorb_course (forall_mem_missing hlt) (forall_mem_missing hword)]
  refine (hchanged.lookup_foldl_insert remote entry.1).trans ?_
  rw [missing_lookup hascending hentry]
  split <;> rfl

-- Once a full shadow is handled, the store shows what it desires. A relay is reported exactly if the
-- store differed before; the remote holds its target then, and else what the document reported.
theorem handleWithin_repaired_iff {r : Rig} (hquiet : r.Quiet)
    (hopen : r.dispatcher.queue.closed = false) {sync : Sync} (hsync : sync.length = r.store.count)
    {topic : String} (htopic : e.topics.classify topic = some .getAccepted) {payload : List UInt8}
    {full : Full} (hfull : Full.ofBytes? sync.length payload = some full) (polls : Nat)
    (pace clock : Nat → Nat) (n : Nat) :
    let talk := e.handleWithin polls sync topic payload
    let store := (talk.run (Rig.prompt pace clock) (n, r)).2.2.store
    let asked := effects (talk.trace (Rig.prompt pace clock) (n, r))
    let remote := asked.foldl (e.absorb sync.length) full.reported
    asked = e.course false (missing r.store full.desired) ∧
      (∀ entry ∈ full.desired, store.states[entry.1]? = some entry.2 ∧
        ((∃ query ∈ asked, query.Reports sync.length entry.1) ↔
          r.store.states[entry.1]? ≠ some entry.2) ∧
        remote.lookup entry.1 =
          if r.store.states[entry.1]? = some entry.2 then full.reported.lookup entry.1
          else some entry.2) ∧
      (Repaired full remote store ↔ ∀ entry ∈ full.desired,
        r.store.states[entry.1]? = some entry.2 → full.reported.lookup entry.1 = some entry.2) := by
  intro talk store asked remote
  have hascending := e.targets?_ascending sync.length topic payload
  have hlt := e.targets?_lt_count hsync topic payload
  obtain ⟨sync', -, hdoes⟩ := does_handleWithin (e := e) hquiet hopen hsync polls topic payload
  rw [targets?_of_full htopic hfull, Option.getD_some] at hascending hlt hdoes
  obtain ⟨m, hrun, htrace⟩ := hdoes pace clock n
  have hasked : asked = e.course false (missing r.store full.desired) := htrace
  have hstore : store = (r.setAll (missing r.store full.desired)).store :=
    congrArg (·.2.2.store) hrun
  have hword := desired_word hfull
  have hlength : ∀ entry ∈ full.desired, entry.1 < sync.length := fun entry hentry =>
    hsync ▸ hlt entry hentry
  have hentries : ∀ entry ∈ full.desired, store.states[entry.1]? = some entry.2 ∧
      ((∃ query ∈ asked, query.Reports sync.length entry.1) ↔
        r.store.states[entry.1]? ≠ some entry.2) ∧
      remote.lookup entry.1 =
        if r.store.states[entry.1]? = some entry.2 then full.reported.lookup entry.1
        else some entry.2 := by
    intro entry hentry
    have hlookup : full.desired.lookup entry.1 = some entry.2 := hascending.lookup_eq hentry
    have hindex : entry.1 < r.store.states.length := hlt entry hentry
    refine ⟨?_, ?_, ?_⟩
    · rw [hstore, Rig.setAll_states hascending, hlookup, List.getElem?_eq_getElem hindex]
      rfl
    · rw [hasked]
      exact exists_reports_missing hascending hlength hword hentry
    · simp only [remote, hasked]
      exact lookup_absorb_missing hascending hlength hword full.reported hentry
  refine ⟨hasked, hentries, forall₂_congr fun entry hentry => ?_⟩
  obtain ⟨hafter, -, hheld⟩ := hentries entry hentry
  rw [hafter, hheld]
  by_cases hshown : r.store.states[entry.1]? = some entry.2
  · simp [hshown]
  · simp [hshown]

def crossedShadow : List UInt8 :=
  toBytes ("\x7b\"state\":\x7b\"desired\":\x7b\"relay1\":\x7b\"state\":true\x7d," ++
    "\"relay2\":\x7b\"state\":false\x7d\x7d,\"reported\":\x7b\"relay1\":\x7b\"state\":false\x7d," ++
    "\"relay2\":\x7b\"state\":true\x7d\x7d\x7d\x7d")

def crossedTalk : Talk (Option Sync) :=
  verdure.handleWithin 1 [.waiting, .waiting, .waiting] (verdure.topics.topic .getAccepted)
    crossedShadow

def crossedRun : Option Sync × Nat × Rig :=
  crossedTalk.run (Rig.prompt (· % 2) (10 * ·)) (0, threeOff)

-- The first relay is switched and reported. The second is off as desired, so it is not reported, and
-- the remote goes on to show it as on.
theorem handleWithin_repaired_iff_crossedShadow :
    let full : Full := ⟨[(0, true), (1, false)], [(0, false), (1, true)], []⟩
    let asked := effects (crossedTalk.trace (Rig.prompt (· % 2) (10 * ·)) (0, threeOff))
    let remote := asked.foldl (verdure.absorb 3) full.reported
    Full.ofBytes? 3 crossedShadow = some full ∧
      crossedRun.2.2.store.states[0]? = some true ∧ remote.lookup 0 = some true ∧
      crossedRun.2.2.store.states[1]? = some false ∧ remote.lookup 1 = some true ∧
      (∃ query ∈ asked, query.Reports 3 0) ∧ (¬ ∃ query ∈ asked, query.Reports 3 1) ∧
      ¬ Repaired full remote crossedRun.2.2.store := by
  intro full asked remote
  have hquiet : threeOff.Quiet := by decide
  have htopic : verdure.topics.classify (verdure.topics.topic .getAccepted) = some .getAccepted := by
    decide +kernel
  have hfull : Full.ofBytes? 3 crossedShadow = some full := by decide +kernel
  obtain ⟨-, hentries, hrepaired⟩ := handleWithin_repaired_iff (e := verdure) hquiet rfl
    (show List.length [SyncState.waiting, .waiting, .waiting] = _ from rfl) htopic hfull 1 (· % 2)
    (10 * ·) 0
  obtain ⟨hon, hreported, hheld⟩ := hentries (0, true) (by simp [full])
  obtain ⟨hoff, hkept, hstale⟩ := hentries (1, false) (by simp [full])
  refine ⟨hfull, hon, hheld, hoff, hstale, hreported.mpr (by decide), ?_, ?_⟩
  · exact fun hsecond => hkept.mp hsecond rfl
  · exact fun h => absurd (hrepaired.mp h (1, false) (by simp [full]) rfl) (by decide)

def staleShadow : List UInt8 :=
  toBytes ("\x7b\"state\":\x7b\"desired\":\x7b\"relay1\":\x7b\"state\":true\x7d\x7d," ++
    "\"reported\":\x7b\"relay1\":\x7b\"state\":false\x7d\x7d\x7d\x7d")

-- The relay is on already, so nothing is published.
theorem staleShadow_not_repaired :
    let r : Rig :=
      { dispatcher := { board := { store := ⟨[true]⟩, labels := [] } }, station := openStation }
    let full : Full := ⟨[(0, true)], [(0, false)], []⟩
    let talk := verdure.handleWithin 1 [.waiting] (verdure.topics.topic .getAccepted) staleShadow
    let surroundings := Rig.prompt (· % 2) (10 * ·)
    Full.ofBytes? 1 staleShadow = some full ∧
      ¬ Repaired full
        ((effects (talk.trace surroundings (0, r))).foldl (verdure.absorb 1) full.reported)
        (talk.run surroundings (0, r)).2.2.store := by
  intro r full talk surroundings
  exact ⟨by decide +kernel, by decide +kernel⟩

end Engine

end RelayGateway.Shadow
