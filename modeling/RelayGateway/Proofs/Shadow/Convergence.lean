import RelayGateway.Proofs.Link.Writing
import RelayGateway.Proofs.Shadow.Effects
import RelayGateway.Proofs.Shadow.Rig

namespace RelayGateway.Shadow

open Dispatch (Board Write)
open Link (Station)

variable {α β : Type}

-- The targets that a store does not show yet.
def missing (store : Relay.Store) (targets : Targets) : Targets :=
  targets.filter fun entry => store.states[entry.1]? ≠ some entry.2

theorem forall_mem_missing {store : Relay.Store} {targets : Targets} {p : Nat × Bool → Prop}
    (h : ∀ entry ∈ targets, p entry) : ∀ entry ∈ missing store targets, p entry :=
  fun entry hentry => h entry (List.mem_filter.mp hentry).1

theorem missing_of_shown {store : Relay.Store} {index : Nat} {target : Bool}
    (h : store.states[index]? = some target) (targets : Targets) :
    missing store ((index, target) :: targets) = missing store targets := by
  unfold missing
  rw [List.filter_cons_of_neg (by simp [h])]

theorem missing_of_other {store : Relay.Store} {index : Nat} {target : Bool}
    (h : store.states[index]? ≠ some target) (targets : Targets) :
    missing store ((index, target) :: targets) = (index, target) :: missing store targets := by
  unfold missing
  rw [List.filter_cons_of_pos (by simp [h])]

theorem missing_after_setRelay {index : Nat} {targets : Targets}
    (h : ∀ entry ∈ targets, index < entry.1) (store : Relay.Store) (target : Bool) :
    missing (store.after (.setRelay index target)) targets = missing store targets := by
  apply List.filter_congr
  intro entry hentry
  have hne : index ≠ entry.1 := Nat.ne_of_lt (h entry hentry)
  rw [store.state_after_setRelay_of_ne hne]

namespace Rig

def setAll (r : Rig) (targets : Targets) : Rig :=
  targets.foldl (fun r entry => r.carryOut (.setRelay entry.1 entry.2)) r

-- Answer the queries of the engine, counted by `n`: in front of a look the worker goes on until
-- nothing waits, and in front of any other query it takes as many steps as it likes.
def prompt (pace clock : Nat → Nat) : (q : Query) → Nat × Rig → Reply q × (Nat × Rig)
  | .read index, (n, r) => (r.drain.store.get index, (n + 1, r.drain))
  | q, (n, r) =>
    let (reply, r) := (r.work (pace n)).answer (clock n) true q
    (reply, (n + 1, r))

theorem setAll_quiet {r : Rig} (hquiet : r.Quiet) (targets : Targets) :
    (r.setAll targets).Quiet ∧
      (r.setAll targets).dispatcher.queue.closed = r.dispatcher.queue.closed := by
  induction targets generalizing r with
  | nil => exact ⟨hquiet, rfl⟩
  | cons entry targets ih => exact ih (carryOut_quiet hquiet (.setRelay entry.1 entry.2))

@[simp] theorem count_setAll (r : Rig) (targets : Targets) :
    (r.setAll targets).store.count = r.store.count := by
  induction targets generalizing r with
  | nil => rfl
  | cons entry targets ih =>
      exact (ih _).trans (Relay.Store.count_after r.store (.setRelay entry.1 entry.2))

theorem setAll_states {targets : Targets} (hascending : Sorted.Ascending targets) (r : Rig)
    (index : Nat) :
    (r.setAll (missing r.store targets)).store.states[index]? =
      r.store.states[index]?.map fun state => (targets.lookup index).getD state := by
  induction targets generalizing r with
  | nil => simp [missing, setAll]
  | cons entry targets ih =>
      obtain ⟨first, target⟩ := entry
      obtain ⟨hfirst, hrest⟩ := List.pairwise_cons.mp hascending
      have hnone : targets.lookup first = none := Sorted.lookup_eq_none_of_lt hfirst
      by_cases hshown : r.store.states[first]? = some target
      · rw [missing_of_shown hshown, ih hrest, List.lookup_cons]
        by_cases hindex : index = first
        · rw [hindex, hnone, hshown]
          simp
        · rw [beq_false_of_ne hindex]
      · let r' := r.carryOut (.setRelay first target)
        have hsame : missing r'.store targets = missing r.store targets :=
          missing_after_setRelay hfirst r.store target
        have hrun : r.setAll (missing r.store ((first, target) :: targets)) =
            r'.setAll (missing r'.store targets) := by
          rw [missing_of_other hshown, hsame]
          rfl
        rw [hrun, ih hrest, List.lookup_cons]
        change ((r.store.states.set first target)[index]?).map _ = _
        by_cases hindex : index = first
        · rw [hindex, List.getElem?_set_self', hnone]
          cases r.store.states[first]? <;> simp
        · rw [List.getElem?_set_ne (Ne.symm hindex), beq_false_of_ne hindex]

theorem missing_setAll {targets : Targets} (hascending : Sorted.Ascending targets) (r : Rig)
    (hlt : ∀ entry ∈ targets, entry.1 < r.store.count) :
    missing (r.setAll (missing r.store targets)).store targets = [] := by
  apply List.filter_eq_nil_iff.mpr
  intro entry hentry
  have hindex : entry.1 < r.store.states.length := hlt entry hentry
  have hbefore := List.getElem?_eq_getElem hindex
  have hafter := setAll_states hascending r entry.1
  rw [hascending.lookup_eq hentry, hbefore] at hafter
  simp [hafter]

def toggleFrame (relay : UInt32) : List UInt8 :=
  let payload := (DeviceCommand.toggleRelay relay).toBytes
  Frame.lengthField payload.length ++ payload

theorem setAll_sent (r : Rig) (targets : Targets) :
    ∃ writes, (r.setAll targets).writes = r.writes ++ writes ∧
      ((∀ write ∈ writes, write.result = .ok ()) →
        (r.setAll targets).station.wire.sent =
          r.station.wire.sent ++ targets.map fun entry => toggleFrame entry.1.toUInt32) := by
  induction targets generalizing r with
  | nil => exact ⟨[], (List.append_nil _).symm, fun _ => (List.append_nil _).symm⟩
  | cons entry targets ih =>
      let payload := Board.payload (.setRelay entry.1 entry.2)
      obtain ⟨writes, hwrites, hsent⟩ := ih (r.carryOut (.setRelay entry.1 entry.2))
      refine ⟨⟨payload, (r.station.writeFrame payload).1⟩ :: writes, ?_, ?_⟩
      · change ((r.carryOut (.setRelay entry.1 entry.2)).setAll targets).writes = _
        rw [hwrites]
        exact List.append_assoc ..
      · intro hall
        obtain ⟨hfirst, hrest⟩ := List.forall_mem_cons.mp hall
        have hframe := Station.writeFrame_sent hfirst
        change ((r.carryOut (.setRelay entry.1 entry.2)).setAll targets).station.wire.sent = _
        rw [hsent hrest]
        change (r.station.writeFrame payload).2.wire.sent ++ _ = _
        rw [hframe, List.append_assoc]
        rfl

-- With relay numbers of 32 bits, each frame names just the relay of its target.
theorem setAll_frames (r : Rig) {targets : Targets} (hlt : ∀ entry ∈ targets, entry.1 < 2 ^ 32) :
    ∃ writes, (r.setAll targets).writes = r.writes ++ writes ∧
      ((∀ write ∈ writes, write.result = .ok ()) →
        ∃ relays : List UInt32, relays.map (·.toNat) = targets.map Prod.fst ∧
          (r.setAll targets).station.wire.sent =
            r.station.wire.sent ++ relays.map toggleFrame) := by
  obtain ⟨writes, hwrites, hsent⟩ := r.setAll_sent targets
  refine ⟨writes, hwrites, fun hall => ⟨targets.map fun entry => entry.1.toUInt32, ?_, ?_⟩⟩
  · rw [List.map_map]
    apply List.map_congr_left
    intro entry hentry
    exact Nat.mod_eq_of_lt (hlt entry hentry)
  · rw [hsent hall, List.map_map]
    rfl

end Rig

-- At every pace a talk has these effects and this result, and leaves the rig like this.
def Does (r : Rig) (d : Talk α) (course : List Query) (result : α) (r' : Rig) : Prop :=
  ∀ pace clock n, ∃ m, d.run (Rig.prompt pace clock) (n, r) = (result, (m, r')) ∧
    effects (d.trace (Rig.prompt pace clock) (n, r)) = course

namespace Does

variable {r r' r'' : Rig} {course later : List Query} {a : α} {b : β}

theorem done (r : Rig) (a : α) : Does r (.done a) [] a r :=
  fun _ _ n => ⟨n, rfl, rfl⟩

theorem bind {d : Talk α} {f : α → Talk β} (h : Does r d course a r')
    (h' : Does r' (f a) later b r'') : Does r (d >>= f) (course ++ later) b r'' := by
  intro pace clock n
  obtain ⟨m, hrun, htrace⟩ := h pace clock n
  obtain ⟨m', hrun', htrace'⟩ := h' pace clock m
  refine ⟨m', ?_, ?_⟩
  · rw [Dialogue.run_bind, hrun, hrun']
  · rw [Dialogue.trace_bind, effects_append, htrace, hrun, htrace']

theorem ask {q : Query} {next : Reply q → Talk α}
    (h : ∀ pace clock n, Does (Rig.prompt pace clock q (n, r)).2.2
      (next (Rig.prompt pace clock q (n, r)).1) course a r') :
    Does r (.ask q next) ((if q.isEffect then [q] else []) ++ course) a r' := by
  intro pace clock n
  obtain ⟨m, hrun, htrace⟩ := h pace clock n pace clock (Rig.prompt pace clock q (n, r)).2.1
  refine ⟨m, hrun, ?_⟩
  rw [Dialogue.trace_ask, effects_cons, htrace]
  split <;> rfl

theorem read {index : Nat} {f : Except Relay.StoreError Bool → Talk α}
    (h : Does r.drain (f (r.drain.store.get index)) course a r') :
    Does r (read index >>= f) course a r' :=
  ask fun _ _ _ => h

theorem uptime {f : Nat → Talk α} (h : ∀ steps now, Does (r.work steps) (f now) course a r') :
    Does r (uptime >>= f) course a r' :=
  ask fun pace clock n => h (pace n) (clock n)

theorem sleep {length : Duration} {f : Unit → Talk α}
    (h : ∀ steps, Does (r.work steps) (f ()) course a r') :
    Does r (sleep length >>= f) (.sleep length :: course) a r' :=
  ask fun pace _ n => h (pace n)

theorem publish {topic text : String} {f : Bool → Talk α}
    (h : ∀ steps, Does (r.work steps) (f true) course a r') :
    Does r (publish topic text >>= f) (.publish topic text :: course) a r' :=
  ask fun pace _ n => h (pace n)

theorem say {notice : Notice} {f : Unit → Talk α}
    (h : ∀ steps, Does (r.work steps) (f ()) course a r') :
    Does r (say notice >>= f) course a r' :=
  ask fun pace _ n => h (pace n)

theorem submit {command : Command} {f : Except Dispatch.Error Unit → Talk α} (hquiet : r.Quiet)
    (hopen : r.dispatcher.queue.closed = false)
    (h : Does (r.submitted command) (f (.ok ())) course a r') :
    Does r (submit command >>= f) (.submit command :: course) a r' := by
  refine ask fun pace clock n => ?_
  have hanswer : Rig.prompt pace clock (.submit command) (n, r) =
      (.ok (), (n + 1, r.submitted command)) := by
    simp only [Rig.prompt, Rig.work_of_quiet hquiet, Rig.answer_submit hquiet hopen]
  rw [hanswer]
  exact h

end Does

namespace Engine

variable {e : Engine}

-- The effects of a message by the relays that it changes: a pause unless it is the first command,
-- the command, the settle time, and the report.
def course (e : Engine) : (issued : Bool) → Targets → List Query
  | _, [] => []
  | issued, (index, target) :: rest =>
    e.pause issued ++ .submit (.setRelay index target) :: .sleep e.settings.settle ::
      .publish e.topics.update (relayReport index target) :: e.course true rest

theorem does_look {r r' : Rig} {index deadline : Nat} {target : Bool}
    {again : Talk (Option Verdict)} (hdrain : r.drain = r')
    (hstate : r'.store.get index = .ok target) :
    Does r (look index target deadline again) [] (some .reached) r' := by
  refine Does.read ?_
  rw [hdrain, hstate]
  simp only [if_true]
  exact Does.done r' _

theorem does_verify {r r' : Rig} {index deadline polls : Nat} {target : Bool} (hdrain : r.drain = r')
    (hstate : r'.store.get index = .ok target) :
    Does r (verify index target deadline polls) [] (some .reached) r' := by
  cases polls <;> exact does_look hdrain hstate

theorem does_report {r : Rig} (hquiet : r.Quiet) (text failure : String) :
    Does r (e.report text failure) [.publish e.topics.update text] true r := by
  refine Does.publish fun steps => ?_
  rw [Rig.work_of_quiet hquiet]
  exact Does.done r true

-- A command that the worker carries out in time is verified at the first look.
theorem does_apply {r : Rig} (hquiet : r.Quiet) (hopen : r.dispatcher.queue.closed = false)
    {index : Nat} (hindex : index < r.store.count) (polls : Nat) (sync : Sync) (target : Bool) :
    Does r (e.apply polls sync index target)
      [.submit (.setRelay index target), .sleep e.settings.settle,
        .publish e.topics.update (relayReport index target)]
      (some (.ok (), sync.set index .reported)) (r.carryOut (.setRelay index target)) := by
  have hfits : Command.Fits r.store.count (.setRelay index target) := hindex
  have hstate : (r.carryOut (.setRelay index target)).store.get index = .ok target := by
    apply Relay.Store.get_eq_ok_iff.mpr
    exact Relay.Store.state_after_setRelay hindex target
  refine Does.submit hquiet hopen (Does.uptime fun steps now => Does.sleep fun more => ?_)
  rw [← Rig.work_add]
  refine (does_verify (Rig.drain_submitted hquiet hfits _) hstate).bind ?_
  refine (does_report (Rig.carryOut_quiet hquiet _) _ _).bind ?_
  exact Does.done _ _

theorem does_sayAll {r : Rig} (hquiet : r.Quiet) (notices : List Notice) :
    Does r (sayAll notices) [] () r := by
  induction notices with
  | nil => exact Does.done r ()
  | cons notice notices ih =>
      refine Does.say fun steps => ?_
      rw [Rig.work_of_quiet hquiet]
      exact ih

theorem does_pause {r r' : Rig} (hquiet : r.Quiet) {issued : Bool} {next : Talk α}
    {later : List Query} {a : α} (hnext : Does r next later a r') :
    Does r (if issued then do sleep e.settings.gap; next else next) (e.pause issued ++ later) a r' := by
  cases issued with
  | false => exact hnext
  | true =>
      refine Does.sleep fun steps => ?_
      rw [Rig.work_of_quiet hquiet]
      exact hnext

theorem does_reconcile {r : Rig} (hquiet : r.Quiet) (hopen : r.dispatcher.queue.closed = false)
    {targets : Targets} (hascending : Sorted.Ascending targets)
    (hlt : ∀ entry ∈ targets, entry.1 < r.store.count) (polls : Nat) (issued : Bool)
    (sync : Sync) :
    ∃ sync' : Sync, sync'.length = sync.length ∧
      Does r (e.reconcile polls issued targets sync) (e.course issued (missing r.store targets))
        (some sync') (r.setAll (missing r.store targets)) := by
  -- the worker has nothing left to do after each entry, which is what the rest starts from
  induction targets generalizing r issued sync with
  | nil => exact ⟨sync, rfl, Does.done r _⟩
  | cons entry targets ih =>
      obtain ⟨index, target⟩ := entry
      obtain ⟨hfirst, hrest⟩ := List.pairwise_cons.mp hascending
      obtain ⟨hindex, hlt⟩ := List.forall_mem_cons.mp hlt
      obtain ⟨state, hstate⟩ : ∃ state, r.store.states[index]? = some state :=
        ⟨_, List.getElem?_eq_getElem hindex⟩
      have hread : r.store.get index = .ok state := Relay.Store.get_eq_ok_iff.mpr hstate
      by_cases hreached : state = target
      · rw [hreached] at hstate
        obtain ⟨sync', hlength, hdoes⟩ := ih hquiet hopen hrest hlt issued (sync.set index .synced)
        refine ⟨sync', hlength.trans List.length_set, Does.read ?_⟩
        rw [Rig.drain_of_quiet hquiet, hread, missing_of_shown hstate]
        simp only [hreached, if_true]
        exact hdoes
      · have hother : r.store.states[index]? ≠ some target := by
          rw [hstate]
          exact fun h => hreached (Option.some.inj h)
        let r' := r.carryOut (.setRelay index target)
        have hcount : r'.store.count = r.store.count :=
          Relay.Store.count_after r.store (.setRelay index target)
        -- the later entries are about other relays, so they are missing as before
        have hsame : missing r'.store targets = missing r.store targets :=
          missing_after_setRelay hfirst r.store target
        obtain ⟨sync', hlength, hdoes⟩ := ih (r := r') (Rig.carryOut_quiet hquiet _) hopen hrest
          (by rw [hcount]; exact hlt) true (sync.set index .reported)
        refine ⟨sync', hlength.trans List.length_set, Does.read ?_⟩
        rw [Rig.drain_of_quiet hquiet, hread, missing_of_other hother]
        simp only [hreached, if_false]
        refine does_pause hquiet ?_
        rw [hsame] at hdoes
        have happly := does_apply (e := e) hquiet hopen hindex polls sync target
        exact happly.bind ((Does.done r' ()).bind hdoes)

theorem targets?_lt_count {store : Relay.Store} {sync : Sync} (hsync : sync.length = store.count)
    (topic : String) (payload : List UInt8) :
    ∀ entry ∈ (e.targets? sync.length topic payload).getD [], entry.1 < store.count := by
  intro entry hentry
  rw [← hsync]
  exact targets?_lt hentry

theorem does_handleWithin {r : Rig} (hquiet : r.Quiet) (hopen : r.dispatcher.queue.closed = false)
    {sync : Sync} (hsync : sync.length = r.store.count) (polls : Nat) (topic : String)
    (payload : List UInt8) :
    let changed := missing r.store ((e.targets? sync.length topic payload).getD [])
    ∃ sync' : Sync, sync'.length = sync.length ∧
      Does r (e.handleWithin polls sync topic payload) (e.course false changed) (some sync')
        (r.setAll changed) := by
  have hlt := e.targets?_lt_count hsync topic payload
  obtain ⟨notices, heq⟩ := e.handleWithin_eq polls sync topic payload
  obtain ⟨sync', hlength, hdoes⟩ :=
    does_reconcile hquiet hopen (e.targets?_ascending _ _ _) hlt polls false sync
  refine ⟨sync', hlength, ?_⟩
  rw [heq]
  exact (does_sayAll hquiet notices).bind hdoes

-- A message brings the store to its targets, has one frame sent and one report published for each
-- relay that differed, and does nothing when it comes again.
theorem handleWithin_converges {r : Rig} (hquiet : r.Quiet)
    (hopen : r.dispatcher.queue.closed = false) (hrelays : r.store.count ≤ 2 ^ 32) {sync : Sync}
    (hsync : sync.length = r.store.count) {topic : String} {payload : List UInt8}
    {targets : Targets} (htargets : e.targets? sync.length topic payload = some targets)
    (polls : Nat) (pace clock : Nat → Nat) (n : Nat) :
    let talk := e.handleWithin polls sync topic payload
    let run := talk.run (Rig.prompt pace clock) (n, r)
    let last := run.2.2
    let changed := missing r.store targets
    (∀ index, last.store.states[index]? =
        r.store.states[index]?.map fun state => (targets.lookup index).getD state) ∧
      Sorted.Ascending changed ∧
      effects (talk.trace (Rig.prompt pace clock) (n, r)) = e.course false changed ∧
      (∃ writes, last.writes = r.writes ++ writes ∧
        ((∀ write ∈ writes, write.result = .ok ()) →
          ∃ relays : List UInt32, relays.map (·.toNat) = changed.map Prod.fst ∧
            last.station.wire.sent = r.station.wire.sent ++ relays.map Rig.toggleFrame)) ∧
      ∃ sync', run.1 = some sync' ∧ ∀ polls' pace' clock' n',
        let again := e.handleWithin polls' sync' topic payload
        effects (again.trace (Rig.prompt pace' clock') (n', last)) = [] ∧
          (again.run (Rig.prompt pace' clock') (n', last)).2.2 = last := by
  intro talk run last changed
  have hascending := e.targets?_ascending sync.length topic payload
  have hlt := e.targets?_lt_count hsync topic payload
  obtain ⟨sync', hlength, hdoes⟩ := does_handleWithin (e := e) hquiet hopen hsync polls topic payload
  rw [htargets, Option.getD_some] at hascending hlt hdoes
  obtain ⟨m, hrun, htrace⟩ := hdoes pace clock n
  have hlast : last = r.setAll changed := congrArg (·.2.2) hrun
  obtain ⟨hquiet', hclosed⟩ := Rig.setAll_quiet hquiet changed
  have hword : ∀ entry ∈ changed, entry.1 < 2 ^ 32 := forall_mem_missing fun entry hentry =>
    Nat.lt_of_lt_of_le (hlt entry hentry) hrelays
  rw [hlast]
  refine ⟨Rig.setAll_states hascending r, hascending.filter _, htrace, r.setAll_frames hword, sync',
    congrArg Prod.fst hrun, ?_⟩
  -- the second time no target is missing, so nothing is left to do
  intro polls' pace' clock' n' again
  have hsync' : sync'.length = (r.setAll changed).store.count := by
    rw [hlength, hsync, Rig.count_setAll]
  obtain ⟨sync'', _, hagain⟩ := does_handleWithin (e := e) hquiet' (hclosed.trans hopen) hsync' polls'
    topic payload
  rw [hlength, htargets, Option.getD_some, Rig.missing_setAll hascending r hlt] at hagain
  obtain ⟨m', hrun', htrace'⟩ := hagain pace' clock' n'
  exact ⟨htrace', congrArg (·.2.2) hrun'⟩

def threeOff : Rig where
  dispatcher := { board := { store := .new 3, labels := [] } }
  station := openStation

def mixedRun : Option Sync × Nat × Rig := mixedTalk.run (Rig.prompt (· % 2) (10 * ·)) (0, threeOff)

theorem handleWithin_converges_mixedDelta :
    let topic := verdure.topics.topic .updateDelta
    let last := mixedRun.2.2
    threeOff.Quiet ∧ threeOff.dispatcher.queue.closed = false ∧ threeOff.store.count ≤ 2 ^ 32 ∧
      verdure.targets? 3 topic mixedDelta = some [(0, false), (1, true), (2, true)] ∧
      last.AllWritten ∧ last.store.states = [false, true, true] ∧
      effects (mixedTalk.trace (Rig.prompt (· % 2) (10 * ·)) (0, threeOff)) =
        verdure.course false [(1, true), (2, true)] ∧
      (∃ relays : List UInt32, relays.map (·.toNat) = [1, 2] ∧
        last.station.wire.sent = relays.map Rig.toggleFrame) ∧
      ∃ sync', mixedRun.1 = some sync' ∧
        effects ((verdure.handleWithin 1 sync' topic mixedDelta).trace
          (Rig.prompt (· % 2) (10 * ·)) (0, last)) = [] := by
  intro topic last
  have hquiet : threeOff.Quiet := by decide
  have hrelays : threeOff.store.count ≤ 2 ^ 32 := by decide
  have htargets : verdure.targets? 3 (verdure.topics.topic .updateDelta) mixedDelta =
      some [(0, false), (1, true), (2, true)] := by decide +kernel
  have hwritten : mixedRun.2.2.AllWritten := by decide +kernel
  have hstates : mixedRun.2.2.store.states = [false, true, true] := by decide +kernel
  obtain ⟨-, -, heffects, ⟨writes, hwrites, hsent⟩, sync', hsync', hagain⟩ :=
    handleWithin_converges (e := verdure) hquiet rfl hrelays
      (show List.length [SyncState.waiting, .waiting, .waiting] = _ from rfl) htargets 1 (· % 2)
      (10 * ·) 0
  have hall : ∀ write ∈ writes, write.result = .ok () := by
    intro write hwrite
    apply hwritten
    have hlast : mixedRun.2.2.writes = threeOff.writes ++ writes := hwrites
    rw [hlast]
    exact List.mem_append_right threeOff.writes hwrite
  exact ⟨hquiet, rfl, hrelays, htargets, hwritten, hstates, heffects, hsent hall, sync', hsync',
    (hagain 1 (· % 2) (10 * ·) 0).1⟩

end Engine

end RelayGateway.Shadow
