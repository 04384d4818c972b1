import RelayGateway.Bench.Polling
import RelayGateway.Proofs.Frame.Noise
import RelayGateway.Proofs.Link.Reading
import RelayGateway.Proofs.Telemetry.Packed

namespace RelayGateway

open Telemetry (CycleResult Poller Reading Record Received Snapshot)
open Bench (Polling)
open RelayGateway.Frame (openingMarker payloadLimit transmission)

namespace Link.Station

-- What an open link has still to bring: these readings, and no failure.
structure Brings (s : Station) (readings : List Reading) : Prop where
  isOpen : s.transport.isOpen = true
  soft : ∀ read ∈ s.wire.unread, read.isSoft
  payloads : s.transport.decoder.payloads (bytesOf s.wire.unread) = readings.map Reading.toBytes
  fitting : ∀ reading ∈ readings, reading.toBytes.length ≤ payloadLimit

theorem Brings.nil_of_exhausted {s : Station} {readings : List Reading} (h : s.Brings readings)
    (hunread : s.wire.unread = []) : readings = [] := by
  have hpayloads := h.payloads
  rw [hunread, bytesOf_nil, Frame.Decoder.payloads_nil] at hpayloads
  exact List.map_eq_nil_iff.mp hpayloads.symm

theorem receive_of_ok {s : Station} {frame : Option (List UInt8)} (hopen : s.transport.isOpen)
    (h : s.readFrame.1 = .ok frame) :
    Telemetry.receive s =
      frame.elim (.nothing, s.readFrame.2) (Received.ofPayload s.readFrame.2) := by
  rw [Telemetry.receive, if_pos hopen]
  generalize s.readFrame = run at h ⊢
  obtain ⟨result, t⟩ := run
  obtain rfl : result = .ok frame := h
  cases frame <;> rfl

theorem receive_of_brings {s : Station} {readings : List Reading} (h : s.Brings readings) :
    ∃ (found : Option Reading) (rest : List Reading), readings = found.toList ++ rest ∧
      Telemetry.receive s = (found.elim .nothing .reading, s.readFrame.2) ∧
      s.readFrame.2.Brings rest := by
  obtain ⟨frame, taken, hresult, hunread, hdecoder, hopen, hfound⟩ :=
    readWithin_spec h.isOpen h.soft s.transport.retry
  have hpayloads := h.payloads
  rw [hunread, bytesOf_append, Frame.Decoder.payloads_append, hfound, ← hdecoder] at hpayloads
  have hsoft : ∀ read ∈ s.readFrame.2.wire.unread, read.isSoft := fun read hread =>
    h.soft read (hunread ▸ List.mem_append_right taken hread)
  rw [receive_of_ok h.isOpen hresult]
  cases frame with
  | none => exact ⟨none, readings, rfl, rfl, ⟨hopen, hsoft, hpayloads, h.fitting⟩⟩
  | some payload =>
      cases readings with
      | nil => cases hpayloads
      | cons reading rest =>
          obtain ⟨rfl, hrest⟩ := List.cons.inj hpayloads
          obtain ⟨hfits, hfitting⟩ := List.forall_mem_cons.mp h.fitting
          refine ⟨some reading, rest, rfl, ?_, ⟨hopen, hsoft, hrest, hfitting⟩⟩
          simp only [Received.ofPayload, Reading.ofBytes_toBytes hfits, Option.elim_some]

end Link.Station

namespace Bench.Polling

structure Turn where
  store : Relay.Store
  clock : Clock
  port : PubSub.Port Unit

def atTurn (b : Polling) (turn : Turn) : Polling :=
  { b with store := turn.store, clock := turn.clock, port := turn.port }

def pollEach (p : Poller) (b : Polling) : List Turn → List CycleResult × Poller × Polling
  | [] => ([], p, b)
  | turn :: turns =>
    let (result, p, b) := p.poll surroundings (b.atTurn turn)
    let (results, p, b) := pollEach p b turns
    (result :: results, p, b)

-- Whether a cycle brought a reading.
def brought : CycleResult → Bool
  | .telemetry _ => true
  | _ => false

def moments (turns : List Turn) (results : List CycleResult) : List Turn :=
  (turns.zip results).filterMap fun (turn, result) => if brought result then some turn else none

-- What is told of a reading that comes at a turn: its sensor values bit by bit, and the relays of the
-- turn instead of those that the device sent.
def told (labels : List String) (reading : Reading) (turn : Turn) : Event :=
  .telemetry
    { temperature := some reading.temperature
      humidity := some reading.humidity
      lightLevel := some reading.lightLevel
      phLevels := reading.phLevels
      relayStates := turn.store.states
      relayLabels := labels }

def pass (labels : List String) (shown : Snapshot × List Event) (item : Reading × Turn) :
    Snapshot × List Event :=
  (shown.1.update item.1 item.2.clock.now, told labels item.1 item.2 :: shown.2)

-- Publishing leaves its notices with the link and its messages with the broker.
theorem offer_eq (refusal : PubSub.Message → Notice) (messages : List PubSub.Message)
    (b : Polling) :
    ∃ notices port, (surroundings.outlet.offer refusal messages b).2 =
      { b with station := { b.station with notices }, port } := by
  induction messages generalizing b with
  | nil => exact ⟨b.station.notices, b.port, rfl⟩
  | cons message rest ih =>
      have hpost : surroundings.outlet.post message b =
          ((b.port.publish message).1.isSome, { b with port := (b.port.publish message).2 }) := rfl
      simp only [Telemetry.Outlet.offer, hpost]
      cases (b.port.publish message).1 with
      | some handlers =>
          obtain ⟨notices, port, hrest⟩ := ih { b with port := (b.port.publish message).2 }
          exact ⟨notices, port, hrest⟩
      | none =>
          obtain ⟨notices, port, hrest⟩ := ih (surroundings.outlet.say (refusal message)
            { b with port := (b.port.publish message).2 })
          exact ⟨notices, port, hrest⟩

-- A reading is kept with the time of its cycle and told with the relays of its cycle.
theorem distribute_eq (p : Poller) (reading : Reading) (b : Polling) :
    let run := p.distribute surroundings reading b
    brought run.1 = true ∧ run.2.1.labels = p.labels ∧
      ∃ notices port, run.2.2 = { b with
        station := { b.station with notices }
        port
        snapshot := b.snapshot.update reading b.clock.now
        events := .telemetry (.merge (some reading) b.store.states p.labels) :: b.events } := by
  simp only [Poller.distribute, Telemetry.PublisherSettings.publish]
  cases p.attempt? (surroundings.uptime b) with
  | none => exact ⟨rfl, rfl, b.station.notices, b.port, rfl⟩
  | some settings =>
      obtain ⟨notices, port, hoffer⟩ := offer_eq settings.refusal
        (settings.messages (.merge (some reading) b.store.states p.labels) b.clock.epoch)
        { b with
          snapshot := b.snapshot.update reading b.clock.now
          events := .telemetry (.merge (some reading) b.store.states p.labels) :: b.events }
      exact ⟨rfl, rfl, notices, port, hoffer⟩

theorem poll_of_not_brought {p : Poller} {b : Polling}
    (h : brought (p.poll surroundings b).1 = false) :
    (p.poll surroundings b).2 = (p, { b with station := (Telemetry.receive b.station).2 }) := by
  have hreceive : surroundings.receive b = ((Telemetry.receive b.station).1,
      { b with station := (Telemetry.receive b.station).2 }) := rfl
  rw [Poller.poll, hreceive] at h ⊢
  cases hreceived : (Telemetry.receive b.station).1 with
  | reading reading =>
      rw [hreceived] at h
      have hbrought := (distribute_eq p reading
        { b with station := (Telemetry.receive b.station).2 }).1
      rw [h] at hbrought
      cases hbrought
  | nothing => rfl
  | undecodable => rfl
  | linkLost reconnected => rfl

theorem poll_of_brings {b : Polling} {readings : List Reading} (h : b.station.Brings readings)
    (p : Poller) (turn : Turn) :
    let run := p.poll surroundings (b.atTurn turn)
    ∃ (found : Option Reading) (rest : List Reading), readings = found.toList ++ rest ∧
      brought run.1 = found.isSome ∧ run.2.1.labels = p.labels ∧
      (run.2.2.snapshot, run.2.2.events) =
        (found.toList.map (·, turn)).foldl (pass p.labels) (b.snapshot, b.events) ∧
      run.2.2.station.Brings rest ∧
      run.2.2.station.transport = b.station.readFrame.2.transport ∧
      run.2.2.station.wire = b.station.readFrame.2.wire := by
  intro run
  obtain ⟨found, rest, hreadings, hreceive, hrest⟩ := Link.Station.receive_of_brings h
  have hbench : surroundings.receive (b.atTurn turn) =
      (found.elim .nothing .reading, { b.atTurn turn with station := b.station.readFrame.2 }) := by
    simp only [surroundings, atTurn, hreceive]
  refine ⟨found, rest, hreadings, ?_⟩
  cases found with
  | none =>
      have hrun : run = (.silent, p, { b.atTurn turn with station := b.station.readFrame.2 }) := by
        simp only [run, Poller.poll, hbench, Option.elim_none]
      rw [hrun]
      exact ⟨rfl, rfl, rfl, hrest, rfl, rfl⟩
  | some reading =>
      have hrun : run = p.distribute surroundings reading
          { b.atTurn turn with station := b.station.readFrame.2 } := by
        simp only [run, Poller.poll, hbench, Option.elim_some]
      obtain ⟨hbrought, hlabels, notices, port, hlast⟩ := distribute_eq p reading
        { b.atTurn turn with station := b.station.readFrame.2 }
      rw [← hrun] at hbrought hlabels hlast
      refine ⟨hbrought, hlabels, ?_⟩
      rw [hlast]
      exact ⟨rfl, ⟨hrest.isOpen, hrest.soft, hrest.payloads, hrest.fitting⟩, rfl, rfl⟩

theorem moments_cons (turn : Turn) (turns : List Turn) (result : CycleResult)
    (results : List CycleResult) :
    moments (turn :: turns) (result :: results) =
      (if brought result then [turn] else []) ++ moments turns results := by
  cases hbrought : brought result <;>
    simp [moments, List.zip_cons_cons, hbrought]

theorem mem_of_mem_moments {turn : Turn} {turns : List Turn} {results : List CycleResult}
    (h : turn ∈ moments turns results) : turn ∈ turns := by
  obtain ⟨⟨other, result⟩, hmem, hsome⟩ := List.mem_filterMap.mp h
  obtain ⟨-, hsame⟩ := Option.ite_none_right_eq_some.mp hsome
  obtain rfl : other = turn := Option.some.inj hsame
  exact (List.of_mem_zip hmem).1

-- Any number of cycles: they tell the first of the readings, and the others are still to come.
theorem pollEach_of_brings {p : Poller} {b : Polling} {readings : List Reading}
    (h : b.station.Brings readings) (turns : List Turn) :
    let (results, _, b') := pollEach p b turns
    ∃ (items : List (Reading × Turn)) (rest : List Reading),
      readings = items.map Prod.fst ++ rest ∧ moments turns results = items.map Prod.snd ∧
      (b'.snapshot, b'.events) = items.foldl (pass p.labels) (b.snapshot, b.events) ∧
      b'.station.Brings rest := by
  induction turns generalizing p b readings with
  | nil => exact ⟨[], readings, rfl, rfl, rfl, h⟩
  | cons turn turns ih =>
      obtain ⟨found, rest, hreadings, hbrought, hlabels, hshown, hrest, -, -⟩ :=
        poll_of_brings h p turn
      have hnext := ih (p := (p.poll surroundings (b.atTurn turn)).2.1) hrest
      simp only [pollEach]
      dsimp only at hnext
      obtain ⟨items, last, hitems, hmoments, hshown', hlast⟩ := hnext
      refine ⟨found.toList.map (·, turn) ++ items, last, ?_, ?_, ?_, hlast⟩
      · rw [hreadings, hitems]
        cases found <;> simp
      · rw [moments_cons, hbrought, hmoments]
        cases found <;> rfl
      · rw [hshown', hlabels, hshown, List.foldl_append]

-- Each cycle with attempts to spend makes a read, as long as there is one left.
theorem pollEach_unread_length_le {p : Poller} {b : Polling} {readings : List Reading}
    (h : b.station.Brings readings) (hbudget : 0 < b.station.transport.retry.maxAttempts)
    (turns : List Turn) :
    (pollEach p b turns).2.2.station.wire.unread.length ≤
      b.station.wire.unread.length - turns.length := by
  induction turns generalizing p b readings with
  | nil => exact Nat.le_refl _
  | cons turn turns ih =>
      obtain ⟨found, rest, -, -, -, -, hrest, htransport, hwire⟩ := poll_of_brings h p turn
      have hnext := ih (p := (p.poll surroundings (b.atTurn turn)).2.1) hrest (by
        rw [htransport, Link.Station.readFrame, Link.Station.readWithin_retry]
        exact hbudget)
      rw [hwire] at hnext
      have hread : b.station.readFrame.2.wire.unread.length ≤ b.station.wire.unread.length - 1 :=
        Link.Station.readWithin_unread_length_le h.isOpen hbudget
      have hlast : (pollEach p b (turn :: turns)).2 =
          (pollEach (p.poll surroundings (b.atTurn turn)).2.1
            (p.poll surroundings (b.atTurn turn)).2.2 turns).2 := rfl
      rw [hlast, List.length_cons]
      omega

theorem foldl_pass_events (labels : List String) (items : List (Reading × Turn))
    (shown : Snapshot × List Event) :
    (items.foldl (pass labels) shown).2 =
      (items.map fun (reading, turn) => told labels reading turn).reverse ++ shown.2 := by
  induction items generalizing shown with
  | nil => rfl
  | cons item items ih =>
      rw [List.foldl_cons, ih, List.map_cons, List.reverse_cons, List.append_assoc]
      rfl

theorem foldl_pass_version (labels : List String) (items : List (Reading × Turn))
    (shown : Snapshot × List Event) :
    (items.foldl (pass labels) shown).1.version = shown.1.version + items.length := by
  induction items generalizing shown with
  | nil => rfl
  | cons item items ih =>
      have hone : (pass labels shown item).1.version = shown.1.version + 1 := rfl
      rw [List.foldl_cons, ih, List.length_cons, hone]
      omega

theorem foldl_pass_last (labels : List String) {items : List (Reading × Turn)}
    (shown : Snapshot × List Event) {reading : Reading} {turn : Turn}
    (h : items.getLast? = some (reading, turn)) :
    (items.foldl (pass labels) shown).1.reading = some reading ∧
      (items.foldl (pass labels) shown).1.updatedAt = turn.clock.now := by
  obtain ⟨front, rfl⟩ := List.getLast?_eq_some_iff.mp h
  rw [List.foldl_append, List.foldl_cons, List.foldl_nil]
  exact ⟨rfl, rfl⟩

-- An open link that has been taken into use and not read yet, that no read will fail on, with an
-- attempt at least for each cycle.
structure Fresh (b : Polling) : Prop where
  isOpen : b.station.transport.isOpen = true
  reset : ∃ history, b.station.transport.decoder = (Frame.Decoder.after history).reset
  soft : ∀ read ∈ b.station.wire.unread, read.isSoft
  budget : 0 < b.station.transport.retry.maxAttempts

theorem Fresh.brings {b : Polling} (h : b.Fresh) {sendings : List (List UInt8 × Reading)}
    {last : List UInt8}
    (hfits : ∀ sending ∈ sendings, sending.2.toBytes.length ≤ payloadLimit)
    (hnoise : ∀ noise ∈ sendings.map Prod.fst ++ [last], ¬ openingMarker <:+: noise)
    (hbytes : transmission (sendings.map (Prod.map id Reading.toBytes)) last =
      .ok (bytesOf b.station.wire.unread)) :
    b.station.Brings (sendings.map Prod.snd) := by
  obtain ⟨history, hreset⟩ := h.reset
  have hfirst : (sendings.map (Prod.map id Reading.toBytes)).map Prod.fst =
      sendings.map Prod.fst := List.map_map
  have hpayloads := Frame.Decoder.payloads_transmission (d := b.station.transport.decoder)
    (by rw [hreset]; rfl) (by rw [hreset]; exact Frame.Decoder.after_lengthBytes_length history)
    (by rw [hfirst]; exact hnoise) hbytes
  refine ⟨h.isOpen, h.soft, ?_, ?_⟩
  · rw [hpayloads, List.map_map, List.map_map]
    rfl
  · intro reading hmem
    obtain ⟨sending, hsending, rfl⟩ := List.mem_map.mp hmem
    exact hfits sending hsending

theorem pollEach_exhausted {p : Poller} {b : Polling} {readings : List Reading}
    (h : b.station.Brings readings) {turns : List Turn} {results : List CycleResult} {p' : Poller}
    {b' : Polling} (hrun : pollEach p b turns = (results, p', b'))
    (hexhausted : b'.station.wire.unread = []) :
    ∃ items : List (Reading × Turn), items.map Prod.fst = readings ∧
      items.map Prod.snd = moments turns results ∧
      b'.events =
        (items.map fun (reading, turn) => told p.labels reading turn).reverse ++ b.events ∧
      b'.snapshot.version = b.snapshot.version + items.length ∧
      ∀ reading turn, items.getLast? = some (reading, turn) →
        b'.snapshot.reading = some reading ∧ b'.snapshot.updatedAt = turn.clock.now := by
  have htold := pollEach_of_brings (p := p) h turns
  rw [hrun] at htold
  obtain ⟨items, rest, hitems, hmoments, hshown, hrest⟩ := htold
  rw [hrest.nil_of_exhausted hexhausted, List.append_nil] at hitems
  obtain ⟨hsnapshot, hevents⟩ := Prod.mk.inj hshown
  refine ⟨items, hitems.symm, hmoments.symm, ?_, ?_, ?_⟩
  · rw [hevents, foldl_pass_events]
  · rw [hsnapshot, foldl_pass_version]
  · intro reading turn hlast
    rw [hsnapshot]
    exact foldl_pass_last p.labels (b.snapshot, b.events) hlast

-- Readings of fitting sizes reach a poller that is left to poll until there is nothing more to
-- read: each is told once, in order, with the relays that it finds by then, and the snapshot holds
-- the last. A cycle that brings no reading, on whatever link, changes nothing else.
theorem pollEach_tells {sendings : List (List UInt8 × Reading)} {last : List UInt8}
    (hfits : ∀ sending ∈ sendings, sending.2.toBytes.length ≤ payloadLimit)
    (hnoise : ∀ noise ∈ sendings.map Prod.fst ++ [last], ¬ openingMarker <:+: noise) :
    (∃ bytes,
      transmission (sendings.map (Prod.map id Reading.toBytes)) last = .ok bytes ∧
        ∀ {p p' : Poller} {b b' : Polling} {turns : List Turn} {results : List CycleResult},
          b.Fresh → bytesOf b.station.wire.unread = bytes →
          pollEach p b turns = (results, p', b') →
            (b.station.wire.unread.length ≤ turns.length → b'.station.wire.unread = []) ∧
              (b'.station.wire.unread = [] →
                ∃ items : List (Reading × Turn), items.map Prod.fst = sendings.map Prod.snd ∧
                  items.map Prod.snd = moments turns results ∧
                  b'.events =
                    (items.map fun (reading, turn) => told p.labels reading turn).reverse ++
                      b.events ∧
                  b'.snapshot.version = b.snapshot.version + items.length ∧
                  ∀ reading turn, items.getLast? = some (reading, turn) →
                    b'.snapshot.reading = some reading ∧
                      b'.snapshot.updatedAt = turn.clock.now)) ∧
      ∀ (p : Poller) (b : Polling), brought (p.poll surroundings b).1 = false →
        (p.poll surroundings b).2 =
          (p, { b with station := (Telemetry.receive b.station).2 }) := by
  refine ⟨?_, fun p b => poll_of_not_brought⟩
  have hframed : ∀ sending ∈ sendings.map (Prod.map id Reading.toBytes),
      0 < sending.2.length ∧ sending.2.length ≤ payloadLimit := by
    intro sending hmem
    obtain ⟨⟨noise, reading⟩, hsending, rfl⟩ := List.mem_map.mp hmem
    exact ⟨reading.toBytes_length_pos, hfits (noise, reading) hsending⟩
  obtain ⟨bytes, hbytes⟩ := Frame.exists_transmission hframed last
  refine ⟨bytes, hbytes, ?_⟩
  intro p p' b b' turns results hfresh hunread hrun
  rw [← hunread] at hbytes
  have hbrings := hfresh.brings hfits hnoise hbytes
  have hlength := pollEach_unread_length_le (p := p) hbrings hfresh.budget turns
  rw [hrun] at hlength
  refine ⟨?_, pollEach_exhausted hbrings hrun⟩
  intro hturns
  rw [Nat.sub_eq_zero_of_le hturns] at hlength
  exact List.eq_nil_of_length_eq_zero (Nat.le_zero.mp hlength)

-- A reading whose bytes hold the opening marker, behind a broken start and in two pieces.
def markedReading : Reading where
  temperature := ⟨0xFCFDFEFF⟩
  humidity := ⟨0x7FC00001⟩
  lightLevel := ⟨0⟩
  phLevels := []
  relayStates := [true]

def markedBytes : List UInt8 :=
  [0xFF, 0x01, 0xFF] ++
    [0xFF, 0xFE, 15, 0, 0xFF, 0xFE, 0xFD, 0xFC, 0x01, 0x00, 0xC0, 0x7F, 0, 0, 0, 0, 0, 1, 1,
      0xFD, 0xFC] ++ [0xFE]

def twoPieces : Polling where
  station :=
    { transport :=
        { settings := ⟨"sim0", 9600, .ofMillis 10⟩, retry := ⟨1, .ofMillis 0⟩, state := .connected,
          isOpen := true }
      wire :=
        { ports := ["sim0"]
          unread :=
            (markedBytes.take 9).map .byte ++ [.nothing] ++ (markedBytes.drop 9).map .byte } }
  store := .new 1
  port := {}

theorem pollEach_tells_twoPieces :
    let turns := List.replicate 27 (Turn.mk (.new 1) {} {})
    let p : Poller := { labels := ["pump"], publisher := none, publishInterval := 0 }
    twoPieces.Fresh ∧
      (∀ noise ∈ [[0xFF, 0x01, 0xFF], [0xFE]], ¬ openingMarker <:+: noise) ∧
      markedReading.toBytes.length ≤ payloadLimit ∧
      (pollEach p twoPieces turns).2.2.snapshot.version = 1 ∧
      (pollEach p twoPieces turns).2.2.events =
        [.telemetry
          { temperature := some ⟨0xFCFDFEFF⟩
            humidity := some ⟨0x7FC00001⟩
            lightLevel := some ⟨0⟩
            phLevels := []
            relayStates := [false]
            relayLabels := ["pump"] }] := by
  intro turns p
  have hfresh : twoPieces.Fresh :=
    { isOpen := rfl, reset := ⟨[], rfl⟩, soft := by decide, budget := by decide }
  have hnoise : ∀ noise ∈ [[0xFF, 0x01, 0xFF], [0xFE]], ¬ openingMarker <:+: noise := by decide
  have hfits : markedReading.toBytes.length ≤ payloadLimit := by decide +kernel
  have hsendings : ∀ sending ∈ [([(0xFF : UInt8), 0x01, 0xFF], markedReading)],
      sending.2.toBytes.length ≤ payloadLimit := List.forall_mem_singleton.mpr hfits
  obtain ⟨⟨bytes, hbytes, hpolls⟩, -⟩ := pollEach_tells hsendings hnoise
  have hmarked : transmission [([0xFF, 0x01, 0xFF], markedReading.toBytes)] [0xFE] =
      .ok markedBytes := by decide +kernel
  have hunread : bytesOf twoPieces.station.wire.unread = bytes :=
    Except.ok.inj (hmarked.symm.trans hbytes)
  rcases hrun : pollEach p twoPieces turns with ⟨results, p', b'⟩
  obtain ⟨hexhausts, htells⟩ := hpolls hfresh hunread hrun
  obtain ⟨items, hitems, hmoments, hevents, hversion, -⟩ := htells (hexhausts (by decide))
  obtain ⟨⟨reading, turn⟩, rfl⟩ : ∃ item, items = [item] :=
    List.length_eq_one_iff.mp (by simpa using congrArg List.length hitems)
  obtain rfl : reading = markedReading := (List.cons.inj hitems).1
  have hmem : turn ∈ moments turns results := by
    rw [← hmoments]
    exact List.mem_singleton_self turn
  have hturn : turn ∈ turns := mem_of_mem_moments hmem
  obtain rfl : turn = Turn.mk (.new 1) {} {} := List.eq_of_mem_replicate hturn
  exact ⟨hfresh, hnoise, hfits, hversion, hevents⟩

end Bench.Polling

end RelayGateway
