import RelayGateway.Proofs.Frame.Tracking
import RelayGateway.Proofs.Link.Coherence

namespace RelayGateway

namespace Frame

namespace Decoder

-- Whether the last of some bytes, and no earlier one, brings a payload.
def Completes (d : Decoder) (bytes : List UInt8) (payload : List UInt8) : Prop :=
  ∃ front last, bytes = front ++ [last] ∧ ((d.feed front).push last).1 = .frame payload

theorem Completes.prepend {d : Decoder} (front : List UInt8) {back payload : List UInt8}
    (h : (d.feed front).Completes back payload) : d.Completes (front ++ back) payload := by
  obtain ⟨middle, last, rfl, hstep⟩ := h
  refine ⟨front ++ middle, last, (List.append_assoc front middle [last]).symm, ?_⟩
  rw [feed_append]
  exact hstep

theorem pull_completes {d : Decoder} {unread : List ReadResult} {payload : List UInt8}
    (h : (d.pull unread).outcome = .ok (.frame payload)) :
    ∃ taken, unread = taken ++ (d.pull unread).unread ∧
      (d.pull unread).decoder = d.feed (bytesOf taken) ∧ d.Completes (bytesOf taken) payload := by
  induction unread generalizing d with
  | nil => cases h
  | cons read rest ih =>
      cases read with
      | nothing => cases h
      | failed failure =>
          simp only [pull] at h
          split at h <;> cases h
      | byte value =>
          have hfeed : d.feed [value] = (d.push value).2 := by rw [feed_cons, feed_nil]
          rcases hpush : d.push value with ⟨step, next⟩
          rw [hpush] at hfeed
          simp only [pull, hpush] at h ⊢
          cases step with
          | pending =>
              obtain ⟨taken, hunread, hdecoder, hcompletes⟩ := ih h
              refine ⟨.byte value :: taken, congrArg (.byte value :: ·) hunread, ?_, ?_⟩
              · rw [bytesOf_byte, feed_cons, hpush]
                exact hdecoder
              · rw [bytesOf_byte]
                exact Completes.prepend [value] (hfeed ▸ hcompletes)
          | frame found =>
              obtain rfl : found = payload := by simpa using h
              exact ⟨[.byte value], rfl, hfeed.symm, [], value, rfl, congrArg Prod.fst hpush⟩
          | invalid fault => cases h

theorem Completes.enclosed {d : Decoder} {bytes payload : List UInt8}
    (hphase : d.phase = .hunting) (hwidth : d.lengthBytes.length = lengthWidth)
    (h : d.Completes bytes payload) :
    ∃ skipped frame, enclose payload = .ok frame ∧ bytes = skipped ++ frame := by
  obtain ⟨front, last, rfl, hstep⟩ := h
  have hstart : Tracks (front ++ [last]) 0 0 d :=
    .hunting hphase (Nat.le_refl 0) (.refl _ 0)
  have hevents := hstart.eventsFrom_eq_scan hwidth rfl
  have hlast : (front.length, .frame payload) ∈ scan (front ++ [last]) 0 := by
    rw [← hevents, List.drop_zero, eventsFrom_append]
    apply List.mem_append_right
    rw [← feed_eq_eventsFrom, Nat.zero_add, eventsFrom_of_ne_pending (by rw [hstep]; simp), hstep]
    exact List.mem_cons_self
  obtain ⟨frame, skipped, rest, henclose, hbytes, hlength⟩ := enclose_of_mem_scan hlast
  -- the frame ends with the last byte, so nothing is left behind it
  have hrest : rest = [] := by
    have htotal := congrArg List.length hbytes
    simp only [List.length_append, List.length_singleton] at htotal hlength
    exact List.length_eq_zero_iff.mp (by omega)
  rw [hrest, List.append_nil] at hbytes
  exact ⟨skipped, frame, henclose, hbytes⟩

end Decoder

end Frame

namespace Link

open RelayGateway.Frame (Decoder)

-- What is noted of a transport: that it took a stream into use, that it wrote to the one in use,
-- or that it read a byte from it.
inductive Deed where
  | installed (stream : Nat)
  | wrote (stream : Nat)
  | read (stream : Nat) (byte : UInt8)
  deriving DecidableEq, Repr

namespace Station

-- A retried read takes reads up to where it stops, and if it brings a payload, that is at the byte
-- which completes it.
theorem attemptAll_completes (s : Station) (pause : Duration) (number remaining : Nat) :
    ∃ taken, Took s (s.attemptAll pause number remaining).2 taken ∧
      ∀ payload, (s.attemptAll pause number remaining).1 = .ok (some payload) →
        s.transport.decoder.Completes (bytesOf taken) payload := by
  induction remaining generalizing s number with
  | zero =>
      refine ⟨[], .refl s, ?_⟩
      intro payload h
      cases h
  | succ remaining ih =>
      obtain ⟨hresult, hdecoder, hunread, taken, htook, -⟩ := s.attemptFrame_spec number
      rw [attemptAll_succ]
      generalize s.attemptFrame number = attempt at hresult hdecoder hunread htook ⊢
      rcases attempt with ⟨e | payload | -, t⟩
      · refine ⟨taken, htook, ?_⟩
        intro payload h
        cases h
      · refine ⟨taken, htook, ?_⟩
        intro found h
        cases h
        have houtcome :
            (s.transport.decoder.pull s.wire.unread).outcome = .ok (.frame payload) := by
          rcases h : (s.transport.decoder.pull s.wire.unread).outcome with
              failure | (found | - | fault) <;>
            rw [h] at hresult <;> cases hresult
          rfl
        obtain ⟨others, hothers, -, hcompletes⟩ := Decoder.pull_completes houtcome
        -- both lists are what was taken of the same reads
        have hsame : others = taken := by
          have hboth := hothers.symm.trans htook.unread
          rw [← hunread] at hboth
          exact List.append_cancel_right hboth
        exact hsame ▸ hcompletes
      · obtain ⟨more, hmore, hcompletes⟩ := ih (t.paused pause remaining) (number + 1)
        refine ⟨taken ++ more, (htook.paused pause remaining).trans hmore, ?_⟩
        intro payload h
        have hback := hcompletes payload h
        rw [paused_transport, htook.decoder] at hback
        rw [bytesOf_append]
        exact hback.prepend

theorem readWithin_took {s : Station} (hopen : s.transport.isOpen) (policy : RetryPolicy) :
    ∃ taken, s.wire.unread = taken ++ (s.readWithin policy).2.wire.unread ∧
      (((s.readWithin policy).2.transport.isOpen = false ∧
          (s.readWithin policy).2.transport.decoder.lengthBytes.length =
            s.transport.decoder.lengthBytes.length ∧
          delivered? (s.readWithin policy).1 = none) ∨
        ((s.readWithin policy).2.transport.isOpen = true ∧
          (s.readWithin policy).2.transport.decoder =
            s.transport.decoder.feed (bytesOf taken) ∧
          ∀ payload, delivered? (s.readWithin policy).1 = some payload →
            s.transport.decoder.Completes (bytesOf taken) payload)) := by
  obtain ⟨taken, htook, hcompletes⟩ :=
    (s.enter .reading).attemptAll_completes policy.pause 0 policy.maxAttempts
  refine ⟨taken, ?_⟩
  rw [readWithin_of_open hopen]
  generalize (s.enter .reading).attemptAll policy.pause 0 policy.maxAttempts = run
    at htook hcompletes ⊢
  rcases run with ⟨e | frame, t⟩
  · refine ⟨htook.unread, .inl ⟨rfl, ?_, rfl⟩⟩
    have hdecoder : t.transport.decoder = s.transport.decoder.feed (bytesOf taken) := htook.decoder
    change t.transport.decoder.lengthBytes.length = _
    rw [hdecoder, Decoder.feed_lengthBytes_length]
  · refine ⟨htook.unread, .inr ⟨htook.isOpen.trans hopen, htook.decoder, ?_⟩⟩
    intro payload h
    exact hcompletes payload (congrArg Except.ok h)

def received? (s : Station) : Operation → Option (List UInt8)
  | .readFrame => delivered? s.readFrame.1
  | .readWithin policy => delivered? (s.readWithin policy).1
  | _ => none

def installs (s : Station) : Operation → Bool
  | .connect => s.connect.1.isOk
  | .reconnect => s.reconnect.1
  | _ => false

def writes (s : Station) : Operation → Bool
  | .writeFrame payload => (Frame.encode payload).isOk && s.transport.isOpen
  | _ => false

def bytesRead (s : Station) : Operation → List UInt8
  | .readFrame => made s.readFrame.2
  | .readWithin policy => made (s.readWithin policy).2
  | _ => []
where
  made (t : Station) : List UInt8 :=
    bytesOf (s.wire.unread.take (s.wire.unread.length - t.wire.unread.length))

-- What an operation does to decoder and stream: a connect or a write resets the decoder, an
-- operation may leave the link closed, and all else feeds the decoder the bytes that are read.
inductive Moves (s : Station) (operation : Operation) : Prop
  | installed (hinstalls : s.installs operation = true)
      (hdecoder : (s.perform operation).transport.decoder = s.transport.decoder.reset)
  | wrote (hinstalls : s.installs operation = false) (hwrites : s.writes operation = true)
      (hdecoder : (s.perform operation).transport.decoder = s.transport.decoder.reset)
  | closed (hclosed : (s.perform operation).transport.isOpen = false)
      (hwidth : (s.perform operation).transport.decoder.lengthBytes.length =
        s.transport.decoder.lengthBytes.length)
  | fed (hinstalls : s.installs operation = false) (hwrites : s.writes operation = false)
      (hopen : (s.perform operation).transport.isOpen = s.transport.isOpen)
      (hdecoder : (s.perform operation).transport.decoder =
        s.transport.decoder.feed (s.bytesRead operation))

theorem connect_moves (s : Station) : s.Moves .connect := by
  obtain ⟨hok, -, htransport⟩ | ⟨⟨e, herror⟩, -, htransport⟩ := s.connect_spec
  · refine .installed ?_ (congrArg Transport.decoder htransport)
    rw [installs, hok]
    rfl
  · have hopen := congrArg Transport.isOpen htransport
    have hdecoder := congrArg Transport.decoder htransport
    refine .fed ?_ rfl hopen hdecoder
    rw [installs, herror]
    rfl

theorem reconnect_moves (s : Station) : s.Moves .reconnect := by
  have hreconnect : s.reconnect.1 = (s.close.sleep s.transport.reconnectDelay).connect.1.isOk := by
    unfold reconnect
    rcases (s.close.sleep s.transport.reconnectDelay).connect with ⟨e | done, t⟩ <;> rfl
  obtain ⟨hok, -, htransport⟩ | ⟨⟨e, herror⟩, -, htransport⟩ :=
    (s.close.sleep s.transport.reconnectDelay).connect_spec
  · rw [← reconnect_transport] at htransport
    refine .installed ?_ (congrArg Transport.decoder htransport)
    rw [installs, hreconnect, hok]
    rfl
  · rw [← reconnect_transport] at htransport
    have hwidth := congrArg (fun t : Transport => t.decoder.lengthBytes.length) htransport
    exact .closed (congrArg Transport.isOpen htransport) hwidth

theorem made_eq {s t : Station} {taken : List ReadResult}
    (h : s.wire.unread = taken ++ t.wire.unread) : bytesRead.made s t = bytesOf taken := by
  have hcount : s.wire.unread.length - t.wire.unread.length = taken.length := by
    rw [h, List.length_append, Nat.add_sub_cancel]
  rw [bytesRead.made, hcount, h, List.take_left]

theorem readWithin_moves (s : Station) (policy : RetryPolicy) : s.Moves (.readWithin policy) := by
  cases hopen : s.transport.isOpen with
  | false =>
      have hunchanged : s.perform (.readWithin policy) = s := by
        simp [perform, readWithin, hopen]
      have hunread : s.wire.unread = [] ++ (s.perform (.readWithin policy)).wire.unread :=
        (congrArg (fun t : Station => t.wire.unread) hunchanged).symm
      have hbytes : s.bytesRead (.readWithin policy) = [] := made_eq hunread
      refine .fed rfl rfl (by rw [hunchanged]) ?_
      rw [hunchanged, hbytes, Decoder.feed_nil]
  | true =>
      obtain ⟨taken, hunread, ⟨hclosed, hwidth, -⟩ | ⟨hstays, hdecoder, -⟩⟩ :=
        readWithin_took hopen policy
      · exact .closed hclosed hwidth
      · refine .fed rfl rfl (hstays.trans hopen.symm) ?_
        rw [bytesRead, made_eq hunread]
        exact hdecoder

theorem writeFrame_moves (s : Station) (payload : List UInt8) : s.Moves (.writeFrame payload) := by
  cases hencode : Frame.encode payload with
  | error reason =>
      have hunchanged : s.perform (.writeFrame payload) = s :=
        congrArg Prod.snd (writeFrame_of_unframed hencode)
      refine .fed rfl ?_ (by rw [hunchanged]) (by rw [hunchanged]; rfl)
      rw [writes, hencode]
      rfl
  | ok frame =>
      cases hopen : s.transport.isOpen with
      | false =>
          have hunchanged : s.perform (.writeFrame payload) = s :=
            congrArg Prod.snd (writeFrame_of_closed hencode hopen)
          exact .closed (by rw [hunchanged, hopen]) (by rw [hunchanged])
      | true =>
          have hwrites : s.writes (.writeFrame payload) = true := by
            rw [writes, hencode, hopen]
            rfl
          exact .wrote rfl hwrites
            (congrArg Transport.decoder (writeFrame_of_open hencode hopen).2.2)

theorem perform_moves (s : Station) (operation : Operation) : s.Moves operation := by
  cases operation with
  | connect => exact s.connect_moves
  | close => exact .closed rfl rfl
  | reconnect => exact s.reconnect_moves
  | readFrame =>
      obtain hinstalls | hinstalls | hclosed | hfed := s.readWithin_moves s.transport.retry
      · cases hinstalls
      · contradiction
      · exact .closed hclosed ‹_›
      · exact .fed rfl rfl ‹_› ‹_›
  | readWithin policy => exact s.readWithin_moves policy
  | writeFrame payload => exact s.writeFrame_moves payload

theorem received_completes {s : Station} {operation : Operation} {payload : List UInt8}
    (h : s.received? operation = some payload) :
    s.transport.isOpen = true ∧ s.installs operation = false ∧ s.writes operation = false ∧
      s.transport.decoder.Completes (s.bytesRead operation) payload := by
  have hread (policy : RetryPolicy) (h : delivered? (s.readWithin policy).1 = some payload) :
      s.transport.isOpen = true ∧
        s.transport.decoder.Completes (bytesRead.made s (s.readWithin policy).2) payload := by
    cases hopen : s.transport.isOpen with
    | false =>
        rw [readWithin, hopen] at h
        cases h
    | true =>
        obtain ⟨taken, hunread, ⟨-, -, hnone⟩ | ⟨-, -, hcompletes⟩⟩ := readWithin_took hopen policy
        · rw [hnone] at h
          cases h
        · rw [made_eq hunread]
          exact ⟨rfl, hcompletes payload h⟩
  cases operation with
  | readFrame =>
      obtain ⟨hopen, hcompletes⟩ := hread s.transport.retry h
      exact ⟨hopen, rfl, rfl, hcompletes⟩
  | readWithin policy =>
      obtain ⟨hopen, hcompletes⟩ := hread policy h
      exact ⟨hopen, rfl, rfl, hcompletes⟩
  | connect => cases h
  | close => cases h
  | reconnect => cases h
  | writeFrame payload => cases h

end Station

structure Journal where
  station : Station
  streams : Nat := 0
  deeds : List Deed := []

namespace Journal

def perform (j : Journal) (wire : Wire) (operation : Operation) : Journal :=
  let s := { j.station with wire }
  let streams := if s.installs operation then j.streams + 1 else j.streams
  { station := s.perform operation
    streams
    deeds := j.deeds ++
      (if s.installs operation then [.installed streams] else []) ++
      (if s.writes operation then [.wrote streams] else []) ++
      (s.bytesRead operation).map (.read streams) }

def performAll (j : Journal) (requests : List (Wire × Operation)) : Journal :=
  requests.foldl (fun j request => j.perform request.1 request.2) j

theorem performAll_concat (j : Journal) (requests : List (Wire × Operation)) (wire : Wire)
    (operation : Operation) :
    j.performAll (requests ++ [(wire, operation)]) =
      (j.performAll requests).perform wire operation := by
  simp only [performAll, List.foldl_append, List.foldl_cons, List.foldl_nil]

theorem performAll_station (j : Journal) (requests : List (Wire × Operation)) :
    (j.performAll requests).station = j.station.performAll requests := by
  induction requests generalizing j with
  | nil => rfl
  | cons request requests ih => exact ih (j.perform request.1 request.2)

theorem perform_of_installs (j : Journal) {wire : Wire} {operation : Operation}
    (h : Station.installs { j.station with wire } operation = true) :
    j.perform wire operation =
      { station := Station.perform { j.station with wire } operation
        streams := j.streams + 1
        deeds := j.deeds ++ [.installed (j.streams + 1)] } := by
  cases operation with
  | connect => simp [perform, h, Station.writes, Station.bytesRead]
  | reconnect => simp [perform, h, Station.writes, Station.bytesRead]
  | close => cases h
  | readFrame => cases h
  | readWithin policy => cases h
  | writeFrame payload => cases h

theorem perform_of_writes (j : Journal) {wire : Wire} {operation : Operation}
    (hinstalls : Station.installs { j.station with wire } operation = false)
    (h : Station.writes { j.station with wire } operation = true) :
    j.perform wire operation =
      { j with
        station := Station.perform { j.station with wire } operation
        deeds := j.deeds ++ [.wrote j.streams] } := by
  cases operation with
  | writeFrame payload => simp [perform, h, hinstalls, Station.bytesRead]
  | connect => cases h
  | reconnect => cases h
  | close => cases h
  | readFrame => cases h
  | readWithin policy => cases h

theorem perform_of_reads (j : Journal) {wire : Wire} {operation : Operation}
    (hinstalls : Station.installs { j.station with wire } operation = false)
    (hwrites : Station.writes { j.station with wire } operation = false) :
    j.perform wire operation =
      { j with
        station := Station.perform { j.station with wire } operation
        deeds := j.deeds ++
          (Station.bytesRead { j.station with wire } operation).map (.read j.streams) } := by
  simp [perform, hinstalls, hwrites]

def start (settings : Settings) (retry : RetryPolicy) (reconnectDelay : Duration) (wire : Wire) :
    Journal where
  station := .start settings retry reconnectDelay wire

-- Since the last connect or write, what has been noted are reads of the stream in use, which gave
-- some bytes.
def Since (j : Journal) (bytes : List UInt8) : Prop :=
  ∃ earlier mark, (mark = .installed j.streams ∨ mark = .wrote j.streams) ∧
    j.deeds = earlier ++ mark :: bytes.map (.read j.streams)

-- The decoder of an open transport has taken the bytes read since the last connect or write, and
-- nothing before them.
structure Unbroken (j : Journal) : Prop where
  width : j.station.transport.decoder.lengthBytes.length = Frame.lengthWidth
  since : j.station.transport.isOpen = true → ∃ fresh bytes, fresh.phase = .hunting ∧
    fresh.lengthBytes.length = Frame.lengthWidth ∧
    j.station.transport.decoder = Decoder.feed fresh bytes ∧ j.Since bytes

theorem Since.append {j : Journal} {bytes : List UInt8} (h : j.Since bytes) (station : Station)
    (more : List UInt8) :
    Since { j with station, deeds := j.deeds ++ more.map (.read j.streams) } (bytes ++ more) := by
  obtain ⟨earlier, mark, hmark, hdeeds⟩ := h
  refine ⟨earlier, mark, hmark, ?_⟩
  simp only [hdeeds, List.append_assoc, List.cons_append, List.map_append]

theorem Unbroken.of_mark {j : Journal} {decoder : Decoder} {earlier : List Deed} {mark : Deed}
    (hwidth : decoder.lengthBytes.length = Frame.lengthWidth)
    (hdecoder : j.station.transport.decoder = decoder.reset)
    (hmark : mark = .installed j.streams ∨ mark = .wrote j.streams)
    (hdeeds : j.deeds = earlier ++ [mark]) : j.Unbroken where
  width := by rw [hdecoder, Decoder.reset_lengthBytes, hwidth]
  since _ := ⟨decoder.reset, [], rfl, hwidth, hdecoder, earlier, mark, hmark, hdeeds⟩

theorem start_unbroken (settings : Settings) (retry : RetryPolicy) (reconnectDelay : Duration)
    (wire : Wire) : (start settings retry reconnectDelay wire).Unbroken where
  width := rfl
  since hopen := by cases hopen

theorem perform_unbroken {j : Journal} (h : j.Unbroken) (wire : Wire) (operation : Operation) :
    (j.perform wire operation).Unbroken := by
  cases Station.perform_moves { j.station with wire } operation with
  | installed hinstalls hdecoder =>
      rw [j.perform_of_installs hinstalls]
      exact .of_mark h.width hdecoder (.inl rfl) rfl
  | wrote hinstalls hwrites hdecoder =>
      rw [j.perform_of_writes hinstalls hwrites]
      exact .of_mark h.width hdecoder (.inr rfl) rfl
  | closed hclosed hwidth =>
      refine ⟨hwidth.trans h.width, ?_⟩
      intro hopen
      rw [perform, hclosed] at hopen
      cases hopen
  | fed hinstalls hwrites hopen hdecoder =>
      rw [j.perform_of_reads hinstalls hwrites]
      refine ⟨?_, ?_⟩
      · rw [hdecoder, Decoder.feed_lengthBytes_length]
        exact h.width
      · intro hstays
        obtain ⟨fresh, bytes, hphase, hwidth, hfresh, hsince⟩ := h.since (hopen.symm.trans hstays)
        refine ⟨fresh, bytes ++ _, hphase, hwidth, ?_, hsince.append _ _⟩
        rw [hdecoder, Decoder.feed_append, ← hfresh]

theorem performAll_unbroken {j : Journal} (h : j.Unbroken) (requests : List (Wire × Operation)) :
    (j.performAll requests).Unbroken := by
  induction requests generalizing j with
  | nil => exact h
  | cons request requests ih => exact ih (perform_unbroken h request.1 request.2)

-- Whatever a transport has been through, a payload that it reads stands in its frame at the end of
-- the bytes read from the stream in use, all of them behind the connect that took this stream into
-- use and behind the last write to it.
theorem received_since (settings : Settings) (retry : RetryPolicy) (reconnectDelay : Duration)
    (wire : Wire) (requests : List (Wire × Operation)) (last : Wire) (operation : Operation)
    (payload : List UInt8)
    (h : Station.received?
      { ((start settings retry reconnectDelay wire).performAll requests).station with wire := last }
      operation = some payload) :
    let after := (start settings retry reconnectDelay wire).performAll
      (requests ++ [(last, operation)])
    ∃ frame skipped, Frame.enclose payload = .ok frame ∧ frame.length = payload.length + 6 ∧
      after.Since (skipped ++ frame) := by
  intro after
  have hbefore := performAll_unbroken (start_unbroken settings retry reconnectDelay wire) requests
  have hafter : after = ((start settings retry reconnectDelay wire).performAll requests).perform
      last operation := performAll_concat _ requests last operation
  generalize (start settings retry reconnectDelay wire).performAll requests = j at h hbefore hafter
  obtain ⟨hopen, hinstalls, hwrites, hcompletes⟩ := Station.received_completes h
  obtain ⟨fresh, bytes, hphase, hwidth, hfresh, hsince⟩ := hbefore.since hopen
  have hwhole : fresh.Completes
      (bytes ++ Station.bytesRead { j.station with wire := last } operation) payload := by
    apply Decoder.Completes.prepend
    rw [← hfresh]
    exact hcompletes
  obtain ⟨skipped, frame, henclose, hbytes⟩ := hwhole.enclosed hphase hwidth
  refine ⟨frame, skipped, henclose, Frame.enclose_length henclose, ?_⟩
  rw [hafter, j.perform_of_reads hinstalls hwrites, ← hbytes]
  exact hsince.append _ _

-- A frame cut short by a write, and behind the write its other half and a whole frame.
def cutFrame : List (Wire × Operation) :=
  let wire (unread : List ReadResult) : Wire := { ports := ["sim0"], unread }
  [(wire [], .connect),
    (wire [.byte 0xFF, .byte 0xFE, .byte 2, .byte 0, .byte 0x55], .readFrame),
    (wire [], .writeFrame [9])]

theorem received_since_cutFrame :
    let bytes : List UInt8 := [0x56, 0xFD, 0xFC, 0xFF, 0xFE, 1, 0, 0xAA, 0xFD, 0xFC]
    let wire : Wire := { ports := ["sim0"], unread := bytes.map .byte }
    let first := start ⟨"sim0", 9600, .ofMillis 1000⟩ .standard (.ofSeconds 1) { ports := ["sim0"] }
    Station.received? { (first.performAll cutFrame).station with wire } .readFrame = some [0xAA] ∧
      ∃ frame skipped, Frame.enclose [0xAA] = .ok frame ∧ frame.length = 7 ∧
        (first.performAll (cutFrame ++ [(wire, .readFrame)])).Since (skipped ++ frame) :=
  ⟨rfl, received_since _ _ _ _ cutFrame _ .readFrame [0xAA] rfl⟩

end Journal

end Link

end RelayGateway
