import RelayGateway.Link.Transport
import RelayGateway.Proofs.Frame.Decoder
import RelayGateway.Proofs.Frame.Grammar

namespace RelayGateway.Link

inductive Ask where
  | flush
  | clear
  | write (bytes : List UInt8)
  deriving DecidableEq, Repr

def Ask.isWrite : Ask → Bool
  | .write _ => true
  | _ => false

inductive Ask.Recorded : Ask → Except Error Unit → Call → Prop
  | flush (result : Except Error Unit) : Recorded .flush result .flush
  | clear (result : Except Error Unit) : Recorded .clear result .clear
  | whole (bytes : List UInt8) : Recorded (.write bytes) (.ok ()) (.write bytes)
  | short {bytes accepted : List UInt8} (hfront : accepted <+: bytes)
      (hne : accepted.length ≠ bytes.length) :
      Recorded (.write bytes) (.error (.shortWrite bytes.length accepted.length)) (.write accepted)
  | refused (bytes : List UInt8) (reason : String) :
      Recorded (.write bytes) (.error (.io reason)) .writeFailed

def Ask.call : Ask → Call
  | .flush => .flush
  | .clear => .clear
  | .write bytes => .write bytes

theorem Ask.Recorded.eq_call {ask : Ask} {result : Except Error Unit} {call : Call}
    (h : ask.Recorded result call) (hok : result = .ok ()) : call = ask.call := by
  cases h with
  | flush => rfl
  | clear => rfl
  | whole bytes => rfl
  | short hfront hne => cases hok
  | refused bytes reason => cases hok

namespace Wire

-- Make a call. A write that takes another number of bytes than it is given has gone wrong.
def make (w : Wire) : Ask → Except Error Unit × Wire
  | .flush => (w.flush.1.mapError .io, w.flush.2)
  | .clear => (w.clear.1.mapError .io, w.clear.2)
  | .write bytes =>
    (match (w.write bytes).1 with
      | .error reason => .error (.io reason)
      | .ok taken =>
        if taken = bytes.length then .ok () else .error (.shortWrite bytes.length taken),
      (w.write bytes).2)

def makeAll (w : Wire) : List Ask → Except Error Unit × Wire
  | [] => (.ok (), w)
  | ask :: rest =>
    match w.make ask with
    | (.error e, w) => (.error e, w)
    | (.ok (), w) => w.makeAll rest

@[simp] theorem make_flush (w : Wire) :
    w.make .flush = (w.flush.1.mapError .io, w.flush.2) := rfl

@[simp] theorem make_clear (w : Wire) :
    w.make .clear = (w.clear.1.mapError .io, w.clear.2) := rfl

@[simp] theorem make_write_snd (w : Wire) (bytes : List UInt8) :
    (w.make (.write bytes)).2 = (w.write bytes).2 := rfl

@[simp] theorem makeAll_nil (w : Wire) : w.makeAll [] = (.ok (), w) := rfl

structure Does (w : Wire) (ask : Ask) (call : Call) (result : Except Error Unit) (last : Wire) :
    Prop where
  made : w.make ask = (result, last)
  recorded : ask.Recorded result call
  calls : last.calls = call :: w.calls

-- Calls of which only the last one may have gone wrong.
inductive Ran : Wire → List Ask → List Call → Except Error Unit → Wire → Prop
  | nothing (w : Wire) : Ran w [] [] (.ok ()) w
  | stopped {w last : Wire} {ask : Ask} {call : Call} {e : Error}
      (hdoes : w.Does ask call (.error e) last) : Ran w [ask] [call] (.error e) last
  | next {w middle last : Wire} {ask : Ask} {call : Call} {asks : List Ask} {calls : List Call}
      {result : Except Error Unit} (hdoes : w.Does ask call (.ok ()) middle)
      (hrest : Ran middle asks calls result last) :
      Ran w (ask :: asks) (call :: calls) result last

theorem clear_calls (w : Wire) : w.clear.2.calls = .clear :: w.calls := by
  unfold clear
  dsimp only
  split
  · rfl
  · split <;> rfl

theorem write_does (w : Wire) (bytes : List UInt8) :
    ∃ call, w.Does (.write bytes) call (w.make (.write bytes)).1 (w.make (.write bytes)).2 := by
  cases hfailure : w.writeFailure with
  | some reason =>
      have hwrite : w.write bytes = (.error reason, w.record .writeFailed) := by
        simp only [write, hfailure]
      refine ⟨.writeFailed, rfl, ?_, ?_⟩
      · simp only [make, hwrite]
        exact .refused bytes reason
      · simp only [make, hwrite]
        rfl
  | none =>
      obtain ⟨accepted, hfront, hwrite⟩ : ∃ accepted, accepted <+: bytes ∧
          w.write bytes = (.ok accepted.length, w.record (.write accepted)) := by
        simp only [write, hfailure]
        cases w.writeLimit with
        | none => exact ⟨bytes, List.prefix_rfl, rfl⟩
        | some limit => exact ⟨bytes.take limit, List.take_prefix limit bytes, rfl⟩
      refine ⟨.write accepted, rfl, ?_, ?_⟩
      · simp only [make, hwrite]
        by_cases hwhole : accepted.length = bytes.length
        · rw [if_pos hwhole, hfront.eq_of_length hwhole]
          exact .whole bytes
        · rw [if_neg hwhole]
          exact .short hfront hwhole
      · simp only [make, hwrite]
        rfl

theorem exists_does (w : Wire) (ask : Ask) :
    ∃ call, w.Does ask call (w.make ask).1 (w.make ask).2 := by
  cases ask with
  | flush => exact ⟨.flush, rfl, .flush _, rfl⟩
  | clear => exact ⟨.clear, rfl, .clear _, w.clear_calls⟩
  | write bytes => exact w.write_does bytes

theorem exists_ran (w : Wire) (asks : List Ask) :
    ∃ made calls, made <+: asks ∧ Ran w made calls (w.makeAll asks).1 (w.makeAll asks).2 ∧
      ((w.makeAll asks).1 = .ok () → made = asks) := by
  induction asks generalizing w with
  | nil => exact ⟨[], [], List.prefix_rfl, .nothing w, fun _ => rfl⟩
  | cons ask rest ih =>
      obtain ⟨call, hdoes⟩ := w.exists_does ask
      rw [makeAll]
      rcases hmake : w.make ask with ⟨e | done, middle⟩
      · rw [hmake] at hdoes
        exact ⟨[ask], [call], by simp, .stopped hdoes, nofun⟩
      · rw [hmake] at hdoes
        obtain ⟨made, calls, hfront, hran, hall⟩ := ih middle
        exact ⟨ask :: made, call :: calls, (List.prefix_cons_inj ask).mpr hfront,
          .next hdoes hran, fun hok => congrArg (ask :: ·) (hall hok)⟩

theorem Ran.calls_eq {w last : Wire} {made : List Ask} {calls : List Call}
    {result : Except Error Unit} (h : Ran w made calls result last) :
    last.calls = calls.reverse ++ w.calls := by
  induction h with
  | nothing w => rfl
  | stopped hdoes => exact hdoes.calls
  | next hdoes hrest ih =>
      rw [ih, hdoes.calls, List.reverse_cons, List.append_assoc]
      rfl

theorem Ran.calls_of_ok {w last : Wire} {made : List Ask} {calls : List Call}
    {result : Except Error Unit} (h : Ran w made calls result last) (hok : result = .ok ()) :
    calls = made.map Ask.call := by
  induction h with
  | nothing w => rfl
  | stopped hdoes => cases hok
  | next hdoes hrest ih => rw [ih hok, hdoes.recorded.eq_call rfl, List.map_cons]

def sent (w : Wire) : List (List UInt8) :=
  w.calls.reverse.filterMap fun
    | .write bytes => some bytes
    | _ => none

theorem Does.sent_length {w last : Wire} {ask : Ask} {call : Call} {result : Except Error Unit}
    (h : w.Does ask call result last) :
    last.sent.length ≤ w.sent.length + if ask.isWrite then 1 else 0 := by
  have hcalls := h.calls
  simp only [sent, hcalls, List.reverse_cons, List.filterMap_append, List.length_append]
  cases h.recorded <;> simp [Ask.isWrite]

theorem Ran.sent_length {w last : Wire} {made : List Ask} {calls : List Call}
    {result : Except Error Unit} (h : Ran w made calls result last) :
    last.sent.length ≤ w.sent.length + made.countP Ask.isWrite := by
  induction h with
  | nothing w => exact Nat.le_refl _
  | stopped hdoes =>
      have hone := hdoes.sent_length
      rwa [List.countP_singleton]
  | next hdoes hrest ih =>
      have hone := hdoes.sent_length
      rw [List.countP_cons]
      omega

theorem makeAll_cons_ok_iff {w : Wire} {ask : Ask} {rest : List Ask} :
    (w.makeAll (ask :: rest)).1 = .ok () ↔
      (w.make ask).1 = .ok () ∧ ((w.make ask).2.makeAll rest).1 = .ok () := by
  rw [makeAll]
  rcases w.make ask with ⟨e | done, middle⟩ <;> simp

theorem makeAll_cons_error_iff {w : Wire} {ask : Ask} {rest : List Ask} {e : Error} :
    (w.makeAll (ask :: rest)).1 = .error e ↔
      (w.make ask).1 = .error e ∨
        (w.make ask).1 = .ok () ∧ ((w.make ask).2.makeAll rest).1 = .error e := by
  rw [makeAll]
  rcases w.make ask with ⟨e | done, middle⟩ <;> simp

theorem mapError_ok_iff {result : Except String Unit} :
    result.mapError Error.io = .ok () ↔ result = .ok () := by
  cases result <;> simp [Except.mapError]

theorem exists_io_of_mapError {result : Except String Unit} {e : Error}
    (h : result.mapError Error.io = .error e) : ∃ reason, e = .io reason := by
  cases result with
  | error reason => exact ⟨reason, (Except.error.inj h).symm⟩
  | ok done => cases h

theorem make_write_ok_iff {w : Wire} {bytes : List UInt8} :
    (w.make (.write bytes)).1 = .ok () ↔ (w.write bytes).1 = .ok bytes.length := by
  rw [make]
  cases (w.write bytes).1 with
  | error reason => simp
  | ok taken =>
      simp only [Except.ok.injEq]
      split <;> simp [*]

theorem make_write_short_iff {w : Wire} {bytes : List UInt8} {expected taken : Nat} :
    (w.make (.write bytes)).1 = .error (.shortWrite expected taken) ↔
      (w.write bytes).1 = .ok taken ∧ taken ≠ bytes.length ∧ expected = bytes.length := by
  rw [make]
  cases (w.write bytes).1 with
  | error reason => simp
  | ok count =>
      simp only [Except.ok.injEq]
      by_cases hwhole : count = bytes.length
      · rw [if_pos hwhole]
        refine iff_of_false (by simp) ?_
        rintro ⟨rfl, hne, -⟩
        exact hne hwhole
      · rw [if_neg hwhole]
        constructor
        · intro h
          obtain ⟨rfl, rfl⟩ := Error.shortWrite.inj (Except.error.inj h)
          exact ⟨rfl, hwhole, rfl⟩
        · rintro ⟨rfl, -, rfl⟩
          rfl

-- What goes wrong is a failure that the stream reports, or a write that is short.
theorem make_error_cases {w : Wire} {ask : Ask} {e : Error} (h : (w.make ask).1 = .error e) :
    (∃ reason, e = .io reason) ∨
      ∃ bytes taken, ask = .write bytes ∧ e = .shortWrite bytes.length taken := by
  cases ask with
  | flush => exact .inl (exists_io_of_mapError h)
  | clear => exact .inl (exists_io_of_mapError h)
  | write bytes =>
      rw [make] at h
      cases hresult : (w.write bytes).1 with
      | error reason =>
          rw [hresult] at h
          exact .inl ⟨reason, (Except.error.inj h).symm⟩
      | ok taken =>
          simp only [hresult] at h
          split at h
          · cases h
          · exact .inr ⟨bytes, taken, rfl, (Except.error.inj h).symm⟩

theorem makeAll_error_cases {w : Wire} {asks : List Ask} {e : Error}
    (h : (w.makeAll asks).1 = .error e) :
    (∃ reason, e = .io reason) ∨
      ∃ bytes taken, .write bytes ∈ asks ∧ e = .shortWrite bytes.length taken := by
  induction asks generalizing w with
  | nil => cases h
  | cons ask rest ih =>
      obtain hfailed | ⟨-, hrest⟩ := makeAll_cons_error_iff.mp h
      · obtain hio | ⟨bytes, taken, rfl, hshort⟩ := make_error_cases hfailed
        · exact .inl hio
        · exact .inr ⟨bytes, taken, List.mem_cons_self, hshort⟩
      · obtain hio | ⟨bytes, taken, hmem, hshort⟩ := ih hrest
        · exact .inl hio
        · exact .inr ⟨bytes, taken, List.mem_cons_of_mem ask hmem, hshort⟩

end Wire

def writeAsks (frame : List UInt8) : List Ask := [.flush, .clear, .write frame, .flush]

namespace Station

theorem writeWhole_eq (frame : List UInt8) (w : Wire) :
    writeWhole frame w = w.makeAll (writeAsks frame) := by
  simp only [writeWhole, writeAsks, Wire.makeAll, Wire.make]
  rcases w.flush with ⟨reason | done, flushed⟩
  · rfl
  rcases hclear : flushed.clear with ⟨reason | done, cleared⟩
  · simp only [Except.mapError, hclear]
  rcases hwrite : cleared.write frame with ⟨reason | taken, written⟩
  · simp only [Except.mapError, hclear, hwrite]
  simp only [Except.mapError, hclear, hwrite]
  by_cases hwhole : taken = frame.length
  · simp only [if_pos hwhole]
    rcases written.flush with ⟨reason | done, last⟩ <;> rfl
  · simp only [if_neg hwhole]

theorem writeWhole_ok_iff {frame : List UInt8} {w : Wire} :
    (writeWhole frame w).1 = .ok () ↔
      w.flush.1 = .ok () ∧ w.flush.2.clear.1 = .ok () ∧
        (w.flush.2.clear.2.write frame).1 = .ok frame.length ∧
        (w.flush.2.clear.2.write frame).2.flush.1 = .ok () := by
  rw [writeWhole_eq, writeAsks]
  simp only [Wire.makeAll_cons_ok_iff, Wire.make_write_ok_iff, Wire.make_flush, Wire.make_clear,
    Wire.make_write_snd, Wire.makeAll_nil, Wire.mapError_ok_iff, and_true]

theorem writeWhole_short_iff {frame : List UInt8} {w : Wire} {expected taken : Nat} :
    (writeWhole frame w).1 = .error (.shortWrite expected taken) ↔
      w.flush.1 = .ok () ∧ w.flush.2.clear.1 = .ok () ∧
        (w.flush.2.clear.2.write frame).1 = .ok taken ∧ taken ≠ frame.length ∧
          expected = frame.length := by
  have hstream (result : Except String Unit) :
      result.mapError Error.io ≠ .error (.shortWrite expected taken) := by
    intro h
    obtain ⟨reason, hio⟩ := Wire.exists_io_of_mapError h
    cases hio
  rw [writeWhole_eq, writeAsks]
  simp only [Wire.makeAll_cons_error_iff, Wire.make_write_short_iff, Wire.make_write_ok_iff,
    Wire.make_flush, Wire.make_clear, Wire.make_write_snd, Wire.makeAll_nil, Wire.mapError_ok_iff,
    hstream, false_or, reduceCtorEq, and_false, or_false]

theorem writeWhole_error_cases {frame : List UInt8} {w : Wire} {e : Error}
    (h : (writeWhole frame w).1 = .error e) :
    (∃ reason, e = .io reason) ∨ ∃ taken, e = .shortWrite frame.length taken := by
  rw [writeWhole_eq] at h
  obtain hio | ⟨bytes, taken, hmem, hshort⟩ := Wire.makeAll_error_cases h
  · exact .inl hio
  · simp only [writeAsks, List.mem_cons, Ask.write.injEq, List.not_mem_nil, reduceCtorEq, false_or,
      or_false] at hmem
    exact .inr ⟨taken, hmem ▸ hshort⟩

theorem writeWhole_calls {frame : List UInt8} {w : Wire} (h : (writeWhole frame w).1 = .ok ()) :
    (writeWhole frame w).2.calls = .flush :: .write frame :: .clear :: .flush :: w.calls := by
  rw [writeWhole_eq] at h ⊢
  obtain ⟨made, calls, -, hran, hall⟩ := w.exists_ran (writeAsks frame)
  rw [hran.calls_eq, hran.calls_of_ok h, hall h]
  rfl

theorem writeFrame_of_open {s : Station} {payload frame : List UInt8}
    (hframe : Frame.encode payload = .ok frame) (hopen : s.transport.isOpen = true) :
    (s.writeFrame payload).1 = (writeWhole frame s.wire).1 ∧
      (s.writeFrame payload).2.wire = (writeWhole frame s.wire).2 ∧
      (s.writeFrame payload).2.transport =
        { s.transport with decoder := s.transport.decoder.reset, state := .connected } := by
  simp only [writeFrame, hframe, hopen, if_true, enter]
  rcases writeWhole frame s.wire with ⟨e | done, wire⟩
  · exact ⟨rfl, rfl, rfl⟩
  · exact ⟨rfl, rfl, rfl⟩

theorem writeFrame_of_closed {s : Station} {payload frame : List UInt8}
    (hframe : Frame.encode payload = .ok frame) (hclosed : s.transport.isOpen = false) :
    s.writeFrame payload = (.error .closed, s) := by
  simp [writeFrame, hframe, hclosed]

theorem writeFrame_of_unframed {s : Station} {payload : List UInt8} {reason : Frame.EncodeError}
    (h : Frame.encode payload = .error reason) :
    s.writeFrame payload = (.error (.encode reason), s) := by
  simp only [writeFrame, h]

theorem writeFrame_calls {s : Station} {payload : List UInt8}
    (h : (s.writeFrame payload).1 = .ok ()) :
    (s.writeFrame payload).2.wire.calls =
      .flush :: .write (Frame.lengthField payload.length ++ payload) :: .clear :: .flush ::
        s.wire.calls := by
  cases hencode : Frame.encode payload with
  | error reason =>
      rw [writeFrame_of_unframed hencode] at h
      cases h
  | ok frame =>
      cases hopen : s.transport.isOpen with
      | false =>
          rw [writeFrame_of_closed hencode hopen] at h
          cases h
      | true =>
          obtain ⟨hresult, hwire, -⟩ := writeFrame_of_open hencode hopen
          rw [hwire, writeWhole_calls (hresult.symm.trans h), Frame.eq_of_encode hencode]

theorem writeFrame_sent {s : Station} {payload : List UInt8}
    (h : (s.writeFrame payload).1 = .ok ()) :
    (s.writeFrame payload).2.wire.sent =
      s.wire.sent ++ [Frame.lengthField payload.length ++ payload] := by
  unfold Wire.sent
  rw [writeFrame_calls h]
  simp

-- The stream itself never says that a payload cannot be framed.
theorem writeFrame_ne_encode {payload frame : List UInt8} (h : Frame.encode payload = .ok frame)
    (s : Station) (reason : Frame.EncodeError) :
    (s.writeFrame payload).1 ≠ .error (.encode reason) := by
  intro herror
  cases hopen : s.transport.isOpen with
  | false =>
      rw [writeFrame_of_closed h hopen] at herror
      cases herror
  | true =>
      rw [(writeFrame_of_open h hopen).1] at herror
      obtain ⟨failure, hio⟩ | ⟨taken, hshort⟩ := writeWhole_error_cases herror
      · cases hio
      · cases hshort

structure Writes (s : Station) (frame : List UInt8) (result : Except Error Unit)
    (last : Station) : Prop where
  calls : ∃ made calls, made <+: [.flush, .clear, .write frame, .flush] ∧
    Wire.Ran s.wire made calls result last.wire ∧
    (result = .ok () → made = [.flush, .clear, .write frame, .flush]) ∧
    last.wire.calls = calls.reverse ++ s.wire.calls
  once : last.wire.sent.length ≤ s.wire.sent.length + 1
  ok_iff : result = .ok () ↔
    s.wire.flush.1 = .ok () ∧ s.wire.flush.2.clear.1 = .ok () ∧
      (s.wire.flush.2.clear.2.write frame).1 = .ok frame.length ∧
      (s.wire.flush.2.clear.2.write frame).2.flush.1 = .ok ()
  short_iff : ∀ expected taken, result = .error (.shortWrite expected taken) ↔
    s.wire.flush.1 = .ok () ∧ s.wire.flush.2.clear.1 = .ok () ∧
      (s.wire.flush.2.clear.2.write frame).1 = .ok taken ∧ taken ≠ frame.length ∧
      expected = frame.length
  error : ∀ e, result = .error e →
    (∃ reason, e = .io reason) ∨ ∃ taken, e = .shortWrite frame.length taken
  isOpen : last.transport.isOpen = true
  state : last.transport.state = .connected
  decoder : last.transport.decoder.ActsNew

theorem writeFrame_writes {s : Station} {payload frame : List UInt8}
    (hwidth : s.transport.decoder.lengthBytes.length = Frame.lengthWidth)
    (hframe : Frame.encode payload = .ok frame) (hopen : s.transport.isOpen = true) :
    s.Writes frame (s.writeFrame payload).1 (s.writeFrame payload).2 := by
  obtain ⟨hresult, hwire, htransport⟩ := writeFrame_of_open hframe hopen
  obtain ⟨made, calls, hfront, hran, hall⟩ := s.wire.exists_ran (writeAsks frame)
  rw [← writeWhole_eq, ← hresult, ← hwire] at hran
  rw [← writeWhole_eq, ← hresult] at hall
  constructor
  case calls => exact ⟨made, calls, hfront, hran, hall, hran.calls_eq⟩
  case once =>
    have hsent := hran.sent_length
    have hcount := hfront.sublist.countP_le (p := Ask.isWrite)
    have hone : (writeAsks frame).countP Ask.isWrite = 1 := rfl
    omega
  case ok_iff =>
    rw [hresult]
    exact writeWhole_ok_iff
  case short_iff =>
    intro expected taken
    rw [hresult]
    exact writeWhole_short_iff
  case error =>
    rw [hresult]
    exact fun e => writeWhole_error_cases
  case isOpen =>
    rw [htransport]
    exact hopen
  case state => rw [htransport]
  case decoder =>
    rw [htransport]
    exact Frame.Decoder.reset_actsNew hwidth

-- A payload that cannot be framed and a closed link change nothing, not even a partial inbound
-- frame. Else the frame is written in one call at most, and whatever fails, the link stays open.
theorem writeFrame_course (s : Station) (payload : List UInt8)
    (hwidth : s.transport.decoder.lengthBytes.length = Frame.lengthWidth) :
    (payload = [] ∨ Frame.payloadLimit < payload.length →
        ∃ reason, s.writeFrame payload = (.error (.encode reason), s)) ∧
      (payload ≠ [] → payload.length ≤ Frame.payloadLimit → s.transport.isOpen = false →
        s.writeFrame payload = (.error .closed, s)) ∧
      (payload ≠ [] → payload.length ≤ Frame.payloadLimit → s.transport.isOpen = true →
        ∃ frame, Frame.encode payload = .ok frame ∧
          s.Writes frame (s.writeFrame payload).1 (s.writeFrame payload).2) := by
  have hencode (hne : payload ≠ []) (hlimit : payload.length ≤ Frame.payloadLimit) :=
    Frame.encode_of_length (List.length_pos_iff.mpr hne) hlimit
  refine ⟨fun hlength => ?_, fun hne hlimit hclosed => ?_, fun hne hlimit hopen => ?_⟩
  · obtain rfl | hlarge := hlength
    · exact ⟨.empty, writeFrame_of_unframed rfl⟩
    · exact ⟨.tooLarge payload.length, writeFrame_of_unframed (Frame.encode_of_large hlarge)⟩
  · exact writeFrame_of_closed (hencode hne hlimit) hclosed
  · exact ⟨_, hencode hne hlimit, writeFrame_writes hwidth (hencode hne hlimit) hopen⟩

-- An open link in the middle of an inbound frame, whose stream takes two bytes at a time.
def narrowWire : Station where
  transport :=
    { settings := ⟨"sim0", 9600, .ofMillis 10⟩, state := .reading, isOpen := true,
      decoder := ⟨.filling 3, [3, 0], [0x55]⟩ }
  wire := { ports := ["sim0"], writeLimit := some 2 }

theorem writeFrame_course_narrowWire :
    (∃ reason, narrowWire.writeFrame [] = (.error (.encode reason), narrowWire)) ∧
      (narrowWire.writeFrame [9]).1 = .error (.shortWrite 3 2) ∧
      (narrowWire.writeFrame [9]).2.wire.calls = [.write [1, 0], .clear, .flush] ∧
      (narrowWire.writeFrame [9]).2.transport.state = .connected ∧
      (narrowWire.writeFrame [9]).2.transport.decoder.ActsNew := by
  obtain ⟨hempty, -, -⟩ := writeFrame_course narrowWire [] rfl
  obtain ⟨-, -, hopen⟩ := writeFrame_course narrowWire [9] rfl
  obtain ⟨frame, hframe, hwrites⟩ := hopen (by decide) (by decide) rfl
  refine ⟨hempty (.inl rfl), ?_, rfl, hwrites.state, hwrites.decoder⟩
  obtain rfl : [1, 0, 9] = frame := Except.ok.inj hframe
  exact (hwrites.short_iff 3 2).mpr ⟨rfl, rfl, rfl, by decide, rfl⟩

end Station

end RelayGateway.Link
