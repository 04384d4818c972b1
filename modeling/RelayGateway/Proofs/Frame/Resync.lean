import RelayGateway.Proofs.Frame.Cut
import RelayGateway.Proofs.Frame.Noise
import RelayGateway.Proofs.Frame.Phases

namespace RelayGateway.Frame

theorem clear_of_noise {noise payload frame : List UInt8} (hnoise : ¬ openingMarker <:+: noise)
    (hframe : enclose payload = .ok frame) : Clear (noise ++ frame) 0 noise.length := by
  intro place _ hlt hopens
  obtain ⟨hfirst, hsecond⟩ := hopens
  rw [List.getElem?_append_left hlt] at hfirst
  by_cases hnext : place + 1 < noise.length
  · rw [List.getElem?_append_left hnext] at hsecond
    have hmarker : noise.drop place = openingMarker ++ noise.drop (place + 1 + 1) := by
      rw [drop_eq_cons hfirst, drop_eq_cons hsecond]
      rfl
    refine hnoise ⟨noise.take place, noise.drop (place + 1 + 1), ?_⟩
    rw [List.append_assoc, ← hmarker, List.take_append_drop]
  · -- what stands right behind the noise is the first byte of the frame's own marker
    have hbehind : place + 1 = noise.length := by omega
    have hopening := (frameAt_of_enclose noise hframe).1.opens.1
    rw [← hbehind, hsecond] at hopening
    exact absurd (Option.some.inj hopening) (by decide)

namespace Decoder

-- How many bytes a frame that has been begun may still take, the opening marker's second one included.
def outstanding (d : Decoder) : Nat :=
  match d.phase with
  | .hunting => 0
  | .opening => 1 + lengthWidth + payloadLimit + closingMarker.length
  | .measuring collected => lengthWidth - collected + payloadLimit + closingMarker.length
  | .filling expected => expected - d.payload.length + closingMarker.length
  | .closing collected => closingMarker.length - collected

def Nears (d : Decoder) (result : Step × Decoder) : Prop :=
  result.2.outstanding < d.outstanding ∧ (result.1 = .pending ∨ result.2.phase = .hunting)

theorem outstanding_of_hunting {d : Decoder} (h : d.phase = .hunting) : d.outstanding = 0 := by
  rw [outstanding, h]

theorem outstanding_le {d : Decoder} (h : d.Sound) : d.outstanding ≤ 517 := by
  have hholds := h.holds
  cases hphase : d.phase with
  | hunting => simp only [outstanding, hphase, Nat.zero_le]
  | opening => simp only [outstanding, hphase]; decide
  | measuring collected =>
      simp only [outstanding, hphase, lengthWidth, payloadLimit, closingMarker, List.length_cons,
        List.length_nil]
      omega
  | filling expected =>
      rw [hphase] at hholds
      obtain ⟨-, hlimit, -⟩ := hholds
      simp only [payloadLimit] at hlimit
      simp only [outstanding, hphase, closingMarker, List.length_cons, List.length_nil]
      omega
  | closing collected =>
      simp only [outstanding, hphase, closingMarker, List.length_cons, List.length_nil]
      omega

theorem push_hunting_quiet {d : Decoder} {byte : UInt8} (hphase : d.phase = .hunting)
    (hbyte : byte ≠ 0xFF) : d.push byte = (.pending, d) := by
  simp only [push, hphase, if_neg hbyte]

-- A fault ends the frame for good, since its byte opens no other.
theorem fail_nears {d e : Decoder} {byte : UInt8} (hbyte : byte ≠ 0xFF) (fault : Fault)
    (h : 0 < e.outstanding) : e.Nears (d.fail byte fault) := by
  have hphase : (d.fail byte fault).2.phase = .hunting := by rw [fail, if_neg hbyte, reset_phase]
  exact ⟨by rwa [outstanding_of_hunting hphase], .inr hphase⟩

theorem push_nears {d : Decoder} {byte : UInt8} (h : d.Sound) (hphase : d.phase ≠ .hunting)
    (hbyte : byte ≠ 0xFF) : d.Nears (d.push byte) := by
  have hholds := h.holds
  cases hcase : d.phase with
  | hunting => exact (hphase hcase).elim
  | opening =>
      simp only [Nears, push, hcase, if_neg hbyte, true_or, and_true]
      split
      · simp only [outstanding, hcase]
        decide
      · simp only [outstanding, hcase]
        decide
  | measuring collected =>
      rw [hcase] at hholds
      have hcollected := hholds.1
      have hpos : 0 < d.outstanding := by
        simp only [outstanding, hcase]
        omega
      simp only [push, hcase]
      split
      · refine ⟨?_, .inl rfl⟩
        simp only [outstanding, hcase]
        omega
      split
      · exact fail_nears hbyte _ hpos
      split
      · exact fail_nears hbyte _ hpos
      · refine ⟨?_, .inl rfl⟩
        simp only [outstanding, hcase, List.length_nil]
        omega
  | filling expected =>
      rw [hcase] at hholds
      obtain ⟨-, hlimit, -, hroom⟩ := hholds
      rw [push_filling_of_room hcase (by omega)]
      refine ⟨?_, .inl rfl⟩
      dsimp only
      split
      · simp only [outstanding, hcase]
        omega
      · simp only [outstanding, hcase, List.length_append, List.length_singleton]
        omega
  | closing collected =>
      rw [hcase] at hholds
      have hcollected := hholds.1
      have hpos : 0 < d.outstanding := by
        simp only [outstanding, hcase]
        omega
      simp only [push, hcase]
      split
      · exact fail_nears hbyte _ hpos
      split
      · refine ⟨?_, .inl rfl⟩
        simp only [outstanding, hcase]
        omega
      · exact ⟨by simpa only [outstanding] using hpos, .inr rfl⟩

theorem eventsFrom_hunting {d : Decoder} {quiet : List UInt8} (hphase : d.phase = .hunting)
    (hquiet : 0xFF ∉ quiet) (offset : Nat) : d.eventsFrom offset quiet = ([], d) := by
  induction quiet generalizing offset with
  | nil => rfl
  | cons byte rest ih =>
      obtain ⟨hbyte, hrest⟩ := not_or.mp (List.mem_cons.not.mp hquiet)
      have hpush := push_hunting_quiet hphase (Ne.symm hbyte)
      rw [eventsFrom_of_pending (by rw [hpush]), hpush, ih hrest]

-- A frame that has been begun comes to one end at most. The induction is on the bytes, and what is
-- outstanding goes down with each of them.
theorem eventsFrom_quiet {d : Decoder} {quiet : List UInt8} (h : d.Sound) (hquiet : 0xFF ∉ quiet)
    (offset : Nat) :
    (d.eventsFrom offset quiet).1.length ≤ 1 ∧
      (d.outstanding ≤ quiet.length → (d.eventsFrom offset quiet).2.phase = .hunting) := by
  induction quiet generalizing d offset with
  | nil =>
      refine ⟨Nat.zero_le 1, fun hle => ?_⟩
      by_contra hphase
      have hnears := (push_nears h hphase (show (0 : UInt8) ≠ 0xFF by decide)).1
      rw [List.length_nil] at hle
      omega
  | cons byte rest ih =>
      by_cases hphase : d.phase = .hunting
      · rw [eventsFrom_hunting hphase hquiet]
        exact ⟨Nat.zero_le 1, fun _ => hphase⟩
      obtain ⟨hbyte, hrest⟩ := not_or.mp (List.mem_cons.not.mp hquiet)
      obtain ⟨hlt, hend⟩ := push_nears h hphase (Ne.symm hbyte)
      obtain ⟨hone, hsettled⟩ := ih (h.push byte) hrest (offset + 1)
      rw [List.length_cons]
      by_cases hpending : (d.push byte).1 = .pending
      · rw [eventsFrom_of_pending hpending]
        exact ⟨hone, fun hle => hsettled (by omega)⟩
      · -- the frame has come to its end, and from there on the bytes are between frames
        have hhunting := hend.resolve_left hpending
        rw [eventsFrom_of_ne_pending hpending, eventsFrom_hunting hhunting hrest]
        exact ⟨Nat.le_refl 1, fun _ => hhunting⟩

theorem events_behindNoise {d : Decoder} {noise payload frame : List UInt8}
    (hphase : d.phase = .hunting) (hwidth : d.lengthBytes.length = lengthWidth)
    (hnoise : ¬ openingMarker <:+: noise) (hframe : enclose payload = .ok frame) :
    (d.events (noise ++ frame)).1 = [(noise.length + frame.length - 1, .frame payload)] := by
  obtain ⟨hat, hpayload⟩ := frameAt_of_enclose noise hframe
  have hlength := enclose_length hframe
  have hend : noise.length + 6 + payload.length = (noise ++ frame).length := by
    rw [List.length_append]
    omega
  have hnone : scan (noise ++ frame) (noise ++ frame).length = [] :=
    scan_of_none (nextVerdict?_of_clear (.refl _ _))
  have hscan : (d.events (noise ++ frame)).1 = scan (noise ++ frame) 0 :=
    (Tracks.hunting hphase (Nat.le_refl 0) (.refl _ 0)).eventsFrom_eq_scan hwidth rfl
  rw [hscan, hat.scan_eq (Nat.zero_le _) (clear_of_noise hnoise hframe), hpayload, hend, hnone]
  congr 2
  omega

-- After any bytes and resets, 517 bytes other than FF lead to one frame or fault at most and leave the
-- decoder between frames, with nothing kept. From there on the next frame is all that is found, at its
-- last byte, if there is no opening marker in front of it.
theorem events_resync (history : List Input) {quiet : List UInt8} (hlength : 517 ≤ quiet.length)
    (hquiet : 0xFF ∉ quiet) :
    let d := (after history).feed quiet
    ((after history).events quiet).1.length ≤ 1 ∧ d.phase = .hunting ∧ d.payload = [] ∧
      ∀ noise payload, ¬ openingMarker <:+: noise →
        0 < payload.length → payload.length ≤ payloadLimit →
          ∃ frame, enclose payload = .ok frame ∧
            (d.events (noise ++ frame)).1 = [(noise.length + frame.length - 1, .frame payload)] := by
  intro d
  have hsound := after_sound history
  have hle : (after history).outstanding ≤ quiet.length := Nat.le_trans (outstanding_le hsound) hlength
  obtain ⟨hone, hsettled⟩ := eventsFrom_quiet hsound hquiet 0
  have hphase : d.phase = .hunting := hsettled hle
  have hkept := (hsound.feed quiet).holds
  rw [show ((after history).feed quiet).phase = _ from hphase] at hkept
  refine ⟨hone, hphase, hkept, fun noise payload hnoise hpos hlimit => ?_⟩
  have hframe := enclose_of_length hpos hlimit
  exact ⟨_, hframe, events_behindNoise hphase (hsound.feed quiet).width hnoise hframe⟩

def nearlyLongest : List UInt8 :=
  [0xFE] ++ (lengthField payloadLimit ++ (List.replicate payloadLimit 0 ++ [0xFD]))

theorem nearlyLongest_length : nearlyLongest.length = 516 := by
  rw [nearlyLongest, List.length_append, List.length_append, List.length_append,
    List.length_replicate]
  rfl

theorem nearlyLongest_quiet : 0xFF ∉ nearlyLongest := by
  have hfield : lengthField payloadLimit = [0, 2] := rfl
  rw [nearlyLongest, hfield, List.mem_append, List.mem_append, List.mem_append, List.mem_replicate]
  decide

-- One byte less does not suffice: behind a single FF these are a frame whose last byte is to come.
theorem feed_nearlyLongest : ((after [.byte 0xFF]).feed nearlyLongest).phase = .closing 1 := by
  have hmeasuring : ((after [.byte 0xFF]).feed [0xFE]).phase = .measuring 0 := rfl
  obtain ⟨-, hfilling, hempty⟩ := feed_lengthField hmeasuring
    ((after_sound [.byte 0xFF]).feed [0xFE]).width (show 0 < payloadLimit by decide) (Nat.le_refl _)
  have hne : List.replicate payloadLimit (0 : UInt8) ≠ [] := by
    rw [Ne, List.replicate_eq_nil_iff]
    decide
  obtain ⟨-, hclosing, -⟩ := feed_filling hfilling hne
    (by rw [hempty, List.length_replicate, List.length_nil, Nat.zero_add]) (Nat.le_refl _)
  rw [nearlyLongest, feed_append, feed_append, feed_append, feed_cons, feed_nil]
  simp only [push, hclosing]
  rfl

theorem events_resync_longest :
    let quiet := nearlyLongest ++ [0xFC]
    let d := (after [.byte 0xFF]).feed quiet
    517 ≤ quiet.length ∧ 0xFF ∉ quiet ∧ ((after [.byte 0xFF]).events quiet).1.length ≤ 1 ∧
      d.phase = .hunting ∧
      ∃ frame, enclose [0xAA] = .ok frame ∧
        (d.events ([0xFF] ++ frame)).1 = [(7, .frame [0xAA])] := by
  intro quiet d
  have hlong : 517 ≤ quiet.length := by
    rw [List.length_append, nearlyLongest_length]
    decide
  have hquiet : 0xFF ∉ quiet := by simp [quiet, nearlyLongest_quiet]
  obtain ⟨hone, hphase, -, hnext⟩ := events_resync [.byte 0xFF] hlong hquiet
  obtain ⟨frame, hframe, hevents⟩ := hnext [0xFF] [0xAA] (by decide) (by decide) (by decide)
  obtain rfl : [0xFF, 0xFE, 1, 0, 0xAA, 0xFD, 0xFC] = frame := Except.ok.inj hframe
  exact ⟨hlong, hquiet, hone, hphase, _, hframe, hevents⟩

end Decoder

end RelayGateway.Frame
