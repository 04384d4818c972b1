import Mathlib.Data.List.Basic
import RelayGateway.Proofs.Frame.Grammar
import RelayGateway.Proofs.Frame.Reader

namespace RelayGateway.Frame

-- Payloads as the device sends them, each behind bytes that are no frame, and such bytes at the
-- end.
def transmission :
    List (List UInt8 × List UInt8) → List UInt8 → Except EncodeError (List UInt8)
  | [], last => .ok last
  | (noise, payload) :: rest, last => do
    let frame ← enclose payload
    let bytes ← transmission rest last
    return noise ++ frame ++ bytes

theorem transmission_cons {noise payload last bytes : List UInt8}
    {rest : List (List UInt8 × List UInt8)}
    (h : transmission ((noise, payload) :: rest) last = .ok bytes) :
    ∃ frame behind, enclose payload = .ok frame ∧ transmission rest last = .ok behind ∧
      bytes = noise ++ frame ++ behind := by
  rw [transmission] at h
  cases hframe : enclose payload with
  | error reason =>
      rw [hframe] at h
      cases h
  | ok frame =>
      cases hrest : transmission rest last with
      | error reason =>
          rw [hframe, hrest] at h
          cases h
      | ok behind =>
          rw [hframe, hrest] at h
          exact ⟨frame, behind, rfl, rfl, (Except.ok.inj h).symm⟩

theorem exists_transmission {sendings : List (List UInt8 × List UInt8)}
    (h : ∀ sending ∈ sendings, 0 < sending.2.length ∧ sending.2.length ≤ payloadLimit)
    (last : List UInt8) : ∃ bytes, transmission sendings last = .ok bytes := by
  induction sendings with
  | nil => exact ⟨last, rfl⟩
  | cons sending rest ih =>
      obtain ⟨noise, payload⟩ := sending
      obtain ⟨⟨hpos, hlimit⟩, hrest⟩ := List.forall_mem_cons.mp h
      obtain ⟨behind, hbehind⟩ := ih hrest
      rw [transmission, enclose_of_length hpos hlimit, hbehind]
      exact ⟨_, rfl⟩

namespace Decoder

-- Between frames a byte matters only if it may open a marker.
theorem push_idle {d : Decoder} {byte : UInt8} (hidle : d.isMidFrame = false)
    (hbyte : d.phase = .opening → byte ≠ 0xFE) :
    (d.push byte).1 = .pending ∧
      (d.push byte).2.phase = if byte = 0xFF then .opening else .hunting := by
  cases hphase : d.phase with
  | hunting =>
      simp only [push, hphase, true_and]
      split
      · rfl
      · exact hphase
  | opening =>
      simp only [push, hphase, if_neg (hbyte hphase), true_and]
  | measuring collected => simp [isMidFrame, hphase] at hidle
  | filling expected => simp [isMidFrame, hphase] at hidle
  | closing collected => simp [isMidFrame, hphase] at hidle

theorem isMidFrame_push {d : Decoder} {byte : UInt8} (hidle : d.isMidFrame = false)
    (hbyte : d.phase = .opening → byte ≠ 0xFE) : (d.push byte).2.isMidFrame = false := by
  have hphase := (push_idle hidle hbyte).2
  by_cases hmarker : byte = 0xFF
  · rw [if_pos hmarker] at hphase
    rw [isMidFrame, hphase]
  · rw [if_neg hmarker] at hphase
    rw [isMidFrame, hphase]

theorem feed_noise {d : Decoder} {noise : List UInt8} (hidle : d.isMidFrame = false)
    (hhead : d.phase = .opening → noise.head? ≠ some 0xFE) (hnoise : ¬ openingMarker <:+: noise) :
    d.payloads noise = [] ∧ (d.feed noise).isMidFrame = false := by
  induction noise generalizing d with
  | nil => exact ⟨rfl, hidle⟩
  | cons byte rest ih =>
      have hbyte : d.phase = .opening → byte ≠ 0xFE := by
        intro hphase hbyte
        exact hhead hphase (congrArg some hbyte)
      obtain ⟨hpending, hphase⟩ := push_idle hidle hbyte
      have hnext : (d.push byte).2.phase = .opening → rest.head? ≠ some 0xFE := by
        intro hopening hhead'
        rw [hphase] at hopening
        obtain ⟨behind, rfl⟩ : ∃ behind, rest = 0xFE :: behind := List.head?_eq_some_iff.mp hhead'
        by_cases hmarker : byte = 0xFF
        · exact hnoise ⟨[], behind, by rw [hmarker]; rfl⟩
        · rw [if_neg hmarker] at hopening
          cases hopening
      have hrest : ¬ openingMarker <:+: rest := fun h =>
        hnoise (h.trans (List.suffix_cons byte rest).isInfix)
      obtain ⟨hpayloads, hmid⟩ := ih (isMidFrame_push hidle hbyte) hnext hrest
      rw [payloads_cons, feed_cons, hpending, hpayloads]
      exact ⟨rfl, hmid⟩

theorem push_secondMarker {d : Decoder} (hphase : d.phase = .opening) :
    d.push 0xFE = (.pending, { d with phase := .measuring 0 }) := by
  simp only [push, hphase, if_true]

theorem feed_openingMarker {d : Decoder} (hidle : d.isMidFrame = false) :
    d.payloads openingMarker = [] ∧ (d.feed openingMarker).phase = .measuring 0 := by
  have hbyte : d.phase = .opening → (0xFF : UInt8) ≠ 0xFE := fun _ => by decide
  obtain ⟨hpending, hphase⟩ := push_idle hidle hbyte
  rw [if_pos rfl] at hphase
  refine ⟨?_, ?_⟩
  · simp only [openingMarker, payloads_cons, hpending, push_secondMarker hphase, payloads_nil]
    rfl
  · simp only [openingMarker, feed_cons, push_secondMarker hphase, feed_nil]

theorem feed_lengthField {d : Decoder} {size : Nat} (hphase : d.phase = .measuring 0)
    (hwidth : d.lengthBytes.length = lengthWidth) (hpos : 0 < size)
    (hlimit : size ≤ payloadLimit) :
    d.payloads (lengthField size) = [] ∧
      (d.feed (lengthField size)).phase = .filling size ∧
      (d.feed (lengthField size)).payload = [] := by
  obtain ⟨first, second, hbytes⟩ := List.length_eq_two.mp hwidth
  have hvalue : lengthValue [size.toUInt8, (size / 256).toUInt8] = size :=
    lengthValue_lengthField (Nat.lt_of_le_of_lt hlimit (by decide))
  have hlow : d.push size.toUInt8 = (.pending,
      { d with phase := .measuring 1, lengthBytes := [size.toUInt8, second] }) := by
    simp [push, hphase, hbytes, lengthWidth]
  have hhigh : ({ d with phase := .measuring 1, lengthBytes := [size.toUInt8, second] } :
      Decoder).push (size / 256).toUInt8 = (.pending,
        ⟨.filling size, [size.toUInt8, (size / 256).toUInt8], []⟩) := by
    simp only [push, lengthWidth, List.set_cons_succ, List.set_cons_zero, hvalue, Nat.lt_irrefl,
      Nat.reduceAdd, if_false, if_neg (Nat.pos_iff_ne_zero.mp hpos), if_neg (Nat.not_lt.mpr hlimit)]
  refine ⟨?_, ?_, ?_⟩
  · simp only [lengthField, payloads_cons, hlow, hhigh, payloads_nil]
    rfl
  · simp only [lengthField, feed_cons, hlow, hhigh, feed_nil]
  · simp only [lengthField, feed_cons, hlow, hhigh, feed_nil]

theorem feed_filling {d : Decoder} {size : Nat} {bytes : List UInt8}
    (hphase : d.phase = .filling size) (hne : bytes ≠ [])
    (hsize : d.payload.length + bytes.length = size) (hlimit : size ≤ payloadLimit) :
    d.payloads bytes = [] ∧ (d.feed bytes).phase = .closing 0 ∧
      (d.feed bytes).payload = d.payload ++ bytes := by
  induction bytes generalizing d with
  | nil => exact (hne rfl).elim
  | cons byte rest ih =>
      rw [List.length_cons] at hsize
      rw [payloads_cons, feed_cons, push_filling_of_room hphase (by omega)]
      cases rest with
      | nil =>
          rw [List.length_nil, Nat.zero_add] at hsize
          rw [if_pos hsize]
          exact ⟨rfl, rfl, rfl⟩
      | cons next rest =>
          rw [if_neg (by rw [List.length_cons] at hsize; omega)]
          obtain ⟨hpayloads, hclosing, hpayload⟩ := ih (d := { d with
              payload := d.payload ++ [byte], phase := .filling size }) rfl (by simp) (by
            rw [List.length_append, List.length_singleton]
            omega)
          rw [hpayloads, hclosing, hpayload, List.append_assoc]
          exact ⟨rfl, rfl, rfl⟩

theorem feed_closingMarker {d : Decoder} (hphase : d.phase = .closing 0) :
    d.payloads closingMarker = [d.payload] ∧ (d.feed closingMarker).phase = .hunting := by
  have hfirst : d.push 0xFD = (.pending, { d with phase := .closing 1 }) := by
    simp [push, hphase, closingMarker]
  have hsecond : ({ d with phase := .closing 1 } : Decoder).push 0xFC =
      (.frame d.payload, { d with phase := .hunting, payload := [] }) := by
    simp [push, closingMarker]
  refine ⟨?_, ?_⟩
  · simp only [closingMarker, payloads_cons, hfirst, hsecond, payloads_nil]
    rfl
  · simp only [closingMarker, feed_cons, hfirst, hsecond, feed_nil]

-- A frame brings its payload, whatever the payload holds.
theorem feed_enclosed {d : Decoder} {payload frame : List UInt8} (hidle : d.isMidFrame = false)
    (hwidth : d.lengthBytes.length = lengthWidth) (h : enclose payload = .ok frame) :
    d.payloads frame = [payload] ∧ (d.feed frame).phase = .hunting := by
  obtain ⟨hpos, hlimit⟩ := length_of_enclose h
  obtain ⟨hnone, hmeasuring⟩ := feed_openingMarker hidle
  obtain ⟨hnone', hfilling, hempty⟩ := feed_lengthField hmeasuring
    ((d.feed_lengthBytes_length _).trans hwidth) hpos hlimit
  obtain ⟨hnone'', hclosing, hfull⟩ := feed_filling hfilling (List.length_pos_iff.mp hpos)
    (by rw [hempty, List.length_nil, Nat.zero_add]) hlimit
  obtain ⟨hpayloads, hhunting⟩ := feed_closingMarker hclosing
  rw [hempty, List.nil_append] at hfull
  rw [enclose_eq h]
  simp only [payloads_append, feed_append, hnone, hnone', hnone'', hpayloads, hfull]
  exact ⟨rfl, hhunting⟩

theorem payloads_transmission {d : Decoder} {sendings : List (List UInt8 × List UInt8)}
    {last bytes : List UInt8} (hphase : d.phase = .hunting)
    (hwidth : d.lengthBytes.length = lengthWidth)
    (hnoise : ∀ noise ∈ sendings.map Prod.fst ++ [last], ¬ openingMarker <:+: noise)
    (h : transmission sendings last = .ok bytes) :
    d.payloads bytes = sendings.map Prod.snd := by
  have hidle (d : Decoder) (hphase : d.phase = .hunting) : d.isMidFrame = false := by
    rw [isMidFrame, hphase]
  have hquiet (d : Decoder) (hphase : d.phase = .hunting) (noise : List UInt8)
      (hnoise : ¬ openingMarker <:+: noise) :
      d.payloads noise = [] ∧ (d.feed noise).isMidFrame = false :=
    feed_noise (hidle d hphase) (by rw [hphase]; simp) hnoise
  induction sendings generalizing d bytes with
  | nil =>
      obtain rfl : last = bytes := Except.ok.inj h
      exact (hquiet d hphase last (hnoise last (by simp))).1
  | cons sending rest ih =>
      obtain ⟨noise, payload⟩ := sending
      obtain ⟨frame, behind, hframe, hbehind, rfl⟩ := transmission_cons h
      obtain ⟨hfirst, hrest⟩ := List.forall_mem_cons.mp hnoise
      obtain ⟨hnone, hmid⟩ := hquiet d hphase noise hfirst
      obtain ⟨hpayload, hhunting⟩ := feed_enclosed hmid
        ((d.feed_lengthBytes_length noise).trans hwidth) hframe
      rw [List.append_assoc, payloads_append, payloads_append, hnone, hpayload,
        ih hhunting (by simpa using hwidth) hrest hbehind]
      rfl

end Decoder

end RelayGateway.Frame
