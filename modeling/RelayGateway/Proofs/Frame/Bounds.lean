import Mathlib.Data.List.Basic
import Mathlib.Data.List.Induction
import RelayGateway.Proofs.Frame.Phases

namespace RelayGateway.Frame.Decoder

def write? (field : List UInt8) (place : Nat) (byte : UInt8) : Option (List UInt8) :=
  if place < field.length then some (field.set place byte) else none

def extend? (payload : List UInt8) (byte : UInt8) : Option (List UInt8) :=
  if payload.length < payloadLimit then some (payload ++ [byte]) else none

-- One byte with every access checked: none where it lacks its place or its room.
def push? (d : Decoder) (byte : UInt8) : Option (Step × Decoder) :=
  match d.phase with
  | .hunting =>
    some (.pending, if byte = 0xFF then { d with phase := .opening } else d)
  | .opening =>
    let phase :=
      if byte = 0xFE then .measuring 0
      else if byte = 0xFF then .opening
      else .hunting
    some (.pending, { d with phase })
  | .measuring collected => do
    let lengthBytes ← write? d.lengthBytes collected byte
    let d := { d with lengthBytes }
    if collected + 1 < lengthWidth then
      return (.pending, { d with phase := .measuring (collected + 1) })
    let expected := lengthValue d.lengthBytes
    if expected = 0 then
      return d.fail byte .zeroLength
    if expected > payloadLimit then
      return d.fail byte (.oversized expected)
    return (.pending, { d with phase := .filling expected, payload := [] })
  | .filling expected => do
    let payload ← extend? d.payload byte
    let phase := if payload.length = expected then .closing 0 else d.phase
    return (.pending, { d with payload, phase })
  | .closing collected => do
    let wanted ← closingMarker[collected]?
    if byte ≠ wanted then
      return d.fail byte .brokenEnd
    if collected + 1 < closingMarker.length then
      return (.pending, { d with phase := .closing (collected + 1) })
    return (.frame d.payload, { d with phase := .hunting, payload := [] })

def respond? (d : Decoder) : Input → Option Decoder
  | .byte value => (d.push? value).map Prod.snd
  | .reset => some d.reset

def after? (history : List Input) : Option Decoder := history.foldlM respond? {}

-- In a sound state nothing that a byte needs is missing.
theorem Sound.push?_eq {d : Decoder} (h : d.Sound) (byte : UInt8) :
    d.push? byte = some (d.push byte) := by
  have hholds := h.holds
  cases hphase : d.phase with
  | hunting => simp only [push?, Decoder.push, hphase]
  | opening => simp only [push?, Decoder.push, hphase]
  | measuring collected =>
      rw [hphase] at hholds
      have hwrite : write? d.lengthBytes collected byte = some (d.lengthBytes.set collected byte) :=
        if_pos (by rw [h.width]; exact hholds.1)
      simp only [push?, Decoder.push, hphase, hwrite, Option.bind_eq_bind, Option.bind_some]
      split
      · rfl
      split
      · rfl
      split <;> rfl
  | filling expected =>
      rw [hphase] at hholds
      obtain ⟨-, hlimit, -, hroom⟩ := hholds
      have hextend : extend? d.payload byte = some (d.payload ++ [byte]) := if_pos (by omega)
      rw [push_filling_of_room hphase (by omega)]
      simp only [push?, hphase, hextend, Option.bind_eq_bind, Option.bind_some, Option.pure_def,
        List.length_append, List.length_singleton]
  | closing collected =>
      rw [hphase] at hholds
      have hwanted := List.getElem?_eq_getElem hholds.1
      simp only [push?, Decoder.push, hphase, hwanted, Option.bind_eq_bind, Option.bind_some, ne_eq,
        Option.some.injEq, eq_comm (a := byte)]
      split
      · rfl
      split <;> rfl

theorem Sound.respond?_eq {d : Decoder} (h : d.Sound) (input : Input) :
    d.respond? input = some (d.respond input) := by
  cases input with
  | byte value => rw [respond?, h.push?_eq, Option.map_some, Decoder.respond]
  | reset => rfl

theorem Sound.foldlM_respond? {d : Decoder} (h : d.Sound) (history : List Input) :
    history.foldlM respond? d = some (history.foldl Decoder.respond d) := by
  induction history generalizing d with
  | nil => rfl
  | cons input rest ih =>
      rw [List.foldlM_cons, h.respond?_eq, Option.bind_eq_bind, Option.bind_some, ih (h.respond input),
        List.foldl_cons]

theorem push_measuring_lengthBytes {d : Decoder} {collected : Nat}
    (hphase : d.phase = .measuring collected) (byte : UInt8) :
    (d.push byte).2.lengthBytes = d.lengthBytes.set collected byte := by
  simp only [push, hphase]
  split
  · rfl
  split
  · exact fail_lengthBytes ..
  split
  · exact fail_lengthBytes ..
  · rfl

def Reached (d : Decoder) : Prop := ∃ history, after history = d

namespace Reached

variable {low high : UInt8} {payload : List UInt8}

theorem respond {d : Decoder} (h : d.Reached) (input : Input) : (d.respond input).Reached := by
  obtain ⟨history, rfl⟩ := h
  exact ⟨history ++ [input], by rw [after, List.foldl_append]; rfl⟩

theorem push {d : Decoder} (h : d.Reached) (byte : UInt8) : (d.push byte).2.Reached :=
  h.respond (.byte byte)

-- Any two bytes may stand in the length field: they are sent as a length, and a reset forgets all else.
theorem hunting (low high : UInt8) : Reached ⟨.hunting, [low, high], []⟩ := by
  have hnew : Reached {} := ⟨[], rfl⟩
  have hlow : Reached ⟨.measuring 1, [low, 0], []⟩ := ((hnew.push 0xFF).push 0xFE).push low
  have hdropped := (hlow.push high).respond .reset
  rwa [Decoder.respond, Decoder.reset, push_measuring_lengthBytes rfl] at hdropped

theorem opening (low high : UInt8) : Reached ⟨.opening, [low, high], []⟩ :=
  (hunting low high).push 0xFF

theorem measuring_zero (low high : UInt8) : Reached ⟨.measuring 0, [low, high], []⟩ :=
  (opening low high).push 0xFE

theorem measuring_one (low high : UInt8) : Reached ⟨.measuring 1, [low, high], []⟩ :=
  (measuring_zero 0 high).push low

theorem filling_nil (hpos : 0 < lengthValue [low, high])
    (hlimit : lengthValue [low, high] ≤ payloadLimit) :
    Reached ⟨.filling (lengthValue [low, high]), [low, high], []⟩ := by
  have hne : lengthValue [low, high] ≠ 0 := Nat.pos_iff_ne_zero.mp hpos
  have hpush := (measuring_one low 0).push high
  simpa only [Decoder.push, lengthWidth, List.set_cons_succ, List.set_cons_zero, Nat.reduceAdd,
    Nat.lt_irrefl, if_false, hne, gt_iff_lt, Nat.not_lt.mpr hlimit] using hpush

-- Any payload short of its length. The induction is on the bytes, the last one first.
theorem filling (hlimit : lengthValue [low, high] ≤ payloadLimit)
    (hroom : payload.length < lengthValue [low, high]) :
    Reached ⟨.filling (lengthValue [low, high]), [low, high], payload⟩ := by
  induction payload using List.reverseRecOn with
  | nil => exact filling_nil hroom hlimit
  | append_singleton front last ih =>
      rw [List.length_append, List.length_singleton] at hroom
      have hlast := (ih (by omega)).push last
      rwa [push_filling_of_room rfl (show front.length < payloadLimit by omega),
        if_neg (Nat.ne_of_lt hroom)] at hlast

theorem closing_zero (hpos : 0 < payload.length) (hlimit : payload.length ≤ payloadLimit)
    (hvalue : lengthValue [low, high] = payload.length) :
    Reached ⟨.closing 0, [low, high], payload⟩ := by
  obtain rfl | ⟨front, last, rfl⟩ := payload.eq_nil_or_concat'
  · cases hpos
  rw [List.length_append, List.length_singleton] at hlimit hvalue
  have hfront : Reached ⟨.filling (lengthValue [low, high]), [low, high], front⟩ :=
    filling (by omega) (by omega)
  have hlast := hfront.push last
  rwa [push_filling_of_room rfl (show front.length < payloadLimit by omega),
    if_pos hvalue.symm] at hlast

theorem closing_one (hpos : 0 < payload.length) (hlimit : payload.length ≤ payloadLimit)
    (hvalue : lengthValue [low, high] = payload.length) :
    Reached ⟨.closing 1, [low, high], payload⟩ :=
  (closing_zero hpos hlimit hvalue).push 0xFD

end Reached

theorem Sound.reached {d : Decoder} (h : d.Sound) : d.Reached := by
  obtain ⟨low, high, hbytes⟩ := List.length_eq_two.mp h.width
  have hholds := h.holds
  obtain ⟨phase, lengthBytes, payload⟩ := d
  obtain rfl : lengthBytes = [low, high] := hbytes
  cases phase with
  | hunting =>
      obtain rfl : payload = [] := hholds
      exact .hunting low high
  | opening =>
      obtain rfl : payload = [] := hholds
      exact .opening low high
  | measuring collected =>
      obtain ⟨hcollected, rfl⟩ : collected < lengthWidth ∧ payload = [] := hholds
      obtain rfl | rfl : collected = 0 ∨ collected = 1 := by
        simp only [lengthWidth] at hcollected
        omega
      · exact .measuring_zero low high
      · exact .measuring_one low high
  | filling expected =>
      obtain ⟨-, hlimit, hvalue, hroom⟩ := hholds
      obtain rfl : lengthValue [low, high] = expected := hvalue
      exact .filling hlimit hroom
  | closing collected =>
      obtain ⟨hcollected, hvalue, hpos, hlimit⟩ := hholds
      obtain rfl | rfl : collected = 0 ∨ collected = 1 := by
        simp only [closingMarker, List.length_cons, List.length_nil] at hcollected
        omega
      · exact .closing_zero hpos hlimit hvalue
      · exact .closing_one hpos hlimit hvalue

theorem reached_iff_sound (d : Decoder) : d.Reached ↔ d.Sound := by
  refine ⟨?_, Sound.reached⟩
  rintro ⟨history, rfl⟩
  exact after_sound history

-- Bytes and resets lead to the sound states, to all of them and to no others. On the way no byte lacks
-- its place in the length field or in the closing marker, or its room in the payload, and neither does
-- any byte that may come next.
theorem reached_inBounds :
    (∀ d : Decoder, d.Reached ↔ d.Sound) ∧
      ∀ history, after? history = some (after history) ∧
        ∀ byte, (after history).push? byte = some ((after history).push byte) := by
  refine ⟨reached_iff_sound, fun history => ⟨new_sound.foldlM_respond? history, fun byte => ?_⟩⟩
  exact (after_sound history).push?_eq byte

end RelayGateway.Frame.Decoder
