import RelayGateway.Proofs.Frame.Reader

namespace RelayGateway.Frame.Decoder

-- What a decoder holds in a phase.
def Holds (d : Decoder) : Phase → Prop
  | .hunting => d.payload = []
  | .opening => d.payload = []
  | .measuring collected => collected < lengthWidth ∧ d.payload = []
  | .filling expected =>
    0 < expected ∧ expected ≤ payloadLimit ∧ lengthValue d.lengthBytes = expected ∧
      d.payload.length < expected
  | .closing collected =>
    collected < closingMarker.length ∧ lengthValue d.lengthBytes = d.payload.length ∧
      0 < d.payload.length ∧ d.payload.length ≤ payloadLimit

structure Sound (d : Decoder) : Prop where
  width : d.lengthBytes.length = lengthWidth
  holds : d.Holds d.phase

theorem new_sound : Sound {} := ⟨rfl, rfl⟩

theorem Sound.reset {d : Decoder} (h : d.Sound) : d.reset.Sound := ⟨h.width, rfl⟩

theorem fail_sound {d : Decoder} (hwidth : d.lengthBytes.length = lengthWidth) (byte : UInt8)
    (fault : Fault) : (d.fail byte fault).2.Sound := by
  unfold fail
  split <;> exact ⟨hwidth, rfl⟩

theorem Sound.push {d : Decoder} (h : d.Sound) (byte : UInt8) : (d.push byte).2.Sound := by
  obtain ⟨hwidth, hholds⟩ := h
  have hkept := (d.push_lengthBytes_length byte).trans hwidth
  refine ⟨hkept, ?_⟩
  cases hphase : d.phase with
  | hunting =>
      rw [hphase] at hholds
      simp only [Decoder.push, hphase]
      split
      · exact hholds
      · rw [hphase]
        exact hholds
  | opening =>
      rw [hphase] at hholds
      simp only [Decoder.push, hphase]
      split
      · exact ⟨by decide, hholds⟩
      split
      · exact hholds
      · exact hholds
  | measuring collected =>
      rw [hphase] at hholds
      have hset : (d.lengthBytes.set collected byte).length = lengthWidth := by
        rw [List.length_set, hwidth]
      simp only [Decoder.push, hphase]
      split
      · rename_i hmore
        exact ⟨hmore, hholds.2⟩
      split
      · exact (fail_sound hset byte _).holds
      split
      · exact (fail_sound hset byte _).holds
      · rename_i hpos hlimit
        exact ⟨Nat.pos_of_ne_zero hpos, Nat.not_lt.mp hlimit, rfl, Nat.pos_of_ne_zero hpos⟩
  | filling expected =>
      rw [hphase] at hholds
      obtain ⟨hpos, hlimit, hvalue, hroom⟩ := hholds
      rw [push_filling_of_room hphase (by omega)]
      dsimp only
      split
      · rename_i hfull
        simp only [Holds, List.length_append, List.length_singleton, hfull]
        exact ⟨by decide, hvalue, hpos, hlimit⟩
      · rename_i hmore
        simp only [Holds, List.length_append, List.length_singleton]
        exact ⟨hpos, hlimit, hvalue, by omega⟩
  | closing collected =>
      rw [hphase] at hholds
      simp only [Decoder.push, hphase]
      split
      · exact (fail_sound hwidth byte _).holds
      split
      · rename_i hmore
        exact ⟨hmore, hholds.2⟩
      · rfl

theorem Sound.feed {d : Decoder} (h : d.Sound) (bytes : List UInt8) : (d.feed bytes).Sound := by
  induction bytes generalizing d with
  | nil => exact h
  | cons byte rest ih =>
      rw [feed_cons]
      exact ih (h.push byte)

theorem Sound.respond {d : Decoder} (h : d.Sound) (input : Input) : (d.respond input).Sound := by
  cases input with
  | byte value => exact h.push value
  | reset => exact h.reset

theorem Sound.foldl_respond {d : Decoder} (h : d.Sound) (history : List Input) :
    (history.foldl Decoder.respond d).Sound := by
  induction history generalizing d with
  | nil => exact h
  | cons input rest ih => exact ih (h.respond input)

theorem after_sound (history : List Input) : (after history).Sound :=
  new_sound.foldl_respond history

end RelayGateway.Frame.Decoder
