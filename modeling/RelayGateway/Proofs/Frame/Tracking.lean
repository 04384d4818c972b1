import RelayGateway.Proofs.Frame.Decoder
import RelayGateway.Proofs.Frame.Grammar
import Mathlib.Data.List.Basic

namespace RelayGateway.Frame

-- What a decoder that has taken the bytes before `stop` knows of them, when the next marker is
-- looked for from `pos` on.
inductive Tracks (bytes : List UInt8) (pos : Nat) : Nat → Decoder → Prop
  | hunting {d : Decoder} {stop : Nat} (hphase : d.phase = .hunting) (hle : pos ≤ stop)
      (hclear : Clear bytes pos stop) : Tracks bytes pos stop d
  | opening {d : Decoder} {place : Nat} (hphase : d.phase = .opening) (hle : pos ≤ place)
      (hclear : Clear bytes pos place) (hmarker : bytes[place]? = some 0xFF) :
      Tracks bytes pos (place + 1) d
  | measuring {d : Decoder} {place collected : Nat} (hphase : d.phase = .measuring collected)
      (hfirst : FirstOpening bytes pos place) (hcollected : collected < lengthWidth)
      (hlow : collected = 1 → d.lengthBytes[0]? = bytes[place + 2]?) :
      Tracks bytes pos (place + 2 + collected) d
  | filling {d : Decoder} {place size : Nat} (hphase : d.phase = .filling size)
      (hfirst : FirstOpening bytes pos place) (hsize : sizeAt? bytes place = some size)
      (hlimit : size ≤ payloadLimit) (hlt : d.payload.length < size)
      (hpayload : d.payload = (bytes.drop (place + 4)).take d.payload.length) :
      Tracks bytes pos (place + 4 + d.payload.length) d
  | closing {d : Decoder} {place size collected : Nat} (hphase : d.phase = .closing collected)
      (hfirst : FirstOpening bytes pos place) (hsize : sizeAt? bytes place = some size)
      (hpos : 0 < size) (hlimit : size ≤ payloadLimit)
      (hpayload : d.payload = (bytes.drop (place + 4)).take size)
      (hcollected : collected < closingMarker.length)
      (hmarker : collected = 1 → bytes[place + 4 + size]? = some 0xFD) :
      Tracks bytes pos (place + 4 + size + collected) d

def Continues (bytes : List UInt8) (pos stop : Nat) (result : Step × Decoder) : Prop :=
  (result.1 = .pending ∧ Tracks bytes pos (stop + 1) result.2) ∨
    (result.1 ≠ .pending ∧ ∃ next, nextVerdict? bytes pos = some ⟨stop, result.1, next⟩ ∧
      Tracks bytes next (stop + 1) result.2)

theorem Clear.refl (bytes : List UInt8) (pos : Nat) : Clear bytes pos pos := by
  intro place hle hlt
  omega

theorem Clear.succ {bytes : List UInt8} {pos stop : Nat} (hclear : Clear bytes pos stop)
    (hstop : ¬OpensAt bytes stop) : Clear bytes pos (stop + 1) := by
  intro place hle hlt
  by_cases heq : place = stop
  · exact heq ▸ hstop
  · exact hclear place hle (by omega)

theorem not_opensAt_of_first {bytes : List UInt8} {place : Nat} {byte : UInt8}
    (hbyte : bytes[place]? = some byte) (hne : byte ≠ 0xFF) : ¬OpensAt bytes place := by
  rintro ⟨hfirst, -⟩
  rw [hbyte] at hfirst
  exact hne (Option.some.inj hfirst)

theorem not_opensAt_of_second {bytes : List UInt8} {place : Nat} {byte : UInt8}
    (hbyte : bytes[place + 1]? = some byte) (hne : byte ≠ 0xFE) : ¬OpensAt bytes place := by
  rintro ⟨-, hsecond⟩
  rw [hbyte] at hsecond
  exact hne (Option.some.inj hsecond)

theorem push_hunting {bytes : List UInt8} {pos stop : Nat} {d : Decoder} {byte : UInt8}
    (hphase : d.phase = .hunting) (hle : pos ≤ stop) (hclear : Clear bytes pos stop)
    (hbyte : bytes[stop]? = some byte) :
    (d.push byte).1 = .pending ∧ Tracks bytes pos (stop + 1) (d.push byte).2 := by
  simp only [Decoder.push, hphase, true_and]
  by_cases hmarker : byte = 0xFF
  · rw [if_pos hmarker]
    exact .opening rfl hle hclear (hmarker ▸ hbyte)
  · rw [if_neg hmarker]
    exact .hunting hphase (by omega) (hclear.succ (not_opensAt_of_first hbyte hmarker))

theorem push_opening {bytes : List UInt8} {pos place : Nat} {d : Decoder} {byte : UInt8}
    (hphase : d.phase = .opening) (hle : pos ≤ place) (hclear : Clear bytes pos place)
    (hmarker : bytes[place]? = some 0xFF) (hbyte : bytes[place + 1]? = some byte) :
    (d.push byte).1 = .pending ∧ Tracks bytes pos (place + 1 + 1) (d.push byte).2 := by
  simp only [Decoder.push, hphase, true_and]
  by_cases hopens : byte = 0xFE
  · have hfirst : FirstOpening bytes pos place := ⟨hle, ⟨hmarker, hopens ▸ hbyte⟩, hclear⟩
    rw [if_pos hopens]
    change Tracks bytes pos (place + 2 + 0) _
    exact .measuring rfl hfirst (by decide) (by omega)
  · rw [if_neg hopens]
    have hnext := hclear.succ (not_opensAt_of_second hbyte hopens)
    by_cases hagain : byte = 0xFF
    · rw [if_pos hagain]
      exact .opening rfl (by omega) hnext (hagain ▸ hbyte)
    · rw [if_neg hagain]
      exact .hunting rfl (by omega) (hnext.succ (not_opensAt_of_first hbyte hagain))

-- After a fault the search goes on from the byte that showed it.
theorem fail_continues {bytes : List UInt8} {pos stop : Nat} {d : Decoder} {byte : UInt8}
    {fault : Fault} (hbyte : bytes[stop]? = some byte)
    (hverdict : nextVerdict? bytes pos = some ⟨stop, .invalid fault, stop⟩) :
    Continues bytes pos stop (d.fail byte fault) := by
  rw [Decoder.fail_eq]
  have hagain := push_hunting d.reset_phase (Nat.le_refl stop) (.refl bytes stop) hbyte
  exact .inr ⟨by simp, stop, hverdict, hagain.2⟩

theorem lengthValue_pair (low high : UInt8) :
    lengthValue [low, high] = low.toNat + 256 * high.toNat := by
  simp only [lengthValue, Nat.mul_zero, Nat.add_zero]

theorem sizeAt?_of_bytes {bytes : List UInt8} {place : Nat} {low high : UInt8}
    (hlow : bytes[place + 2]? = some low) (hhigh : bytes[place + 3]? = some high) :
    sizeAt? bytes place = some (lengthValue [low, high]) := by
  simp only [sizeAt?, hlow, hhigh, lengthValue_pair, Option.bind_eq_bind, Option.bind_some]

theorem push_measuring_low {bytes : List UInt8} {pos place : Nat} {d : Decoder} {byte : UInt8}
    (hphase : d.phase = .measuring 0) (hfirst : FirstOpening bytes pos place)
    (hwidth : d.lengthBytes.length = lengthWidth) (hbyte : bytes[place + 2]? = some byte) :
    Continues bytes pos (place + 2) (d.push byte) := by
  refine .inl ?_
  simp only [Decoder.push, hphase, lengthWidth, Nat.zero_add, Nat.lt_add_one, if_true, true_and]
  refine .measuring rfl hfirst (by decide) fun _ => ?_
  rw [List.getElem?_set_self (by rw [hwidth]; decide), hbyte]

theorem push_measuring_high {bytes : List UInt8} {pos place : Nat} {d : Decoder} {byte : UInt8}
    (hphase : d.phase = .measuring 1) (hfirst : FirstOpening bytes pos place)
    (hlow : d.lengthBytes[0]? = bytes[place + 2]?)
    (hwidth : d.lengthBytes.length = lengthWidth) (hbyte : bytes[place + 3]? = some byte) :
    Continues bytes pos (place + 3) (d.push byte) := by
  obtain ⟨low, old, hbytes⟩ := List.length_eq_two.mp hwidth
  rw [hbytes] at hlow
  have hsize := sizeAt?_of_bytes hlow.symm hbyte
  have hverdict := nextVerdict?_of_first hfirst
  simp only [verdictAt?, hsize, Option.bind_eq_bind, Option.bind_some] at hverdict
  simp only [Decoder.push, hphase, lengthWidth, hbytes, List.set_cons_succ, List.set_cons_zero,
    Nat.reduceAdd, Nat.lt_irrefl, if_false]
  by_cases hzero : lengthValue [low, byte] = 0
  · rw [if_pos hzero] at hverdict ⊢
    exact fail_continues hbyte hverdict
  rw [if_neg hzero] at hverdict ⊢
  by_cases hlarge : lengthValue [low, byte] > payloadLimit
  · rw [if_pos hlarge] at hverdict ⊢
    exact fail_continues hbyte hverdict
  rw [if_neg hlarge]
  exact .inl ⟨rfl, .filling (d := ⟨.filling (lengthValue [low, byte]), [low, byte], []⟩) rfl hfirst
    hsize (by omega) (Nat.pos_of_ne_zero hzero) rfl⟩

theorem take_drop_succ {bytes : List UInt8} {start count : Nat} {byte : UInt8}
    (hbyte : bytes[start + count]? = some byte) :
    (bytes.drop start).take (count + 1) = (bytes.drop start).take count ++ [byte] := by
  rw [List.take_add_one, List.getElem?_drop, hbyte]
  rfl

theorem push_filling {bytes : List UInt8} {pos place size : Nat} {d : Decoder} {byte : UInt8}
    (hphase : d.phase = .filling size) (hfirst : FirstOpening bytes pos place)
    (hsize : sizeAt? bytes place = some size) (hlimit : size ≤ payloadLimit)
    (hlt : d.payload.length < size)
    (hpayload : d.payload = (bytes.drop (place + 4)).take d.payload.length)
    (hbyte : bytes[place + 4 + d.payload.length]? = some byte) :
    Continues bytes pos (place + 4 + d.payload.length) (d.push byte) := by
  have hlength : (d.payload ++ [byte]).length = d.payload.length + 1 := by
    rw [List.length_append, List.length_singleton]
  have hnext : d.payload ++ [byte] = (bytes.drop (place + 4)).take (d.payload.length + 1) := by
    rw [take_drop_succ hbyte, ← hpayload]
  refine .inl ?_
  rw [Decoder.push_filling_of_room hphase (by omega)]
  refine ⟨rfl, ?_⟩
  by_cases hfull : d.payload.length + 1 = size
  · rw [if_pos hfull]
    have hstop : place + 4 + d.payload.length + 1 = place + 4 + size + 0 := by omega
    rw [hstop]
    exact .closing rfl hfirst hsize (by omega) hlimit (hfull ▸ hnext) (by decide) (by omega)
  · rw [if_neg hfull]
    have htracks := Tracks.filling (d := { d with payload := d.payload ++ [byte] }) hphase hfirst
      hsize hlimit (by simp only [hlength]; omega) (by simp only [hlength]; exact hnext)
    simpa only [hlength, hphase, Nat.add_assoc] using htracks

theorem verdict_first_closing {bytes : List UInt8} {pos place size : Nat} {byte : UInt8}
    (hfirst : FirstOpening bytes pos place) (hsize : sizeAt? bytes place = some size)
    (hpos : 0 < size) (hlimit : size ≤ payloadLimit)
    (hbyte : bytes[place + 4 + size]? = some byte) (hwrong : byte ≠ 0xFD) :
    nextVerdict? bytes pos = some ⟨place + 4 + size, .invalid .brokenEnd, place + 4 + size⟩ := by
  rw [nextVerdict?_of_first hfirst, verdictAt?_of_size hsize hpos hlimit]
  simp only [closingVerdict?, hbyte, Option.bind_eq_bind, Option.bind_some]
  rw [if_pos hwrong]

theorem verdict_second_closing {bytes : List UInt8} {pos place size : Nat} {byte : UInt8}
    (hfirst : FirstOpening bytes pos place) (hsize : sizeAt? bytes place = some size)
    (hpos : 0 < size) (hlimit : size ≤ payloadLimit)
    (hmarker : bytes[place + 4 + size]? = some 0xFD)
    (hbyte : bytes[place + 5 + size]? = some byte) :
    nextVerdict? bytes pos =
      if byte ≠ 0xFC then some ⟨place + 5 + size, .invalid .brokenEnd, place + 5 + size⟩
      else some ⟨place + 5 + size, .frame ((bytes.drop (place + 4)).take size),
        place + 6 + size⟩ := by
  rw [nextVerdict?_of_first hfirst, verdictAt?_of_size hsize hpos hlimit]
  simp only [closingVerdict?, hmarker, hbyte, Option.bind_eq_bind, Option.bind_some]
  rw [if_neg (by simp)]

theorem push_closing_first {bytes : List UInt8} {pos place size : Nat} {d : Decoder}
    {byte : UInt8} (hphase : d.phase = .closing 0) (hfirst : FirstOpening bytes pos place)
    (hsize : sizeAt? bytes place = some size) (hpos : 0 < size) (hlimit : size ≤ payloadLimit)
    (hpayload : d.payload = (bytes.drop (place + 4)).take size)
    (hbyte : bytes[place + 4 + size]? = some byte) :
    Continues bytes pos (place + 4 + size) (d.push byte) := by
  have hclosing : closingMarker[0]? = some 0xFD := rfl
  simp only [Decoder.push, hphase]
  by_cases hright : byte = 0xFD
  · subst hright
    rw [if_neg (not_not.mpr hclosing), if_pos (by decide)]
    exact .inl ⟨rfl, .closing rfl hfirst hsize hpos hlimit hpayload (by decide) fun _ => hbyte⟩
  · rw [if_pos (by simpa [hclosing, eq_comm] using hright)]
    exact fail_continues hbyte (verdict_first_closing hfirst hsize hpos hlimit hbyte hright)

theorem push_closing_second {bytes : List UInt8} {pos place size : Nat} {d : Decoder}
    {byte : UInt8} (hphase : d.phase = .closing 1) (hfirst : FirstOpening bytes pos place)
    (hsize : sizeAt? bytes place = some size) (hpos : 0 < size) (hlimit : size ≤ payloadLimit)
    (hpayload : d.payload = (bytes.drop (place + 4)).take size)
    (hmarker : bytes[place + 4 + size]? = some 0xFD)
    (hbyte : bytes[place + 5 + size]? = some byte) :
    Continues bytes pos (place + 5 + size) (d.push byte) := by
  have hverdict := verdict_second_closing hfirst hsize hpos hlimit hmarker hbyte
  have hclosing : closingMarker[1]? = some 0xFC := rfl
  simp only [Decoder.push, hphase]
  by_cases hright : byte = 0xFC
  · subst hright
    rw [if_neg (by simp)] at hverdict
    rw [if_neg (not_not.mpr hclosing), if_neg (by decide), hpayload]
    have hstop : place + 5 + size + 1 = place + 6 + size := by omega
    exact .inr ⟨by simp, place + 6 + size, hverdict,
      .hunting rfl (by omega) (hstop ▸ .refl bytes _)⟩
  · rw [if_pos hright] at hverdict
    rw [if_pos (by simpa [hclosing, eq_comm] using hright)]
    exact fail_continues hbyte hverdict

theorem Tracks.push {bytes : List UInt8} {pos stop : Nat} {d : Decoder} {byte : UInt8}
    (h : Tracks bytes pos stop d) (hwidth : d.lengthBytes.length = lengthWidth)
    (hbyte : bytes[stop]? = some byte) : Continues bytes pos stop (d.push byte) := by
  cases h with
  | hunting hphase hle hclear => exact .inl (push_hunting hphase hle hclear hbyte)
  | opening hphase hle hclear hmarker =>
      exact .inl (push_opening hphase hle hclear hmarker hbyte)
  | @measuring _ place collected hphase hfirst hcollected hlow =>
      obtain rfl | rfl : collected = 0 ∨ collected = 1 := by
        simp only [lengthWidth] at hcollected
        omega
      · exact push_measuring_low hphase hfirst hwidth hbyte
      · exact push_measuring_high hphase hfirst (hlow rfl) hwidth hbyte
  | filling hphase hfirst hsize hlimit hlt hpayload =>
      exact push_filling hphase hfirst hsize hlimit hlt hpayload hbyte
  | @closing _ place size collected hphase hfirst hsize hpos hlimit hpayload hcollected hmarker =>
      obtain rfl | rfl : collected = 0 ∨ collected = 1 := by
        simp only [closingMarker, List.length_cons, List.length_nil] at hcollected
        omega
      · exact push_closing_first hphase hfirst hsize hpos hlimit hpayload hbyte
      · have hstop : place + 4 + size + 1 = place + 5 + size := by omega
        rw [hstop] at hbyte ⊢
        exact push_closing_second hphase hfirst hsize hpos hlimit hpayload (hmarker rfl) hbyte

theorem Tracks.nextVerdict?_eq_none {bytes : List UInt8} {pos stop : Nat} {d : Decoder}
    (h : Tracks bytes pos stop d) (hend : bytes.length ≤ stop) :
    nextVerdict? bytes pos = none := by
  cases h with
  | hunting hphase hle hclear =>
      exact nextVerdict?_of_clear fun place hpos hlt => hclear place hpos (by omega)
  | @opening _ place hphase hle hclear hmarker =>
      have hopen : ¬OpensAt bytes place := by
        rintro ⟨-, hsecond⟩
        rw [List.getElem?_eq_none hend] at hsecond
        cases hsecond
      exact nextVerdict?_of_clear fun other hpos hlt => hclear.succ hopen other hpos (by omega)
  | @measuring _ place collected hphase hfirst hcollected hlow =>
      have hhigh : bytes[place + 3]? = none := List.getElem?_eq_none (by
        simp only [lengthWidth] at hcollected
        omega)
      rw [nextVerdict?_of_first hfirst]
      simp [verdictAt?, sizeAt?, hhigh]
  | @filling _ place size hphase hfirst hsize hlimit hlt hpayload =>
      have hnone : bytes[place + 4 + size]? = none := List.getElem?_eq_none (by omega)
      rw [nextVerdict?_of_first hfirst, verdictAt?_of_size hsize (by omega) hlimit]
      simp only [closingVerdict?, hnone, Option.bind_eq_bind, Option.bind_none]
  | @closing _ place size collected hphase hfirst hsize hpos hlimit hpayload hcollected hmarker =>
      rw [nextVerdict?_of_first hfirst, verdictAt?_of_size hsize hpos hlimit]
      obtain rfl | rfl : collected = 0 ∨ collected = 1 := by
        simp only [closingMarker, List.length_cons, List.length_nil] at hcollected
        omega
      · have hnone : bytes[place + 4 + size]? = none := List.getElem?_eq_none (by omega)
        simp only [closingVerdict?, hnone, Option.bind_eq_bind, Option.bind_none]
      · have hnone : bytes[place + 5 + size]? = none := List.getElem?_eq_none (by omega)
        simp [closingVerdict?, hmarker rfl, hnone]

-- From any point on the decoder finds what the grammar finds. The induction is on the bytes that
-- are left, and `Tracks` carries what is known of those taken.
theorem Tracks.eventsFrom_eq_scan {bytes : List UInt8} {pos stop : Nat} {d : Decoder}
    {rest : List UInt8} (h : Tracks bytes pos stop d)
    (hwidth : d.lengthBytes.length = lengthWidth) (hrest : bytes.drop stop = rest) :
    (d.eventsFrom stop rest).1 = scan bytes pos := by
  induction rest generalizing pos stop d with
  | nil =>
      rw [scan_of_none (h.nextVerdict?_eq_none (List.drop_eq_nil_iff.mp hrest))]
      rfl
  | cons byte rest ih =>
      have hbyte : bytes[stop]? = some byte := by
        rw [← List.head?_drop, hrest]
        rfl
      have hnext : bytes.drop (stop + 1) = rest := by
        rw [← List.tail_drop, hrest]
        rfl
      have hkept : (d.push byte).2.lengthBytes.length = lengthWidth := by
        rw [Decoder.push_lengthBytes_length, hwidth]
      obtain ⟨hpending, htracks⟩ | ⟨hstep, next, hverdict, htracks⟩ := h.push hwidth hbyte
      · rw [Decoder.eventsFrom_of_pending hpending, ih htracks hkept hnext]
      · rw [Decoder.eventsFrom_of_ne_pending hstep, scan_of_some hverdict, ih htracks hkept hnext]

-- Whatever a decoder has been through, once it is reset it finds what the grammar finds, and so
-- does a new one. A payload is found only where it stands between its markers.
theorem events_eq_scan (history : List Decoder.Input) (bytes : List UInt8) :
    (Decoder.events {} bytes).1 = scan bytes 0 ∧
      ((Decoder.after history).reset.events bytes).1 = scan bytes 0 ∧
      ∀ stop payload, (stop, .frame payload) ∈ scan bytes 0 →
        0 < payload.length ∧ payload.length ≤ payloadLimit ∧
          ∃ frame front back, enclose payload = .ok frame ∧ bytes = front ++ frame ++ back ∧
            (front ++ frame).length = stop + 1 := by
  have hstart (d : Decoder) (hphase : d.phase = .hunting) : Tracks bytes 0 0 d :=
    .hunting hphase (Nat.le_refl 0) (.refl bytes 0)
  refine ⟨(hstart {} rfl).eventsFrom_eq_scan rfl rfl,
    (hstart _ rfl).eventsFrom_eq_scan (Decoder.after_lengthBytes_length history) rfl, ?_⟩
  intro stop payload hmem
  obtain ⟨frame, front, back, henclose, hbytes, hlength⟩ := enclose_of_mem_scan hmem
  obtain ⟨hpos, hlimit⟩ := length_of_enclose henclose
  exact ⟨hpos, hlimit, frame, front, back, henclose, hbytes, hlength⟩

def lostEnd : List UInt8 := [0xFF, 0xFE, 1, 0, 0x55, 0xFF, 0xFE, 1, 0, 0xAA, 0xFD, 0xFC]

theorem scan_lostEnd :
    scan lostEnd 0 = [(5, .invalid .brokenEnd), (11, .frame [0xAA])] ∧
      ∃ frame front back, enclose [0xAA] = .ok frame ∧ lostEnd = front ++ frame ++ back ∧
        (front ++ frame).length = 12 := by
  obtain ⟨hfresh, -, hframed⟩ := events_eq_scan [] lostEnd
  have hscan : scan lostEnd 0 = [(5, .invalid .brokenEnd), (11, .frame [0xAA])] :=
    hfresh.symm.trans rfl
  exact ⟨hscan, (hframed 11 [0xAA] (by rw [hscan]; decide)).2.2⟩

end RelayGateway.Frame
