import RelayGateway.Proofs.Frame.Tracking

namespace RelayGateway.Frame

theorem getElem?_behind (front bytes : List UInt8) (offset : Nat) :
    (front ++ bytes)[front.length + offset]? = bytes[offset]? := by
  rw [List.getElem?_append_right (Nat.le_add_right _ _), Nat.add_sub_cancel_left]

theorem frameAt_of_enclose (front : List UInt8) {payload frame : List UInt8}
    (h : enclose payload = .ok frame) :
    FrameAt (front ++ frame) front.length payload.length ∧
      ((front ++ frame).drop (front.length + 4)).take payload.length = payload := by
  obtain ⟨hpos, hlimit⟩ := length_of_enclose h
  have hsize : lengthValue (lengthField payload.length) = payload.length :=
    lengthValue_lengthField (Nat.lt_of_le_of_lt hlimit (by decide))
  have hget := getElem?_behind front frame
  rw [enclose_eq h] at hget ⊢
  refine ⟨⟨⟨hget 0, hget 1⟩, ?_, hpos, hlimit, ?_, ?_⟩, ?_⟩
  · rw [sizeAt?_of_bytes (hget 2) (hget 3)]
    exact congrArg some hsize
  · rw [Nat.add_assoc, hget, Nat.add_comm]
    simp [openingMarker, lengthField, closingMarker]
  · rw [Nat.add_right_comm, Nat.add_assoc, hget]
    simp [openingMarker, lengthField, closingMarker, Nat.add_assoc]
  · simp [openingMarker, lengthField]

theorem FrameAt.scan_eq {bytes : List UInt8} {pos place size : Nat} (h : FrameAt bytes place size)
    (hle : pos ≤ place) (hclear : Clear bytes pos place) :
    scan bytes pos = (place + 5 + size, .frame ((bytes.drop (place + 4)).take size)) ::
      scan bytes (place + 6 + size) := by
  have hfirst : FirstOpening bytes pos place := ⟨hle, h.opens, hclear⟩
  have hverdict :=
    verdict_second_closing hfirst h.measured h.nonempty h.limited h.first h.second
  rw [if_neg (not_not.mpr rfl)] at hverdict
  rw [scan_of_some hverdict]

theorem FrameAt.mem_scan {bytes : List UInt8} {pos place size : Nat}
    (h : FrameAt bytes place size) (hle : pos ≤ place) (hclear : Clear bytes pos place) :
    (place + 5 + size, .frame ((bytes.drop (place + 4)).take size)) ∈ scan bytes pos := by
  rw [h.scan_eq hle hclear]
  exact List.mem_cons_self

section

variable {payload other first next : List UInt8} {cut : Nat}

theorem frameAt_cut (hnext : enclose other = .ok next) (hcut : cut ≤ first.length) :
    FrameAt (first.take cut ++ next) cut other.length ∧
      ((first.take cut ++ next).drop (cut + 4)).take other.length = other := by
  have hframe := frameAt_of_enclose (first.take cut) hnext
  rwa [List.length_take_of_le hcut] at hframe

theorem getElem?_cut (next : List UInt8) {place : Nat} (hplace : place < cut)
    (hcut : cut ≤ first.length) :
    (first.take cut ++ next)[place]? = first[place]? := by
  rw [List.getElem?_append_left (by rw [List.length_take]; omega),
    List.getElem?_take_of_lt hplace]

theorem mem_scan_of_verdict (hnext : enclose other = .ok next) (hcut : cut ≤ first.length)
    {place : Nat} {step : Step}
    (h : nextVerdict? (first.take cut ++ next) 0 = some ⟨place, step, cut⟩) :
    (cut + 5 + other.length, .frame other) ∈ scan (first.take cut ++ next) 0 := by
  obtain ⟨hframe, hpayload⟩ := frameAt_cut hnext hcut
  have hfound := hframe.mem_scan (Nat.le_refl cut) (.refl _ cut)
  rw [hpayload] at hfound
  rw [scan_of_some h]
  exact List.mem_cons_of_mem _ hfound

theorem not_mem_scan_of_verdict {verdict : Verdict}
    (h : nextVerdict? (first.take cut ++ next) 0 = some verdict) (hlt : cut < verdict.next)
    (hne : (verdict.place, verdict.step) ≠ (cut + 5 + other.length, .frame other)) :
    (cut + 5 + other.length, .frame other) ∉ scan (first.take cut ++ next) 0 := by
  intro hmem
  rw [scan_of_some h] at hmem
  obtain hhead | htail := List.mem_cons.mp hmem
  · exact hne hhead.symm
  · have hle := le_of_mem_scan htail
    omega

theorem mem_scan_of_cut_le_one (hnext : enclose other = .ok next) (hcut : cut ≤ first.length)
    (hshort : cut ≤ 1) :
    (cut + 5 + other.length, .frame other) ∈ scan (first.take cut ++ next) 0 := by
  obtain ⟨hframe, hpayload⟩ := frameAt_cut hnext hcut
  have hclear : Clear (first.take cut ++ next) 0 cut := by
    intro place hle hlt hopens
    obtain rfl : cut = place + 1 := by omega
    have hsecond := hopens.2
    rw [hframe.opens.1] at hsecond
    exact absurd (Option.some.inj hsecond) (by decide)
  have hfound := hframe.mem_scan (Nat.zero_le cut) hclear
  rwa [hpayload] at hfound

theorem firstOpening_cut (next : List UInt8) (hfirst : enclose payload = .ok first)
    (hcut : cut ≤ first.length) (hlong : 2 ≤ cut) : FirstOpening (first.take cut ++ next) 0 0 := by
  have hopens := (frameAt_of_enclose [] hfirst).1.opens
  refine ⟨Nat.le_refl 0, ⟨?_, ?_⟩, .refl _ 0⟩
  · rw [getElem?_cut next (by omega) hcut]
    exact hopens.1
  · rw [getElem?_cut next (by omega) hcut]
    exact hopens.2

-- Where a byte of the second frame's marker ends the length, the length is too large.
theorem verdict_of_swallowed (hfirst : enclose payload = .ok first) (hcut : cut ≤ first.length)
    (hlong : 2 ≤ cut) {low high : UInt8} (hlow : (first.take cut ++ next)[2]? = some low)
    (hhigh : (first.take cut ++ next)[3]? = some high) (hlarge : 0xFE ≤ high.toNat) :
    nextVerdict? (first.take cut ++ next) 0 =
      some ⟨3, .invalid (.oversized (lengthValue [low, high])), 3⟩ := by
  have hlimit : lengthValue [low, high] > payloadLimit := by
    rw [lengthValue_pair, payloadLimit]
    omega
  rw [nextVerdict?_of_first (firstOpening_cut next hfirst hcut hlong)]
  simp only [verdictAt?, sizeAt?_of_bytes hlow hhigh, Option.bind_eq_bind, Option.bind_some]
  rw [if_neg (by omega), if_pos hlimit]

theorem sizeAt?_cut (next : List UInt8) (hfirst : enclose payload = .ok first)
    (hcut : cut ≤ first.length) (hlong : 4 ≤ cut) :
    sizeAt? (first.take cut ++ next) 0 = some payload.length := by
  rw [← (frameAt_of_enclose [] hfirst).1.measured]
  simp only [sizeAt?, getElem?_cut next (show 0 + 2 < cut by omega) hcut,
    getElem?_cut next (show 0 + 3 < cut by omega) hcut]
  rfl

-- Behind a whole marker alone, the second frame's marker is taken for a length.
theorem not_mem_scan_of_marker (hfirst : enclose payload = .ok first)
    (hnext : enclose other = .ok next) (hcut : 2 ≤ first.length) :
    (2 + 5 + other.length, .frame other) ∉ scan (first.take 2 ++ next) 0 := by
  obtain ⟨hframe, -⟩ := frameAt_cut hnext hcut
  have hverdict := verdict_of_swallowed hfirst hcut (Nat.le_refl 2) hframe.opens.1
    hframe.opens.2 (by decide)
  exact not_mem_scan_of_verdict hverdict (by decide) (by simp)

-- Behind one byte of a length, its first marker byte ends the length and opens the frame.
theorem mem_scan_of_half_length (hfirst : enclose payload = .ok first)
    (hnext : enclose other = .ok next) (hcut : 3 ≤ first.length) :
    (3 + 5 + other.length, .frame other) ∈ scan (first.take 3 ++ next) 0 := by
  obtain ⟨hframe, -⟩ := frameAt_cut hnext hcut
  obtain ⟨low, hlow⟩ : ∃ low, (first.take 3 ++ next)[2]? = some low :=
    ⟨_, List.getElem?_eq_getElem (by rw [List.length_append, List.length_take]; omega)⟩
  have hverdict := verdict_of_swallowed hfirst hcut (by decide) hlow hframe.opens.1 (by decide)
  exact mem_scan_of_verdict hnext hcut hverdict

-- Within the payload, the second frame is taken for the rest of it.
theorem not_mem_scan_of_payload (hfirst : enclose payload = .ok first)
    (hnext : enclose other = .ok next) (hcut : cut ≤ first.length) (hlong : 4 ≤ cut)
    (hinside : cut < 4 + payload.length) :
    (cut + 5 + other.length, .frame other) ∉ scan (first.take cut ++ next) 0 := by
  obtain ⟨hpos, hlimit⟩ := length_of_enclose hfirst
  have hmarker := firstOpening_cut next hfirst hcut (by omega)
  have heq := (nextVerdict?_of_first hmarker).trans
    (verdictAt?_of_size (sizeAt?_cut next hfirst hcut hlong) hpos hlimit)
  cases hverdict : nextVerdict? (first.take cut ++ next) 0 with
  | none =>
      rw [scan_of_none hverdict]
      exact List.not_mem_nil
  | some verdict =>
      rw [hverdict] at heq
      obtain ⟨hbroken, hle⟩ | ⟨-, -, rfl⟩ := closingVerdict?_cases heq.symm
      · exact not_mem_scan_of_verdict hverdict (by omega) (by simp [hbroken])
      · refine not_mem_scan_of_verdict hverdict (by simp only; omega) fun hsame => ?_
        obtain ⟨hplace, hstep⟩ := Prod.mk.inj hsame
        simp only at hplace
        have hlength := congrArg List.length (Step.frame.inj hstep)
        have hnextLength := enclose_length hnext
        rw [List.length_take, List.length_drop, List.length_append, List.length_take] at hlength
        omega

-- Behind the whole payload, its first marker byte breaks the end and opens the frame.
theorem mem_scan_of_cut_end (hfirst : enclose payload = .ok first)
    (hnext : enclose other = .ok next) (hcut : cut < first.length)
    (hend : 4 + payload.length ≤ cut) :
    (cut + 5 + other.length, .frame other) ∈ scan (first.take cut ++ next) 0 := by
  have hle : cut ≤ first.length := Nat.le_of_lt hcut
  obtain ⟨hframe, -⟩ := frameAt_cut hnext hle
  obtain ⟨hwhole, -⟩ := frameAt_of_enclose [] hfirst
  obtain ⟨hpos, hlimit⟩ := length_of_enclose hfirst
  have hlength := enclose_length hfirst
  have hmarker := firstOpening_cut next hfirst hle (by omega)
  have hsize := sizeAt?_cut next hfirst hle (by omega)
  obtain rfl | rfl : cut = 0 + 4 + payload.length ∨ cut = 0 + 5 + payload.length := by omega
  · exact mem_scan_of_verdict hnext hle
      (verdict_first_closing hmarker hsize hpos hlimit hframe.opens.1 (by decide))
  · have hclosing := getElem?_cut next
      (show 0 + 4 + payload.length < 0 + 5 + payload.length by omega) hle
    have hverdict := verdict_second_closing hmarker hsize hpos hlimit
      (hclosing.trans hwhole.first) hframe.opens.1
    rw [if_pos (by decide)] at hverdict
    exact mem_scan_of_verdict hnext hle hverdict

theorem mem_scan_cut_iff (hfirst : enclose payload = .ok first)
    (hnext : enclose other = .ok next) (hcut : cut < first.length) :
    (cut + 5 + other.length, .frame other) ∈ scan (first.take cut ++ next) 0 ↔
      cut ≠ 2 ∧ (cut < 4 ∨ 4 + payload.length ≤ cut) := by
  have hle : cut ≤ first.length := Nat.le_of_lt hcut
  obtain hone | rfl | rfl | hlong : cut ≤ 1 ∨ cut = 2 ∨ cut = 3 ∨ 4 ≤ cut := by omega
  · exact iff_of_true (mem_scan_of_cut_le_one hnext hle hone) (by omega)
  · exact iff_of_false (not_mem_scan_of_marker hfirst hnext hle) (by simp)
  · exact iff_of_true (mem_scan_of_half_length hfirst hnext hle) (by omega)
  by_cases hend : 4 + payload.length ≤ cut
  · exact iff_of_true (mem_scan_of_cut_end hfirst hnext hcut hend) (by omega)
  · exact iff_of_false (not_mem_scan_of_payload hfirst hnext hle hlong (by omega)) (by omega)

end

-- A new decoder that takes the beginning of a frame and then a whole one finds the whole one at its
-- last byte, unless the beginning ends right behind the opening marker or within the payload.
theorem events_behindCut {payload other : List UInt8}
    (hpayload : 0 < payload.length ∧ payload.length ≤ payloadLimit)
    (hother : 0 < other.length ∧ other.length ≤ payloadLimit) :
    ∃ first next, enclose payload = .ok first ∧ enclose other = .ok next ∧
      ∀ cut < first.length, let bytes := first.take cut ++ next
        (bytes.length - 1, .frame other) ∈ (Decoder.events {} bytes).1 ↔
          cut ≠ 2 ∧ (cut < 4 ∨ 4 + payload.length ≤ cut) := by
  have hfirst := enclose_of_length hpayload.1 hpayload.2
  have hnext := enclose_of_length hother.1 hother.2
  refine ⟨_, _, hfirst, hnext, fun cut hcut => ?_⟩
  intro bytes
  have hevents : (Decoder.events {} bytes).1 = scan bytes 0 :=
    Tracks.eventsFrom_eq_scan (.hunting rfl (Nat.le_refl 0) (.refl bytes 0)) rfl rfl
  have hlast : bytes.length - 1 = cut + 5 + other.length := by
    rw [List.length_append, List.length_take_of_le (Nat.le_of_lt hcut), enclose_length hnext]
    omega
  rw [hevents, hlast]
  exact mem_scan_cut_iff hfirst hnext hcut

theorem events_behindCut_oneByte :
    ∃ first next, enclose [0x55] = .ok first ∧ enclose [0xAA] = .ok next ∧
      (9, .frame [0xAA]) ∈ (Decoder.events {} (first.take 3 ++ next)).1 ∧
      (11, .frame [0xAA]) ∈ (Decoder.events {} (first.take 5 ++ next)).1 ∧
      (10, .frame [0xAA]) ∉ (Decoder.events {} (first.take 4 ++ next)).1 := by
  obtain ⟨first, next, hfirst, hnext, hcut⟩ :=
    @events_behindCut [0x55] [0xAA] (by decide) (by decide)
  refine ⟨first, next, hfirst, hnext, ?_⟩
  obtain rfl : [0xFF, 0xFE, 1, 0, 0x55, 0xFD, 0xFC] = first := Except.ok.inj hfirst
  obtain rfl : [0xFF, 0xFE, 1, 0, 0xAA, 0xFD, 0xFC] = next := Except.ok.inj hnext
  exact ⟨(hcut 3 (by decide)).mpr (by decide), (hcut 5 (by decide)).mpr (by decide),
    fun hfound => absurd ((hcut 4 (by decide)).mp hfound) (by decide)⟩

theorem events_behindMarker_lost :
    ∃ first next, enclose [0x55] = .ok first ∧ enclose [0xAA] = .ok next ∧
      (Decoder.events {} (first.take 2 ++ next)).1 = [(3, .invalid (.oversized 65279))] :=
  ⟨_, _, rfl, rfl, rfl⟩

end RelayGateway.Frame
