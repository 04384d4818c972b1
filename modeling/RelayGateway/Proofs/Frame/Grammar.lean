import RelayGateway.Frame.Decoder
import RelayGateway.Basic
import Mathlib.Tactic.Common

namespace RelayGateway.Frame

def OpensAt (bytes : List UInt8) (place : Nat) : Prop :=
  bytes[place]? = some 0xFF ∧ bytes[place + 1]? = some 0xFE

instance (bytes : List UInt8) (place : Nat) : Decidable (OpensAt bytes place) :=
  inferInstanceAs (Decidable (_ ∧ _))

def Clear (bytes : List UInt8) (pos stop : Nat) : Prop :=
  ∀ place, pos ≤ place → place < stop → ¬OpensAt bytes place

structure FirstOpening (bytes : List UInt8) (pos place : Nat) : Prop where
  le : pos ≤ place
  opens : OpensAt bytes place
  clear : Clear bytes pos place

def nextOpening? (bytes : List UInt8) (pos : Nat) : Option Nat :=
  (List.range' pos (bytes.length - pos)).find? fun place => OpensAt bytes place

def sizeAt? (bytes : List UInt8) (place : Nat) : Option Nat := do
  let low ← bytes[place + 2]?
  let high ← bytes[place + 3]?
  some (low.toNat + 256 * high.toNat)

-- What a marker leads to: the outcome, the place of the byte that decides it, and the place from
-- which the next marker is looked for.
structure Verdict where
  place : Nat
  step : Step
  next : Nat
  deriving DecidableEq, Repr

-- What a frame with a fitting length leads to, once enough of its end is there. A byte that should
-- have closed the frame and did not may open the next one.
def closingVerdict? (bytes : List UInt8) (place size : Nat) : Option Verdict := do
  let first ← bytes[place + 4 + size]?
  if first ≠ 0xFD then
    some ⟨place + 4 + size, .invalid .brokenEnd, place + 4 + size⟩
  else
    let second ← bytes[place + 5 + size]?
    if second ≠ 0xFC then
      some ⟨place + 5 + size, .invalid .brokenEnd, place + 5 + size⟩
    else
      some ⟨place + 5 + size, .frame ((bytes.drop (place + 4)).take size), place + 6 + size⟩

def verdictAt? (bytes : List UInt8) (place : Nat) : Option Verdict := do
  let size ← sizeAt? bytes place
  if size = 0 then some ⟨place + 3, .invalid .zeroLength, place + 3⟩
  else if size > payloadLimit then some ⟨place + 3, .invalid (.oversized size), place + 3⟩
  else closingVerdict? bytes place size

theorem nextOpening?_eq_some_iff {bytes : List UInt8} {pos place : Nat} :
    nextOpening? bytes pos = some place ↔ FirstOpening bytes pos place := by
  simp only [nextOpening?, List.find?_range'_eq_some, List.mem_range'_1, decide_eq_true_eq,
    Bool.not_eq_true', decide_eq_false_iff_not]
  constructor
  · rintro ⟨hopens, ⟨hle, -⟩, hclear⟩
    exact ⟨hle, hopens, hclear⟩
  · rintro ⟨hle, hopens, hclear⟩
    have hlt : place < bytes.length := (List.getElem?_eq_some_iff.mp hopens.1).1
    exact ⟨hopens, ⟨hle, by omega⟩, hclear⟩

theorem nextOpening?_eq_none {bytes : List UInt8} {pos : Nat}
    (hclear : Clear bytes pos bytes.length) : nextOpening? bytes pos = none := by
  cases h : nextOpening? bytes pos with
  | none => rfl
  | some place =>
      have hfirst := nextOpening?_eq_some_iff.mp h
      have hlt : place < bytes.length := (List.getElem?_eq_some_iff.mp hfirst.opens.1).1
      exact absurd hfirst.opens (hclear place hfirst.le hlt)

theorem closingVerdict?_cases {bytes : List UInt8} {place size : Nat} {verdict : Verdict}
    (h : closingVerdict? bytes place size = some verdict) :
    (verdict.step = .invalid .brokenEnd ∧ place + 4 + size ≤ verdict.next) ∨
      (bytes[place + 4 + size]? = some 0xFD ∧ bytes[place + 5 + size]? = some 0xFC ∧
        verdict = ⟨place + 5 + size, .frame ((bytes.drop (place + 4)).take size),
          place + 6 + size⟩) := by
  obtain ⟨first, hone, h⟩ := Option.bind_eq_some_iff.mp h
  split at h
  · cases h
    exact .inl ⟨rfl, Nat.le_refl _⟩
  rename_i hclosing
  obtain ⟨second, htwo, h⟩ := Option.bind_eq_some_iff.mp h
  split at h
  · cases h
    exact .inl ⟨rfl, by simp only; omega⟩
  rename_i hclosed
  cases h
  rw [not_not.mp hclosing] at hone
  rw [not_not.mp hclosed] at htwo
  exact .inr ⟨hone, htwo, rfl⟩

theorem closingVerdict?_lt_next {bytes : List UInt8} {place size : Nat} {verdict : Verdict}
    (h : closingVerdict? bytes place size = some verdict) : place < verdict.next := by
  obtain ⟨-, hle⟩ | ⟨-, -, rfl⟩ := closingVerdict?_cases h
  · omega
  · simp only
    omega

theorem verdictAt?_lt_next {bytes : List UInt8} {place : Nat} {verdict : Verdict}
    (h : verdictAt? bytes place = some verdict) : place < verdict.next := by
  obtain ⟨size, -, h⟩ := Option.bind_eq_some_iff.mp h
  split at h
  · cases h
    simp
  split at h
  · cases h
    simp
  exact closingVerdict?_lt_next h

theorem verdictAt?_of_size {bytes : List UInt8} {place size : Nat}
    (hsize : sizeAt? bytes place = some size) (hpos : 0 < size) (hlimit : size ≤ payloadLimit) :
    verdictAt? bytes place = closingVerdict? bytes place size := by
  simp only [verdictAt?, hsize, Option.bind_eq_bind, Option.bind_some]
  rw [if_neg (by omega), if_neg (by omega)]

def nextVerdict? (bytes : List UInt8) (pos : Nat) : Option Verdict := do
  let place ← nextOpening? bytes pos
  verdictAt? bytes place

theorem nextVerdict?_of_first {bytes : List UInt8} {pos place : Nat}
    (hfirst : FirstOpening bytes pos place) :
    nextVerdict? bytes pos = verdictAt? bytes place := by
  simp only [nextVerdict?, nextOpening?_eq_some_iff.mpr hfirst, Option.bind_eq_bind,
    Option.bind_some]

theorem nextVerdict?_of_clear {bytes : List UInt8} {pos : Nat}
    (hclear : Clear bytes pos bytes.length) : nextVerdict? bytes pos = none := by
  simp only [nextVerdict?, nextOpening?_eq_none hclear, Option.bind_eq_bind, Option.bind_none]

theorem exists_first_of_nextVerdict? {bytes : List UInt8} {pos : Nat} {verdict : Verdict}
    (h : nextVerdict? bytes pos = some verdict) :
    ∃ place, FirstOpening bytes pos place ∧ verdictAt? bytes place = some verdict := by
  obtain ⟨place, hplace, hverdict⟩ := Option.bind_eq_some_iff.mp h
  exact ⟨place, nextOpening?_eq_some_iff.mp hplace, hverdict⟩

theorem nextVerdict?_lt_next {bytes : List UInt8} {pos : Nat} {verdict : Verdict}
    (h : nextVerdict? bytes pos = some verdict) :
    pos < verdict.next ∧ pos < bytes.length := by
  obtain ⟨place, hfirst, hverdict⟩ := exists_first_of_nextVerdict? h
  have hlt : place < bytes.length := (List.getElem?_eq_some_iff.mp hfirst.opens.1).1
  have hle := hfirst.le
  have hnext := verdictAt?_lt_next hverdict
  omega

-- The outcomes found from `pos` on, each with the place of the byte that decides it.
def scan (bytes : List UInt8) (pos : Nat) : List (Nat × Step) :=
  match h : nextVerdict? bytes pos with
  | none => []
  | some verdict =>
    have := nextVerdict?_lt_next h
    (verdict.place, verdict.step) :: scan bytes verdict.next
termination_by bytes.length - pos

theorem scan_of_none {bytes : List UInt8} {pos : Nat} (h : nextVerdict? bytes pos = none) :
    scan bytes pos = [] := by
  rw [scan]
  split
  · rfl
  · simp_all

theorem scan_of_some {bytes : List UInt8} {pos : Nat} {verdict : Verdict}
    (h : nextVerdict? bytes pos = some verdict) :
    scan bytes pos = (verdict.place, verdict.step) :: scan bytes verdict.next := by
  rw [scan]
  split
  · simp_all
  · simp_all

theorem lengthField_of_bytes (low high : UInt8) :
    lengthField (low.toNat + 256 * high.toNat) = [low, high] := by
  have hlow := low.toNat_lt
  have hhigh := high.toNat_lt
  have hfirst : (low.toNat + 256 * high.toNat).toUInt8 = low := by
    apply UInt8.toNat_inj.mp
    simp only [Nat.toUInt8, UInt8.toNat_ofNat']
    omega
  have hsecond : ((low.toNat + 256 * high.toNat) / 256).toUInt8 = high := by
    apply UInt8.toNat_inj.mp
    simp only [Nat.toUInt8, UInt8.toNat_ofNat']
    omega
  rw [lengthField, hfirst, hsecond]

theorem lengthValue_lengthField {n : Nat} (h : n < 2 ^ 16) : lengthValue (lengthField n) = n := by
  have hlow : n.toUInt8.toNat = n % 256 := rfl
  have hhigh : (n / 256).toUInt8.toNat = n / 256 := Nat.mod_eq_of_lt (by omega)
  simp only [lengthField, lengthValue, hlow, hhigh]
  omega

theorem encode_of_length {payload : List UInt8} (hpos : 0 < payload.length)
    (hlimit : payload.length ≤ payloadLimit) :
    encode payload = .ok (lengthField payload.length ++ payload) := by
  have hne : payload.isEmpty = false := by
    rw [List.isEmpty_eq_false_iff_exists_mem]
    exact List.exists_mem_of_length_pos hpos
  simp only [encode, hne]
  rw [if_neg (by simp), if_neg (by omega)]

theorem eq_of_encode {payload frame : List UInt8} (h : encode payload = .ok frame) :
    frame = lengthField payload.length ++ payload := by
  unfold encode at h
  split at h
  · cases h
  split at h
  · cases h
  · exact (Except.ok.inj h).symm

theorem encode_of_large {payload : List UInt8} (hlarge : payloadLimit < payload.length) :
    encode payload = .error (.tooLarge payload.length) := by
  have hne : payload.isEmpty = false := by
    rw [List.isEmpty_eq_false_iff_exists_mem]
    exact List.exists_mem_of_length_pos (by omega)
  simp only [encode, hne]
  rw [if_neg (by simp), if_pos hlarge]

theorem enclose_of_length {payload : List UInt8} (hpos : 0 < payload.length)
    (hlimit : payload.length ≤ payloadLimit) :
    enclose payload =
      .ok (openingMarker ++ (lengthField payload.length ++ payload) ++ closingMarker) := by
  simp only [enclose, encode_of_length hpos hlimit]
  rfl

theorem length_of_enclose {payload frame : List UInt8} (h : enclose payload = .ok frame) :
    0 < payload.length ∧ payload.length ≤ payloadLimit := by
  by_cases hempty : payload = []
  · subst hempty
    cases h
  refine ⟨List.length_pos_iff.mpr hempty, ?_⟩
  by_contra hlarge
  simp only [enclose, encode_of_large (Nat.lt_of_not_le hlarge)] at h
  cases h

theorem enclose_eq {payload frame : List UInt8} (h : enclose payload = .ok frame) :
    frame = openingMarker ++ (lengthField payload.length ++ payload) ++ closingMarker := by
  obtain ⟨hpos, hlimit⟩ := length_of_enclose h
  rw [enclose_of_length hpos hlimit] at h
  exact (Except.ok.inj h).symm

theorem enclose_length {payload frame : List UInt8} (h : enclose payload = .ok frame) :
    frame.length = payload.length + 6 := by
  rw [enclose_eq h]
  simp only [openingMarker, closingMarker, lengthField, List.length_append, List.length_cons,
    List.length_nil]
  omega

theorem drop_eq_cons {bytes : List UInt8} {place : Nat} {byte : UInt8}
    (h : bytes[place]? = some byte) : bytes.drop place = byte :: bytes.drop (place + 1) := by
  obtain ⟨hlt, hget⟩ := List.getElem?_eq_some_iff.mp h
  rw [List.drop_eq_getElem_cons hlt, hget]

structure FrameAt (bytes : List UInt8) (place size : Nat) : Prop where
  opens : OpensAt bytes place
  measured : sizeAt? bytes place = some size
  nonempty : 0 < size
  limited : size ≤ payloadLimit
  first : bytes[place + 4 + size]? = some 0xFD
  second : bytes[place + 5 + size]? = some 0xFC

theorem frameAt_of_nextVerdict? {bytes payload : List UInt8} {pos stop next : Nat}
    (h : nextVerdict? bytes pos = some ⟨stop, .frame payload, next⟩) :
    ∃ place size, pos ≤ place ∧ FrameAt bytes place size ∧ stop = place + 5 + size ∧
      payload = (bytes.drop (place + 4)).take size := by
  obtain ⟨place, hfirst, h⟩ := exists_first_of_nextVerdict? h
  obtain ⟨size, hsize, h⟩ := Option.bind_eq_some_iff.mp h
  split at h
  · cases h
  rename_i hpos
  split at h
  · cases h
  rename_i hlimit
  obtain ⟨hbroken, -⟩ | ⟨hone, htwo, hwhole⟩ := closingVerdict?_cases h
  · cases hbroken
  · cases hwhole
    exact ⟨place, size, hfirst.le, ⟨hfirst.opens, hsize, by omega, by omega, hone, htwo⟩, rfl, rfl⟩

theorem FrameAt.enclose_eq {bytes : List UInt8} {place size : Nat} (h : FrameAt bytes place size) :
    ∃ frame, enclose ((bytes.drop (place + 4)).take size) = .ok frame ∧
      bytes = bytes.take place ++ frame ++ bytes.drop (place + 6 + size) ∧
      (bytes.take place ++ frame).length = place + 5 + size + 1 := by
  obtain ⟨low, hlow, hsize⟩ := Option.bind_eq_some_iff.mp h.measured
  obtain ⟨high, hhigh, hsize⟩ := Option.bind_eq_some_iff.mp hsize
  have hlt : place + 5 + size < bytes.length := (List.getElem?_eq_some_iff.mp h.second).1
  have hlength : ((bytes.drop (place + 4)).take size).length = size := by
    rw [List.length_take, List.length_drop]
    omega
  have hfield : lengthField size = [low, high] := by
    rw [← Option.some.inj hsize, lengthField_of_bytes]
  have hpayload : bytes.drop (place + 4) =
      (bytes.drop (place + 4)).take size ++ (0xFD :: 0xFC :: bytes.drop (place + 6 + size)) := by
    have hclosing : (bytes.drop (place + 4)).drop size =
        0xFD :: 0xFC :: bytes.drop (place + 6 + size) := by
      rw [List.drop_drop, drop_eq_cons h.first,
        show place + 4 + size + 1 = place + 5 + size by omega, drop_eq_cons h.second,
        show place + 5 + size + 1 = place + 6 + size by omega]
    rw [← hclosing, List.take_append_drop]
  have hdrop : bytes.drop place = 0xFF :: 0xFE :: low :: high :: bytes.drop (place + 4) := by
    rw [drop_eq_cons h.opens.1, drop_eq_cons h.opens.2, drop_eq_cons hlow, drop_eq_cons hhigh]
  refine ⟨_, enclose_of_length (by rw [hlength]; exact h.nonempty)
    (by rw [hlength]; exact h.limited), ?_, ?_⟩
  · rw [hlength, hfield]
    conv_lhs => rw [← List.take_append_drop place bytes, hdrop, hpayload]
    simp [openingMarker, closingMarker]
  · simp only [List.length_append, List.length_take, hlength, hfield, openingMarker,
      closingMarker, List.length_cons, List.length_nil]
    omega

-- Every payload that is found stands in the buffer between its markers, behind its length.
theorem enclose_of_mem_scan {bytes payload : List UInt8} {pos stop : Nat}
    (h : (stop, .frame payload) ∈ scan bytes pos) :
    ∃ frame front back, enclose payload = .ok frame ∧ bytes = front ++ frame ++ back ∧
      (front ++ frame).length = stop + 1 := by
  fun_induction scan bytes pos with
  | case1 pos hnone => cases h
  | case2 pos verdict hverdict _ ih =>
      obtain hhead | htail := List.mem_cons.mp h
      · obtain ⟨rfl, hstep⟩ := Prod.mk.inj hhead
        have hsome : nextVerdict? bytes pos =
            some ⟨verdict.place, .frame payload, verdict.next⟩ := by rw [hverdict, hstep]
        obtain ⟨place, size, -, hframe, hstop, rfl⟩ := frameAt_of_nextVerdict? hsome
        obtain ⟨frame, henclose, hbytes, hlength⟩ := hframe.enclose_eq
        exact ⟨frame, _, _, henclose, hbytes, hstop ▸ hlength⟩
      · exact ih htail

theorem le_of_mem_scan {bytes payload : List UInt8} {pos stop : Nat}
    (h : (stop, .frame payload) ∈ scan bytes pos) : pos + 5 + payload.length ≤ stop := by
  fun_induction scan bytes pos with
  | case1 pos hnone => cases h
  | case2 pos verdict hverdict _ ih =>
      obtain hhead | htail := List.mem_cons.mp h
      · obtain ⟨rfl, hstep⟩ := Prod.mk.inj hhead
        have hsome : nextVerdict? bytes pos =
            some ⟨verdict.place, .frame payload, verdict.next⟩ := by rw [hverdict, hstep]
        obtain ⟨place, size, hle, -, hstop, rfl⟩ := frameAt_of_nextVerdict? hsome
        have hlength := List.length_take_le size (bytes.drop (place + 4))
        omega
      · have hnext := (nextVerdict?_lt_next hverdict).1
        have hrest := ih htail
        omega

end RelayGateway.Frame
