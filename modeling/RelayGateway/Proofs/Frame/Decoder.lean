import RelayGateway.Frame.Decoder

namespace RelayGateway.Frame.Decoder

inductive Input where
  | byte (value : UInt8)
  | reset
  deriving DecidableEq, Repr

def respond (d : Decoder) : Input → Decoder
  | .byte value => (d.push value).2
  | .reset => d.reset

def after (history : List Input) : Decoder := history.foldl respond {}

@[simp] theorem reset_phase (d : Decoder) : d.reset.phase = .hunting := rfl

@[simp] theorem reset_payload (d : Decoder) : d.reset.payload = [] := rfl

@[simp] theorem reset_lengthBytes (d : Decoder) : d.reset.lengthBytes = d.lengthBytes := rfl

-- A fault is a reset after which the byte that showed it is taken once more.
theorem fail_eq (d : Decoder) (byte : UInt8) (fault : Fault) :
    d.fail byte fault = (.invalid fault, (d.reset.push byte).2) := by
  simp only [fail, push, reset_phase]

@[simp] theorem fail_lengthBytes (d : Decoder) (byte : UInt8) (fault : Fault) :
    (d.fail byte fault).2.lengthBytes = d.lengthBytes := by
  simp only [fail]
  split <;> rfl

@[simp] theorem push_lengthBytes_length (d : Decoder) (byte : UInt8) :
    (d.push byte).2.lengthBytes.length = d.lengthBytes.length := by
  unfold push
  cases d.phase with
  | hunting =>
      by_cases hbyte : byte = 0xFF <;> simp [hbyte]
  | opening => rfl
  | measuring collected =>
      simp only
      split
      · simp
      · split
        · simp
        · split <;> simp
  | filling expected => rfl
  | closing collected =>
      simp only
      split
      · simp
      · split <;> rfl

theorem push_filling_of_room {d : Decoder} {expected : Nat} (hphase : d.phase = .filling expected)
    (hroom : d.payload.length < payloadLimit) (byte : UInt8) :
    d.push byte = (.pending, { d with
      payload := d.payload ++ [byte]
      phase := if d.payload.length + 1 = expected then .closing 0 else .filling expected }) := by
  have hextend : extend d.payload byte = d.payload ++ [byte] := if_pos hroom
  simp only [push, hphase, hextend, List.length_append, List.length_singleton]

theorem respond_lengthBytes_length (d : Decoder) (input : Input) :
    (d.respond input).lengthBytes.length = d.lengthBytes.length := by
  cases input with
  | byte value => exact push_lengthBytes_length d value
  | reset => rfl

theorem after_lengthBytes_length (history : List Input) :
    (after history).lengthBytes.length = lengthWidth := by
  have hfold (d : Decoder) :
      (history.foldl respond d).lengthBytes.length = d.lengthBytes.length := by
    induction history generalizing d with
    | nil => rfl
    | cons input rest ih =>
        rw [List.foldl_cons, ih, respond_lengthBytes_length]
  exact hfold {}

theorem eventsFrom_of_pending {d : Decoder} {byte : UInt8} (h : (d.push byte).1 = .pending)
    (offset : Nat) (rest : List UInt8) :
    d.eventsFrom offset (byte :: rest) = (d.push byte).2.eventsFrom (offset + 1) rest := by
  simp only [eventsFrom, h]

theorem eventsFrom_of_ne_pending {d : Decoder} {byte : UInt8} (h : (d.push byte).1 ≠ .pending)
    (offset : Nat) (rest : List UInt8) :
    d.eventsFrom offset (byte :: rest) =
      ((offset, (d.push byte).1) :: ((d.push byte).2.eventsFrom (offset + 1) rest).1,
        ((d.push byte).2.eventsFrom (offset + 1) rest).2) := by
  simp only [eventsFrom]

theorem eventsFrom_append (d : Decoder) (offset : Nat) (front back : List UInt8) :
    d.eventsFrom offset (front ++ back) =
      ((d.eventsFrom offset front).1 ++
          ((d.eventsFrom offset front).2.eventsFrom (offset + front.length) back).1,
        ((d.eventsFrom offset front).2.eventsFrom (offset + front.length) back).2) := by
  induction front generalizing d offset with
  | nil => rfl
  | cons byte rest ih =>
      have hoffset : offset + (byte :: rest).length = offset + 1 + rest.length := by
        simp only [List.length_cons]
        omega
      simp only [List.cons_append, eventsFrom, ih, hoffset]
      cases (d.push byte).1 with
      | pending => rfl
      | frame payload => rfl
      | invalid fault => rfl

-- What two decoders in a phase must share for no input to tell them apart.
def Shares (d e : Decoder) : Phase → Prop
  | .hunting | .opening => True
  | .measuring collected =>
    collected < lengthWidth ∧ d.lengthBytes.take collected = e.lengthBytes.take collected
  | .filling _ | .closing _ => d.payload = e.payload

structure Alike (d e : Decoder) : Prop where
  phase : d.phase = e.phase
  shared : Shares d e d.phase
  left_width : d.lengthBytes.length = lengthWidth
  right_width : e.lengthBytes.length = lengthWidth

theorem alike_fail {d e : Decoder} (hleft : d.lengthBytes.length = lengthWidth)
    (hright : e.lengthBytes.length = lengthWidth) (byte : UInt8) (fault : Fault) :
    (d.fail byte fault).1 = (e.fail byte fault).1 ∧
      Alike (d.fail byte fault).2 (e.fail byte fault).2 := by
  simp only [Decoder.fail, true_and]
  split <;> exact ⟨rfl, trivial, hleft, hright⟩

-- In the length field they agree on the bytes collected so far, so the whole field is the same.
theorem Alike.push_measuring {d e : Decoder} {collected : Nat} (h : Alike d e)
    (hphase : d.phase = .measuring collected) (byte : UInt8) :
    (d.push byte).1 = (e.push byte).1 ∧ Alike (d.push byte).2 (e.push byte).2 := by
  have hother : e.phase = .measuring collected := h.phase.symm.trans hphase
  have hshared := h.shared
  rw [hphase] at hshared
  obtain ⟨hcollected, hagree⟩ := hshared
  have hleft : (d.lengthBytes.set collected byte).length = lengthWidth :=
    List.length_set.trans h.left_width
  have hright : (e.lengthBytes.set collected byte).length = lengthWidth :=
    List.length_set.trans h.right_width
  have hnext : (d.lengthBytes.set collected byte).take (collected + 1) =
      (e.lengthBytes.set collected byte).take (collected + 1) := by
    rw [List.take_add_one, List.take_add_one, List.take_set_of_le (Nat.le_refl _),
      List.take_set_of_le (Nat.le_refl _), hagree,
      List.getElem?_set_self (by rw [h.left_width]; exact hcollected),
      List.getElem?_set_self (by rw [h.right_width]; exact hcollected)]
  simp only [Decoder.push, hphase, hother]
  by_cases hmore : collected + 1 < lengthWidth
  · rw [if_pos hmore, if_pos hmore]
    exact ⟨rfl, rfl, ⟨hmore, hnext⟩, hleft, hright⟩
  · have hsame : d.lengthBytes.set collected byte = e.lengthBytes.set collected byte := by
      rwa [List.take_of_length_le (by omega), List.take_of_length_le (by omega)] at hnext
    rw [if_neg hmore, if_neg hmore, hsame]
    split
    · exact alike_fail hright hright byte .zeroLength
    split
    · exact alike_fail hright hright byte _
    · exact ⟨rfl, rfl, rfl, hright, hright⟩

theorem Alike.push {d e : Decoder} (h : Alike d e) (byte : UInt8) :
    (d.push byte).1 = (e.push byte).1 ∧ Alike (d.push byte).2 (e.push byte).2 := by
  cases hphase : d.phase with
  | hunting =>
      have hother : e.phase = .hunting := h.phase.symm.trans hphase
      simp only [Decoder.push, hphase, hother, true_and]
      split
      · exact ⟨rfl, trivial, h.left_width, h.right_width⟩
      · exact h
  | opening =>
      have hother : e.phase = .opening := h.phase.symm.trans hphase
      simp only [Decoder.push, hphase, hother, true_and]
      refine ⟨rfl, ?_, h.left_width, h.right_width⟩
      split
      · exact ⟨by decide, rfl⟩
      · split <;> trivial
  | measuring collected => exact h.push_measuring hphase byte
  | filling expected =>
      have hother : e.phase = .filling expected := h.phase.symm.trans hphase
      have hshared := h.shared
      rw [hphase] at hshared
      have hpayload : d.payload = e.payload := hshared
      simp only [Decoder.push, hphase, hother, hpayload, true_and]
      refine ⟨rfl, ?_, h.left_width, h.right_width⟩
      split <;> rfl
  | closing collected =>
      have hother : e.phase = .closing collected := h.phase.symm.trans hphase
      have hshared := h.shared
      rw [hphase] at hshared
      have hpayload : d.payload = e.payload := hshared
      simp only [Decoder.push, hphase, hother]
      split
      · exact alike_fail h.left_width h.right_width byte .brokenEnd
      split
      · exact ⟨rfl, rfl, hpayload, h.left_width, h.right_width⟩
      · exact ⟨congrArg Step.frame hpayload, rfl, trivial, h.left_width, h.right_width⟩

theorem Alike.respond {d e : Decoder} (h : Alike d e) (input : Input) :
    Alike (d.respond input) (e.respond input) := by
  cases input with
  | byte value => exact (h.push value).2
  | reset => exact ⟨rfl, trivial, h.left_width, h.right_width⟩

theorem Alike.foldl_respond {d e : Decoder} (h : Alike d e) (history : List Input) :
    Alike (history.foldl Decoder.respond d) (history.foldl Decoder.respond e) := by
  induction history generalizing d e with
  | nil => exact h
  | cons input rest ih => exact ih (h.respond input)

-- Whether a decoder answers any further inputs as a new one does.
def ActsNew (d : Decoder) : Prop :=
  ∀ history byte, ((history.foldl respond d).push byte).1 = ((after history).push byte).1 ∧
    (history.foldl respond d).isMidFrame = (after history).isMidFrame

-- The length bytes that a reset leaves are never looked at.
theorem reset_actsNew {d : Decoder} (hwidth : d.lengthBytes.length = lengthWidth) :
    d.reset.ActsNew := by
  intro history byte
  have halike : Alike d.reset {} := ⟨rfl, trivial, hwidth, rfl⟩
  have hend := halike.foldl_respond history
  refine ⟨(hend.push byte).1, ?_⟩
  rw [isMidFrame, hend.phase]
  rfl

end RelayGateway.Frame.Decoder
