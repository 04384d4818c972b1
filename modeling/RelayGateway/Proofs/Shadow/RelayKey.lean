import RelayGateway.Proofs.Json.Numerals
import RelayGateway.Shadow.Document

namespace RelayGateway.Shadow

open Json

-- A key that names a relay with a plus sign or zeros in front of its number.
def spelled (plus : Bool) (zeros index : Nat) : String :=
  "relay" ++ (if plus then "+" else "") ++ String.ofList (List.replicate zeros '0') ++
    toString (index + 1)

def IsPlain (key : String) : Prop :=
  ∀ rest, afterRelay? key.toList = some rest → rest.head? ≠ some '+' ∧ rest.head? ≠ some '0'

def signText (plus : Bool) : List Char := if plus then ['+'] else []

def spelledNumber (plus : Bool) (zeros n : Nat) : List Char :=
  signText plus ++ (List.replicate zeros '0' ++ Nat.toDigits 10 n)

theorem toList_spelled (plus : Bool) (zeros index : Nat) :
    (spelled plus zeros index).toList =
      'r' :: 'e' :: 'l' :: 'a' :: 'y' :: spelledNumber plus zeros (index + 1) := by
  unfold spelled spelledNumber signText
  rw [Nat.toString_eq_ofList_toDigits]
  cases plus <;> simp [String.toList_append]

theorem spelled_plain (index : Nat) : spelled false 0 index = keyOfIndex index := by
  apply String.toList_injective
  have hkey : keyOfIndex index = "relay" ++ toString (index + 1) := rfl
  rw [toList_spelled, hkey, String.toList_append, Nat.toString_eq_ofList_toDigits]
  simp [spelledNumber, signText]

theorem digitChar_of_isDigit {c : Char} (h : c.isDigit = true) : (c.toNat - 48).digitChar = c := by
  obtain ⟨hlow, hhigh⟩ := digit_bounds h
  apply Char.toNat_inj.mp
  rw [Nat.toNat_digitChar_of_lt_ten (by omega)]
  omega

theorem ofDigitChars_digit (c : Char) (digits : List Char) (front : Nat) :
    Nat.ofDigitChars 10 (c :: digits) front =
      Nat.ofDigitChars 10 digits (10 * front + (c.toNat - 48)) :=
  Nat.ofDigitChars_cons

theorem toDigits_append_digits {digits : List Char} (hdigits : ∀ c ∈ digits, c.isDigit = true)
    {front : Nat} (hfront : 0 < front) :
    Nat.toDigits 10 front ++ digits = Nat.toDigits 10 (Nat.ofDigitChars 10 digits front) := by
  induction digits generalizing front with
  | nil => rw [List.append_nil, Nat.ofDigitChars_nil]
  | cons c digits ih =>
      obtain ⟨hc, hdigits⟩ := List.forall_mem_cons.mp hdigits
      obtain ⟨hlow, hhigh⟩ := digit_bounds hc
      have hlast : [c] = Nat.toDigits 10 (c.toNat - 48) := by
        rw [Nat.toDigits_of_lt_base (by omega), digitChar_of_isDigit hc]
      have hlonger : Nat.toDigits 10 front ++ [c] =
          Nat.toDigits 10 (10 * front + (c.toNat - 48)) := by
        rw [hlast]
        exact Nat.toDigits_append_toDigits (by decide) hfront (by omega)
      rw [ofDigitChars_digit, List.append_cons, hlonger]
      exact ih hdigits (by omega)

-- Digits are those of their value behind some zeros, unless all of them are zeros.
theorem digits_eq_of_value {digits : List Char} (hdigits : ∀ c ∈ digits, c.isDigit = true)
    (hvalue : 0 < Nat.ofDigitChars 10 digits 0) :
    ∃ zeros, digits =
      List.replicate zeros '0' ++ Nat.toDigits 10 (Nat.ofDigitChars 10 digits 0) := by
  induction digits with
  | nil => exact absurd hvalue (by decide)
  | cons c digits ih =>
      obtain ⟨hc, hrest⟩ := List.forall_mem_cons.mp hdigits
      by_cases hzero : c = '0'
      · subst hzero
        obtain ⟨zeros, heq⟩ := ih hrest hvalue
        exact ⟨zeros + 1, congrArg ('0' :: ·) heq⟩
      · obtain ⟨hlow, hhigh⟩ := digit_bounds hc
        have hne : c.toNat ≠ 48 := fun h => hzero (Char.toNat_inj.mp h)
        have hfirst : [c] = Nat.toDigits 10 (c.toNat - 48) := by
          rw [Nat.toDigits_of_lt_base (by omega), digitChar_of_isDigit hc]
        refine ⟨0, ?_⟩
        rw [ofDigitChars_digit, Nat.mul_zero, Nat.zero_add,
          ← toDigits_append_digits hrest (by omega), ← hfirst]
        rfl

theorem ofDigitChars_zeros (zeros n : Nat) :
    Nat.ofDigitChars 10 (List.replicate zeros '0' ++ Nat.toDigits 10 n) 0 = n := by
  induction zeros with
  | zero => exact Nat.ofDigitChars_toDigits (by decide) (by decide)
  | succ zeros ih => exact ih

theorem unsigned?_of_digits {digits : List Char} (hne : digits ≠ [])
    (hdigits : ∀ c ∈ digits, c.isDigit = true) (plus : Bool) :
    unsigned? (signText plus ++ digits) =
      if Nat.ofDigitChars 10 digits 0 < 2 ^ 64 then some (Nat.ofDigitChars 10 digits 0)
      else none := by
  obtain ⟨first, rest, rfl⟩ := List.exists_cons_of_ne_nil hne
  have hall : (first :: rest).all Char.isDigit = true := List.all_eq_true.mpr hdigits
  have hsign : first ≠ '+' := by
    rintro rfl
    exact absurd (hdigits '+' List.mem_cons_self) (by decide)
  unfold unsigned?
  extract_lets text value
  have htext : text = first :: rest := by
    cases plus with
    | true => rfl
    | false =>
        simp only [text]
        split
        · rename_i heq
          exact (hsign (List.cons.inj heq).1).elim
        · rfl
  have hvalue : value = Nat.ofDigitChars 10 (first :: rest) 0 := by
    simp only [value, htext]
    exact Nat.ofDigitChars_eq_foldl.symm
  rw [htext, hall, hvalue, if_neg (by simp)]

theorem unsigned?_eq_some {text : List Char} {n : Nat} (h : unsigned? text = some n) :
    n < 2 ^ 64 ∧ ∃ plus digits, text = signText plus ++ digits ∧
      (∀ c ∈ digits, c.isDigit = true) ∧ Nat.ofDigitChars 10 digits 0 = n := by
  unfold unsigned? at h
  extract_lets digits value at h
  have htext : ∃ plus : Bool, text = signText plus ++ digits := by
    simp only [digits]
    split
    · exact ⟨true, rfl⟩
    · exact ⟨false, rfl⟩
  split at h
  · cases h
  · rename_i hdigits
    split at h
    · rename_i hlt
      obtain ⟨plus, htext⟩ := htext
      simp only [Bool.or_eq_true, not_or, Bool.not_eq_true', Bool.not_eq_false] at hdigits
      have hall : ∀ c ∈ digits, c.isDigit = true := List.all_eq_true.mp hdigits.2
      have hvalue : Nat.ofDigitChars 10 digits 0 = value := Nat.ofDigitChars_eq_foldl
      obtain rfl := Option.some.inj h
      exact ⟨hlt, plus, digits, htext, hall, hvalue⟩
    · cases h

theorem unsigned?_eq_some_iff {text : List Char} {n : Nat} (hn : 0 < n) :
    unsigned? text = some n ↔ n < 2 ^ 64 ∧ ∃ plus zeros, text = spelledNumber plus zeros n := by
  constructor
  · intro h
    obtain ⟨hlt, plus, digits, rfl, hdigits, rfl⟩ := unsigned?_eq_some h
    obtain ⟨zeros, hzeros⟩ := digits_eq_of_value hdigits hn
    exact ⟨hlt, plus, zeros, congrArg _ hzeros⟩
  · rintro ⟨hlt, plus, zeros, rfl⟩
    have hne : List.replicate zeros '0' ++ Nat.toDigits 10 n ≠ [] := by
      simp [Nat.toDigits_ne_nil]
    have hdigits : ∀ c ∈ List.replicate zeros '0' ++ Nat.toDigits 10 n, c.isDigit = true := by
      intro c hc
      obtain hc | hc := List.mem_append.mp hc
      · rw [List.eq_of_mem_replicate hc]
        rfl
      · exact toDigits_isDigit c hc
    rw [spelledNumber, unsigned?_of_digits hne hdigits, ofDigitChars_zeros, if_pos hlt]

theorem afterRelay?_eq_some_iff {text rest : List Char} :
    afterRelay? text = some rest ↔ text = 'r' :: 'e' :: 'l' :: 'a' :: 'y' :: rest := by
  constructor
  · intro h
    unfold afterRelay? at h
    split at h
    · rw [Option.some.inj h]
    · cases h
  · rintro rfl
    rfl

theorem indexOfKey?_eq_some {key : String} {index : Nat} :
    indexOfKey? key = some index ↔
      ∃ rest, afterRelay? key.toList = some rest ∧ unsigned? rest = some (index + 1) := by
  unfold indexOfKey?
  cases hafter : afterRelay? key.toList with
  | none => simp
  | some rest =>
      cases hnumber : unsigned? rest with
      | none => simp [hnumber]
      | some n =>
          cases n with
          | zero => simp [hnumber]
          | succ n => simp [hnumber]

theorem indexOfKey?_eq_some_iff {key : String} {index : Nat} :
    indexOfKey? key = some index ↔
      index + 1 < 2 ^ 64 ∧ ∃ plus zeros, key = spelled plus zeros index := by
  rw [indexOfKey?_eq_some]
  constructor
  · rintro ⟨rest, hafter, hnumber⟩
    obtain ⟨hlt, plus, zeros, rfl⟩ := (unsigned?_eq_some_iff (Nat.succ_pos index)).mp hnumber
    refine ⟨hlt, plus, zeros, String.toList_injective ?_⟩
    rw [afterRelay?_eq_some_iff.mp hafter, toList_spelled]
  · rintro ⟨hlt, plus, zeros, rfl⟩
    refine ⟨spelledNumber plus zeros (index + 1), ?_, ?_⟩
    · exact afterRelay?_eq_some_iff.mpr (toList_spelled plus zeros index)
    · exact (unsigned?_eq_some_iff (Nat.succ_pos index)).mpr ⟨hlt, plus, zeros, rfl⟩

theorem indexOfKey?_keyOfIndex {index : Nat} (h : index + 1 < 2 ^ 64) :
    indexOfKey? (keyOfIndex index) = some index :=
  indexOfKey?_eq_some_iff.mpr ⟨h, false, 0, (spelled_plain index).symm⟩

theorem index_lt_of_key {key : String} {index : Nat} (h : indexOfKey? key = some index) :
    index + 1 < 2 ^ 64 :=
  (indexOfKey?_eq_some_iff.mp h).1

theorem keyOfIndex_injOn {first second : Nat} (hfirst : first + 1 < 2 ^ 64)
    (hsecond : second + 1 < 2 ^ 64) (h : keyOfIndex first = keyOfIndex second) : first = second := by
  have hindex := congrArg indexOfKey? h
  rwa [indexOfKey?_keyOfIndex hfirst, indexOfKey?_keyOfIndex hsecond, Option.some.injEq] at hindex

theorem isPlain_spelled_iff {plus : Bool} {zeros index : Nat} :
    IsPlain (spelled plus zeros index) ↔ plus = false ∧ zeros = 0 := by
  have hrest : ∀ rest, afterRelay? (spelled plus zeros index).toList = some rest ↔
      spelledNumber plus zeros (index + 1) = rest := by
    intro rest
    rw [afterRelay?_eq_some_iff, toList_spelled]
    simp
  have hdigits : ∀ c, (Nat.toDigits 10 (index + 1)).head? = some c → c.isDigit = true :=
    fun c hc => toDigits_isDigit c (List.mem_of_head? hc)
  unfold IsPlain
  simp only [hrest, forall_eq']
  cases plus with
  | true => simp [spelledNumber, signText]
  | false =>
      cases zeros with
      | succ zeros => simp [spelledNumber, signText, List.replicate_succ]
      | zero =>
          refine iff_of_true ⟨?_, head_toDigits (Nat.succ_pos index)⟩ ⟨rfl, rfl⟩
          intro hplus
          exact absurd (hdigits '+' hplus) (by decide)

theorem isPlain_keyOfIndex (index : Nat) : IsPlain (keyOfIndex index) := by
  rw [← spelled_plain]
  exact isPlain_spelled_iff.mpr ⟨rfl, rfl⟩

-- Of the keys of a relay only its name is plain, so no two plain keys name one relay.
theorem plain_iff_eq_keyOfIndex {key : String} {index : Nat} :
    indexOfKey? key = some index ∧ IsPlain key ↔
      index + 1 < 2 ^ 64 ∧ key = keyOfIndex index := by
  constructor
  · rintro ⟨hindex, hplain⟩
    obtain ⟨hlt, plus, zeros, rfl⟩ := indexOfKey?_eq_some_iff.mp hindex
    obtain ⟨rfl, rfl⟩ := isPlain_spelled_iff.mp hplain
    exact ⟨hlt, spelled_plain index⟩
  · rintro ⟨hlt, rfl⟩
    exact ⟨indexOfKey?_keyOfIndex hlt, isPlain_keyOfIndex index⟩

-- What the keys of a relay are, which of them is its name, and which keys name just the relay whose
-- name they are.
theorem indexOfKey?_spellings (key : String) :
    (∀ index, indexOfKey? key = some index ↔
        index + 1 < 2 ^ 64 ∧ ∃ plus zeros, key = spelled plus zeros index) ∧
      (∀ index, indexOfKey? key = some index ∧ IsPlain key ↔
        index + 1 < 2 ^ 64 ∧ key = keyOfIndex index) ∧
      ((∀ index, indexOfKey? key = some index ↔ index + 1 < 2 ^ 64 ∧ key = keyOfIndex index) ↔
        IsPlain key ∨ indexOfKey? key = none) := by
  refine ⟨fun _ => indexOfKey?_eq_some_iff, fun _ => plain_iff_eq_keyOfIndex, ?_, ?_⟩
  · intro hinverse
    cases hindex : indexOfKey? key with
    | none => exact .inr rfl
    | some index =>
        obtain ⟨-, rfl⟩ := (hinverse index).mp hindex
        exact .inl (isPlain_keyOfIndex index)
  · rintro (hplain | hnone) index
    · exact (and_iff_left hplain).symm.trans plain_iff_eq_keyOfIndex
    · refine iff_of_false (by simp [hnone]) ?_
      rintro ⟨hlt, rfl⟩
      rw [indexOfKey?_keyOfIndex hlt] at hnone
      cases hnone

-- A zero or a plus sign in front of its number makes another key of the first relay.
theorem indexOfKey?_leadingZero :
    indexOfKey? "relay01" = some 0 ∧ indexOfKey? "relay+1" = some 0 ∧
      keyOfIndex 0 = "relay1" ∧
      ¬ ∀ key index, index < 2 ^ 64 - 1 →
        (indexOfKey? key = some index ↔ key = keyOfIndex index) := by
  have hzero : indexOfKey? "relay01" = some 0 := by decide +kernel
  have hplus : indexOfKey? "relay+1" = some 0 := by decide +kernel
  have hname : keyOfIndex 0 = "relay1" := by decide +kernel
  refine ⟨hzero, hplus, hname, ?_⟩
  intro hinverse
  have hsame := (hinverse "relay01" 0 (by decide)).mp hzero
  rw [hname] at hsame
  exact absurd hsame (by decide)

end RelayGateway.Shadow
