import RelayGateway.Json.Number
import RelayGateway.Text.Utf8
import Mathlib.Data.List.TakeWhile
import Mathlib.Data.Nat.Digits.Defs

namespace RelayGateway.Json

open RelayGateway.Text (toBytes ofBytes?)

theorem toBytes_append (a b : String) : toBytes (a ++ b) = toBytes a ++ toBytes b := by
  simp [toBytes]

theorem ofBytes?_toBytes (text : String) : ofBytes? (toBytes text) = some text := by
  have hvalid : (toBytes text).toArray = text.toByteArray.data := by simp [toBytes]
  rw [ofBytes?, hvalid]
  exact dif_pos text.isValidUTF8

theorem toBytes_ofList (cs : List Char) :
    toBytes (String.ofList cs) = cs.flatMap String.utf8EncodeChar := by
  simp [toBytes, List.utf8Encode]

theorem toBytes_ofList_ascii {cs : List Char} (h : ∀ c ∈ cs, c.toNat < 128) :
    toBytes (String.ofList cs) = cs.map ascii := by
  rw [toBytes_ofList]
  induction cs with
  | nil => rfl
  | cons c cs ih =>
      obtain ⟨hc, hrest⟩ := List.forall_mem_cons.mp h
      have hchar : String.utf8EncodeChar c = [ascii c] := if_pos (Nat.le_pred_of_lt hc)
      rw [List.flatMap_cons, hchar, ih hrest]
      rfl

theorem toDigits_isDigit {n : Nat} : ∀ c ∈ Nat.toDigits 10 n, c.isDigit = true :=
  fun _ hc => Nat.isDigit_of_mem_toDigits (by decide) (by decide) hc

theorem toDigits_eq_cons (n : Nat) : ∃ first rest, Nat.toDigits 10 n = first :: rest :=
  List.exists_cons_of_ne_nil Nat.toDigits_ne_nil

theorem foldl_toDigits (n : Nat) :
    (Nat.toDigits 10 n).foldl (fun value c => 10 * value + (c.toNat - 48)) 0 = n := by
  have hvalue : Nat.ofDigitChars 10 (Nat.toDigits 10 n) 0 = n :=
    Nat.ofDigitChars_toDigits (by decide) (by decide)
  rwa [Nat.ofDigitChars_eq_foldl] at hvalue

theorem head_toDigits_small : ∀ n < 10, 0 < n → (Nat.toDigits 10 n).head? ≠ some '0' := by decide

-- No zero stands in front of other digits.
theorem head_toDigits {n : Nat} (h : 0 < n) : (Nat.toDigits 10 n).head? ≠ some '0' := by
  induction n using Nat.strong_induction_on with
  | _ n ih =>
      by_cases hsmall : n < 10
      · exact head_toDigits_small n hsmall h
      · have hrest := ih (n / 10) (by omega) (by omega)
        obtain ⟨first, rest, hdigits⟩ := toDigits_eq_cons (n / 10)
        rw [Nat.toDigits_of_base_le (by decide) (by omega), hdigits]
        rwa [hdigits] at hrest

theorem digit_bounds {c : Char} (h : c.isDigit = true) : 48 ≤ c.toNat ∧ c.toNat ≤ 57 := by
  simp only [Char.isDigit, Bool.and_eq_true, decide_eq_true_eq] at h
  exact ⟨h.1, h.2⟩

theorem toBytes_toString (n : Nat) : toBytes (toString n) = (Nat.toDigits 10 n).map ascii := by
  rw [Nat.toString_eq_ofList_toDigits]
  refine toBytes_ofList_ascii fun c hc => ?_
  obtain ⟨-, hhigh⟩ := digit_bounds (toDigits_isDigit c hc)
  omega

theorem isDigit_ascii {c : Char} (h : c.isDigit = true) : isDigit (ascii c) = true := by
  obtain ⟨hlow, hhigh⟩ := digit_bounds h
  have hvalue : (ascii c).toNat = c.toNat := Nat.mod_eq_of_lt (by omega)
  simp only [isDigit, Bool.and_eq_true, decide_eq_true_eq, UInt8.le_iff_toNat_le, hvalue]
  exact ⟨hlow, hhigh⟩

theorem isDigit_of_mem_toDigits {n : Nat} : ∀ b ∈ (Nat.toDigits 10 n).map ascii, isDigit b = true := by
  intro b hb
  obtain ⟨c, hc, rfl⟩ := List.mem_map.mp hb
  exact isDigit_ascii (toDigits_isDigit c hc)

theorem digitValue_ascii {c : Char} (h : c.isDigit = true) : digitValue (ascii c) = c.toNat - 48 := by
  obtain ⟨hlow, hhigh⟩ := digit_bounds h
  have hvalue : (ascii c).toNat = c.toNat := Nat.mod_eq_of_lt (by omega)
  rw [digitValue, hvalue]

theorem digitValue_eq_zero {b : UInt8} (h : isDigit b = true) (hzero : digitValue b = 0) :
    b = ascii '0' := by
  simp only [isDigit, Bool.and_eq_true, decide_eq_true_eq, UInt8.le_iff_toNat_le] at h
  have hlow : 48 ≤ b.toNat := h.1
  have hvalue : b.toNat - 48 = 0 := hzero
  exact UInt8.toNat_inj.mp (show b.toNat = 48 by omega)

theorem ascii_digit_inj {c d : Char} (hc : c.isDigit = true) (hd : d.isDigit = true)
    (h : ascii c = ascii d) : c = d := by
  have hvalue := congrArg digitValue h
  rw [digitValue_ascii hc, digitValue_ascii hd] at hvalue
  have hlow := (digit_bounds hc).1
  have hlow' := (digit_bounds hd).1
  exact Char.toNat_inj.mp (by omega)

namespace Numeral

def ofNat (n : Nat) : Numeral :=
  ⟨false, (Nat.toDigits 10 n).map fun c => c.toNat - 48, none, none⟩

-- Digits that may stand before the point.
structure Leading (digits : List UInt8) : Prop where
  nonempty : digits ≠ []
  all : ∀ b ∈ digits, isDigit b = true
  zero : digits.head? = some (ascii '0') → digits.length = 1

theorem leading_zero : Leading [ascii '0'] :=
  ⟨List.cons_ne_nil _ _, List.forall_mem_singleton.mpr (by decide), fun _ => rfl⟩

theorem Leading.of_toDigits {n : Nat} (h : 0 < n) {digits : List UInt8}
    (hdigits : ∀ b ∈ digits, isDigit b = true)
    (hhead : digits.head? = (Nat.toDigits 10 n).head?.map ascii) : Leading digits := by
  obtain ⟨first, rest, hfirst⟩ := toDigits_eq_cons n
  rw [hfirst, List.head?_cons, Option.map_some] at hhead
  have hzero : first ≠ '0' := by
    rintro rfl
    exact head_toDigits h (by rw [hfirst, List.head?_cons])
  refine ⟨?_, hdigits, ?_⟩
  · rintro rfl
    cases hhead
  · intro hsame
    have hdigit : first.isDigit = true := toDigits_isDigit first (hfirst ▸ List.mem_cons_self)
    exact absurd (ascii_digit_inj hdigit (by decide) (Option.some.inj (hhead.symm.trans hsame))) hzero

theorem leading_toDigits (n : Nat) : Leading ((Nat.toDigits 10 n).map ascii) := by
  obtain rfl | hpos := Nat.eq_zero_or_pos n
  · exact leading_zero
  · exact .of_toDigits hpos isDigit_of_mem_toDigits List.head?_map

def Ends (rest : List UInt8) : Prop := ∀ b ∈ rest.head?, isDigit b = false

theorem ends_nil : Ends [] := by simp [Ends]

theorem ends_cons {b : UInt8} (h : isDigit b = false) (rest : List UInt8) : Ends (b :: rest) := by
  simpa [Ends] using h

-- Digits are read up to what is not one.
theorem digits?_append {digits rest : List UInt8} (hne : digits ≠ [])
    (hdigits : ∀ b ∈ digits, isDigit b = true) (hrest : Ends rest) :
    digits? (digits ++ rest) = some (digits.map digitValue, rest) := by
  have hnone : rest.takeWhile isDigit = [] ∧ rest.dropWhile isDigit = rest := by
    cases rest with
    | nil => exact ⟨rfl, rfl⟩
    | cons b rest =>
        have hb : ¬ isDigit b = true := by simp [hrest b rfl]
        exact ⟨List.takeWhile_cons_of_neg hb, List.dropWhile_cons_of_neg hb⟩
  obtain ⟨first, more, rfl⟩ := List.exists_cons_of_ne_nil hne
  unfold digits?
  rw [List.takeWhile_append_of_pos hdigits, List.dropWhile_append_of_pos hdigits, hnone.1, hnone.2,
    List.append_nil]

theorem whole?_append {digits rest : List UInt8} (h : Leading digits)
    (hrest : Ends rest) :
    whole? (digits ++ rest) = some (digits.map digitValue, rest) := by
  have hzero : ¬ ((digits.map digitValue).head? = some 0 ∧ 1 < (digits.map digitValue).length) := by
    rintro ⟨hhead, hlength⟩
    obtain ⟨first, more, rfl⟩ := List.exists_cons_of_ne_nil h.nonempty
    have hfirst : first = ascii '0' :=
      digitValue_eq_zero (h.all first List.mem_cons_self) (Option.some.inj hhead)
    have hone := h.zero (congrArg some hfirst)
    rw [List.length_map] at hlength
    omega
  unfold whole?
  rw [digits?_append h.nonempty h.all hrest]
  simp only [Option.bind_eq_bind, Option.bind_some, hzero, if_false]

def signLetters (negative : Bool) : List UInt8 := if negative then [ascii '-'] else []

theorem toBytes_toString_int (n : Int) : toBytes (toString n) =
    signLetters (decide (n < 0)) ++ (Nat.toDigits 10 n.natAbs).map ascii := by
  cases n with
  | ofNat n => exact toBytes_toString n
  | negSucc n =>
      have hnegative : decide (Int.negSucc n < 0) = true := decide_eq_true (Int.negSucc_lt_zero n)
      rw [hnegative]
      change toBytes ("-" ++ toString (n + 1)) = _
      rw [toBytes_append, toBytes_toString]
      rfl

theorem ofLetters?_append {digits rest tail : List UInt8} {fraction : Option (List Nat)}
    {exponent : Option (Bool × List Nat)} (negative : Bool) (h : Leading digits)
    (hrest : Ends rest) (hfraction : fraction? rest = some (fraction, tail))
    (hexponent : exponent? tail = some (exponent, [])) :
    ofLetters? (signLetters negative ++ (digits ++ rest)) =
      some ⟨negative, digits.map digitValue, fraction, exponent⟩ := by
  have hwhole := whole?_append h hrest
  cases negative with
  | true => simp [ofLetters?, signLetters, hwhole, hfraction, hexponent]
  | false =>
      obtain ⟨first, more, rfl⟩ := List.exists_cons_of_ne_nil h.nonempty
      have hsign : first ≠ ascii '-' := by
        rintro rfl
        exact absurd (h.all _ List.mem_cons_self) (by decide)
      rw [List.cons_append] at hwhole
      simp [ofLetters?, signLetters, hsign, hwhole, hfraction, hexponent]

theorem fraction?_append {digits tail : List UInt8} (hne : digits ≠ [])
    (hdigits : ∀ b ∈ digits, isDigit b = true) (htail : Ends tail) :
    fraction? (ascii '.' :: (digits ++ tail)) = some (some (digits.map digitValue), tail) := by
  simp [fraction?, digits?_append hne hdigits htail]

theorem map_digitValue_toDigits (n : Nat) :
    ((Nat.toDigits 10 n).map ascii).map digitValue = (ofNat n).whole := by
  rw [List.map_map]
  exact List.map_congr_left fun c hc => digitValue_ascii (toDigits_isDigit c hc)

theorem ofLetters?_toDigits (negative : Bool) (n : Nat) :
    ofLetters? (signLetters negative ++ (Nat.toDigits 10 n).map ascii) =
      some { ofNat n with negative } := by
  have hread := ofLetters?_append negative (leading_toDigits n) ends_nil rfl rfl
  rwa [List.append_nil, map_digitValue_toDigits] at hread

def Numeric (b : UInt8) : Prop :=
  isDigit b = true ∨ b ∈ [ascii '-', ascii '+', ascii '.', ascii 'e', ascii 'E']

instance : DecidablePred Numeric := fun b =>
  inferInstanceAs (Decidable (isDigit b = true ∨
    b ∈ [ascii '-', ascii '+', ascii '.', ascii 'e', ascii 'E']))

theorem numeric_of_digits? {letters rest : List UInt8} {digits : List Nat}
    (h : digits? letters = some (digits, rest)) : ∀ b ∈ letters, Numeric b ∨ b ∈ rest := by
  intro b hb
  rw [← List.takeWhile_append_dropWhile (p := isDigit) (l := letters), List.mem_append] at hb
  unfold digits? at h
  split at h
  · cases h
  · cases h
    exact hb.imp (fun hmem => .inl (List.mem_takeWhile_imp hmem)) id

theorem numeric_of_whole? {letters rest : List UInt8} {digits : List Nat}
    (h : whole? letters = some (digits, rest)) : ∀ b ∈ letters, Numeric b ∨ b ∈ rest := by
  obtain ⟨⟨read, after⟩, hread, h⟩ := Option.bind_eq_some_iff.mp h
  dsimp only at h
  split at h
  · cases h
  · cases h
    exact numeric_of_digits? hread

theorem numeric_of_fraction? {letters rest : List UInt8} {fraction : Option (List Nat)}
    (h : fraction? letters = some (fraction, rest)) : ∀ b ∈ letters, Numeric b ∨ b ∈ rest := by
  cases letters with
  | nil => simp
  | cons b letters =>
      simp only [fraction?] at h
      split at h
      · rename_i hpoint
        obtain ⟨⟨read, after⟩, hread, h⟩ := Option.bind_eq_some_iff.mp h
        cases h
        rw [List.forall_mem_cons]
        exact ⟨.inl (.inr (by simp [hpoint])), numeric_of_digits? hread⟩
      · cases h
        exact fun b hb => .inr hb

theorem numeric_of_exponentSign (letters : List UInt8) :
    ∀ b ∈ letters, Numeric b ∨ b ∈ (exponentSign letters).2 := by
  cases letters with
  | nil => simp
  | cons first letters =>
      intro b hb
      simp only [exponentSign]
      split
      · rename_i hminus
        exact (List.mem_cons.mp hb).imp (fun hsame => .inr (by simp [hsame, hminus])) id
      · split
        · rename_i hplus
          exact (List.mem_cons.mp hb).imp (fun hsame => .inr (by simp [hsame, hplus])) id
        · exact .inr hb

theorem numeric_of_exponent? {letters rest : List UInt8} {exponent : Option (Bool × List Nat)}
    (h : exponent? letters = some (exponent, rest)) : ∀ b ∈ letters, Numeric b ∨ b ∈ rest := by
  cases letters with
  | nil => simp
  | cons first letters =>
      simp only [exponent?] at h
      split at h
      · rename_i hletter
        obtain ⟨⟨read, after⟩, hread, h⟩ := Option.bind_eq_some_iff.mp h
        cases h
        rw [List.forall_mem_cons]
        refine ⟨.inl (.inr ?_), fun b hb => ?_⟩
        · rcases hletter with rfl | rfl <;> simp
        · exact (numeric_of_exponentSign letters b hb).elim .inl (numeric_of_digits? hread b)
      · cases h
        exact fun b hb => .inr hb

theorem numeric_of_ofLetters? {letters : List UInt8} {n : Numeral} (h : ofLetters? letters = some n) :
    ∀ b ∈ letters, Numeric b := by
  have hafter {rest after afterPoint last : List UInt8} {whole : List Nat} {fraction : Option (List Nat)}
      {exponent : Option (Bool × List Nat)} (hwhole : whole? rest = some (whole, after))
      (hfraction : fraction? after = some (fraction, afterPoint))
      (hexponent : exponent? afterPoint = some (exponent, last)) (hlast : last = []) :
      ∀ b ∈ rest, Numeric b := by
    intro b hb
    obtain hb | hb := numeric_of_whole? hwhole b hb
    · exact hb
    obtain hb | hb := numeric_of_fraction? hfraction b hb
    · exact hb
    obtain hb | hb := numeric_of_exponent? hexponent b hb
    · exact hb
    · rw [hlast] at hb
      cases hb
  cases letters with
  | nil => simp
  | cons first letters =>
      by_cases hminus : first = ascii '-'
      · simp only [ofLetters?, hminus, if_true, Option.bind_eq_bind, Option.bind_eq_some_iff,
          Option.ite_none_right_eq_some, List.isEmpty_iff] at h
        obtain ⟨_, hwhole, _, hfraction, _, hexponent, hlast, -⟩ := h
        rw [List.forall_mem_cons]
        exact ⟨.inr (by simp [hminus]), hafter hwhole hfraction hexponent hlast⟩
      · simp only [ofLetters?, hminus, if_false, Option.bind_eq_bind, Option.bind_eq_some_iff,
          Option.ite_none_right_eq_some, List.isEmpty_iff] at h
        obtain ⟨_, hwhole, _, hfraction, _, hexponent, hlast, -⟩ := h
        exact hafter hwhole hfraction hexponent hlast

def decimal (digits : List Nat) : Nat := digits.foldl (fun value d => value * 10 + d) 0

def IsWhole (n : Numeral) (value : Nat) : Prop :=
  n.negative = false ∧ n.fraction = none ∧ n.exponent = none ∧ decimal n.whole = value

theorem isWhole_ofNat (n : Nat) : (ofNat n).IsWhole n := by
  refine ⟨rfl, rfl, rfl, ?_⟩
  rw [decimal, ofNat, List.foldl_map]
  simpa only [Nat.mul_comm] using foldl_toDigits n

theorem le_foldl_digits (digits : List Nat) (value : Nat) :
    value ≤ digits.foldl (fun value d => value * 10 + d) value := by
  induction digits generalizing value with
  | nil => exact Nat.le_refl value
  | cons d digits ih => exact Nat.le_trans (by omega) (ih (value * 10 + d))

-- No digit is left over exactly if all of them stay within the limit.
theorem accumulate_eq_iff {limit value total : Nat} {digits : List Nat} (h : value ≤ limit) :
    accumulate limit value digits = (total, []) ↔
      digits.foldl (fun value d => value * 10 + d) value = total ∧ total ≤ limit := by
  induction digits generalizing value with
  | nil =>
      simp only [accumulate, List.foldl_nil, Prod.mk.injEq, and_true]
      exact ⟨fun hsame => ⟨hsame, hsame ▸ h⟩, And.left⟩
  | cons d digits ih =>
      rw [accumulate, List.foldl_cons]
      by_cases hfits : value * 10 + d ≤ limit
      · rw [if_pos hfits]
        exact ih hfits
      · rw [if_neg hfits]
        refine iff_of_false (by simp) ?_
        rintro ⟨htotal, hle⟩
        have hleast := le_foldl_digits digits (value * 10 + d)
        omega

theorem accumulate_fst_le {limit value : Nat} (digits : List Nat) (h : value ≤ limit) :
    (accumulate limit value digits).1 ≤ limit := by
  induction digits generalizing value with
  | nil => exact h
  | cons d digits ih =>
      rw [accumulate]
      split
      · rename_i hfits
        exact ih hfits
      · exact h

-- A numeral stands for a natural number exactly if it is written as one that fits 64 bits.
theorem number?_eq_natural_iff {n : Numeral} {value : Nat} :
    n.number? = some (.natural value) ↔ n.IsWhole value ∧ value < 2 ^ 64 := by
  have hall (total : Nat) : accumulate maxSignificand 0 n.whole = (total, []) ↔
      decimal n.whole = total ∧ total ≤ maxSignificand := accumulate_eq_iff (Nat.zero_le _)
  have hlimit : value ≤ maxSignificand ↔ value < 2 ^ 64 := by
    rw [maxSignificand]
    omega
  rcases haccumulate : accumulate maxSignificand 0 n.whole with ⟨digits, spilled⟩
  rw [haccumulate] at hall
  rw [number?, haccumulate, IsWhole, ← hlimit]
  dsimp only
  constructor
  · intro h
    split at h
    · rename_i hplain
      obtain ⟨hfraction, hexponent, hspilled, hnegative⟩ := hplain
      cases h
      obtain ⟨hvalue, hle⟩ := (hall value).mp (by rw [List.isEmpty_iff.mp hspilled])
      exact ⟨⟨hnegative, Option.isNone_iff_eq_none.mp hfraction,
        Option.isNone_iff_eq_none.mp hexponent, hvalue⟩, hle⟩
    · split at h
      · cases h
      · obtain ⟨magnitude, -, hbinary⟩ := Option.map_eq_some_iff.mp h
        cases hbinary
  · rintro ⟨⟨hnegative, hfraction, hexponent, hvalue⟩, hle⟩
    obtain ⟨rfl, rfl⟩ := Prod.mk.inj ((hall value).mpr ⟨hvalue, hle⟩)
    simp [hnegative, hfraction, hexponent]

theorem number?_ofNat {n : Nat} (h : n < 2 ^ 64) : (ofNat n).number? = some (.natural n) :=
  number?_eq_natural_iff.mpr ⟨isWhole_ofNat n, h⟩

end Numeral

end RelayGateway.Json
