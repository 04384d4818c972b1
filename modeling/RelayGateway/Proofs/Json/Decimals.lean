import RelayGateway.Floating.Text
import RelayGateway.Proofs.Floating.Rounding
import RelayGateway.Proofs.Json.Numerals

namespace RelayGateway

open Json Json.Numeral
open RelayGateway.Text (toBytes)

namespace Floating

namespace Format

theorem gridPoint?_pos {f : Format} {tie : Tie} {magnitude point : Nat} {exponent : Int}
    (hpos : 0 < magnitude) (h : f.gridPoint? tie magnitude exponent = some point) : 0 < point := by
  have hlow : 0 < (f.units (magnitude - 1) + f.units magnitude) * 10 ^ (-exponent).toNat := by
    have hunits : f.units 0 < f.units magnitude := f.units_strictMono hpos
    exact Nat.mul_pos (by omega) (Nat.pow_pos (by decide))
  unfold gridPoint? at h
  dsimp only at h
  generalize (f.units (magnitude - 1) + f.units magnitude) * 10 ^ (-exponent).toNat = low at h hlow
  generalize 2 * f.units magnitude * 10 ^ (-exponent).toNat /
    (10 ^ exponent.toNat * 2 ^ (f.unitShift + 1)) = below at h
  obtain rfl | hbelow := Nat.eq_zero_or_pos below
  · -- zero itself is not inside
    have hnot : ¬ low ≤ 0 := by omega
    simp only [Nat.zero_mul, hnot, Nat.not_lt_zero, decide_false, Bool.false_and, ite_self,
      Bool.false_eq_true, if_false] at h
    grind
  · grind

theorem shortest_digits {f : Format} {tie : Tie} {magnitude : Nat} (hpos : 0 < magnitude)
    (h : (f.shortest tie magnitude).digits = 0) : (f.shortest tie magnitude).exponent = 0 := by
  unfold shortest at h ⊢
  dsimp only at h ⊢
  generalize hfound : List.findSome? _ _ = found at h ⊢
  cases found with
  | none => rfl
  | some d =>
      obtain ⟨exponent, -, hmap⟩ := List.exists_of_findSome?_eq_some hfound
      obtain ⟨point, hpoint, rfl⟩ := Option.map_eq_some_iff.mp hmap
      have hpositive := gridPoint?_pos hpos hpoint
      exact absurd h (Nat.ne_of_gt hpositive)

end Format

end Floating

namespace Json.Numeral

-- Letters that are a numeral behind either sign.
def Unsigned (letters : List UInt8) : Prop :=
  ∀ negative, ∃ n, ofLetters? (signLetters negative ++ letters) = some n ∧ n.negative = negative

theorem Unsigned.of_append {digits rest tail : List UInt8} {fraction : Option (List Nat)}
    {exponent : Option (Bool × List Nat)} (h : Leading digits)
    (hrest : Ends rest) (hfraction : fraction? rest = some (fraction, tail))
    (hexponent : exponent? tail = some (exponent, [])) : Unsigned (digits ++ rest) :=
  fun negative => ⟨_, ofLetters?_append negative h hrest hfraction hexponent, rfl⟩

theorem Unsigned.positional {whole fraction : List UInt8} (hwhole : Leading whole)
    (hne : fraction ≠ []) (hfraction : ∀ b ∈ fraction, isDigit b = true) :
    Unsigned (whole ++ ascii '.' :: fraction) := by
  have hread := fraction?_append hne hfraction ends_nil
  rw [List.append_nil] at hread
  exact .of_append hwhole (ends_cons (by decide) fraction) hread rfl

theorem exponent?_toString (p : Int) : ∃ exponent,
    exponent? (ascii 'e' :: toBytes ((if 0 < p then "+" else "") ++ toString p)) =
      some (some exponent, []) := by
  have hdigits (n : Nat) :
      digits? ((Nat.toDigits 10 n).map ascii) = some ((ofNat n).whole, []) := by
    have hread := digits?_append (leading_toDigits n).nonempty (leading_toDigits n).all ends_nil
    rwa [List.append_nil, map_digitValue_toDigits] at hread
  have hsigned {sign : UInt8} (hsign : sign = ascii '+' ∨ sign = ascii '-') (n : Nat) : ∃ exponent,
      exponent? (ascii 'e' :: sign :: (Nat.toDigits 10 n).map ascii) = some (some exponent, []) := by
    have hplus : ascii '+' ≠ ascii '-' := by decide
    obtain rfl | rfl := hsign
    · exact ⟨(false, (ofNat n).whole), by simp [exponent?, exponentSign, hplus, hdigits]⟩
    · exact ⟨(true, (ofNat n).whole), by simp [exponent?, exponentSign, hdigits]⟩
  rw [toBytes_append, toBytes_toString_int]
  obtain hnegative | rfl | hpositive := lt_trichotomy p 0
  · rw [if_neg (by omega), decide_eq_true hnegative]
    exact hsigned (.inr rfl) p.natAbs
  · exact ⟨_, rfl⟩
  · rw [if_pos hpositive, decide_eq_false (by omega)]
    exact hsigned (.inl rfl) p.natAbs

theorem Unsigned.scientific {lead : UInt8} {rest : List UInt8} (p : Int) (hlead : isDigit lead = true)
    (hrest : ∀ b ∈ rest, isDigit b = true) :
    Unsigned ([lead] ++ ((if rest = [] then [] else ascii '.' :: rest) ++
      ascii 'e' :: toBytes ((if 0 < p then "+" else "") ++ toString p))) := by
  have hleading : Leading [lead] := ⟨by simp, by simpa using hlead, fun _ => rfl⟩
  have hletter : isDigit (ascii 'e') = false := by decide
  have hpoint : isDigit (ascii '.') = false := by decide
  obtain ⟨exponent, hexponent⟩ := exponent?_toString p
  generalize toBytes ((if 0 < p then "+" else "") ++ toString p) = power at hexponent ⊢
  by_cases hempty : rest = []
  · rw [if_pos hempty]
    exact .of_append hleading (ends_cons hletter power) rfl hexponent
  · rw [if_neg hempty]
    have hfraction := fraction?_append hempty hrest (ends_cons hletter power)
    exact .of_append hleading (ends_cons hpoint _) hfraction hexponent

end Json.Numeral

namespace Floating.Layout

theorem toBytes_digits {cs : List Char} (h : ∀ c ∈ cs, c.isDigit = true) :
    toBytes (String.ofList cs) = cs.map ascii := by
  refine toBytes_ofList_ascii fun c hc => ?_
  have hhigh := (digit_bounds (h c hc)).2
  omega

theorem isDigit_of_mem_map {cs : List Char} (h : ∀ c ∈ cs, c.isDigit = true) :
    ∀ b ∈ cs.map ascii, isDigit b = true := by
  rw [List.forall_mem_map]
  exact fun c hc => isDigit_ascii (h c hc)

theorem toBytes_zeros (n : Int) : toBytes (zeros n) = List.replicate n.toNat (ascii '0') := by
  rw [zeros, toBytes_digits, List.map_replicate]
  intro c hc
  rw [List.eq_of_mem_replicate hc]
  decide

theorem isDigit_of_mem_replicate {k : Nat} : ∀ b ∈ List.replicate k (ascii '0'), isDigit b = true := by
  intro b hb
  rw [List.eq_of_mem_replicate hb]
  decide

theorem unsigned_scientific {digits : List Char} (hne : digits ≠ [])
    (h : ∀ c ∈ digits, c.isDigit = true) (p : Int) :
    Unsigned (toBytes (String.ofList (digits.take 1) ++
      (if (digits.drop 1).isEmpty then "" else "." ++ String.ofList (digits.drop 1)) ++ "e" ++
        (if 0 < p then "+" else "") ++ toString p)) := by
  obtain ⟨first, rest, rfl⟩ := List.exists_cons_of_ne_nil hne
  obtain ⟨hfirst, hrest⟩ := List.forall_mem_cons.mp h
  have hlead : toBytes (String.ofList [first]) = [ascii first] :=
    toBytes_digits (List.forall_mem_singleton.mpr hfirst)
  have hfraction : toBytes (if rest.isEmpty then "" else "." ++ String.ofList rest) =
      if rest.map ascii = [] then [] else ascii '.' :: rest.map ascii := by
    cases rest with
    | nil => decide
    | cons next rest =>
        rw [List.isEmpty_cons, if_neg Bool.false_ne_true, toBytes_append, toBytes_digits hrest,
          List.map_cons, if_neg (List.cons_ne_nil _ _)]
        rfl
  have hletter : toBytes "e" = [ascii 'e'] := by decide
  have hread := Unsigned.scientific p (isDigit_ascii hfirst) (isDigit_of_mem_map hrest)
  simp only [toBytes_append, List.append_assoc] at hread ⊢
  rw [List.take_succ_cons, List.take_zero, List.drop_succ_cons, List.drop_zero, hlead, hfraction,
    hletter]
  exact hread

theorem unsigned_fraction (zeroes : Int) (n : Nat) :
    Unsigned (toBytes ("0." ++ zeros zeroes ++ toString n)) := by
  have hpoint : toBytes "0." = [ascii '0', ascii '.'] := by decide
  have hdigits : ∀ b ∈ List.replicate zeroes.toNat (ascii '0') ++ (Nat.toDigits 10 n).map ascii,
      isDigit b = true := by
    rw [List.forall_mem_append]
    exact ⟨isDigit_of_mem_replicate, isDigit_of_mem_toDigits⟩
  rw [toBytes_append, toBytes_append, hpoint, toBytes_zeros, toBytes_toString, List.append_assoc]
  exact .positional leading_zero (by simp [Nat.toDigits_ne_nil]) hdigits

theorem unsigned_whole {n : Nat} {zeroes : Int} (h : n = 0 → zeroes = 0) :
    Unsigned (toBytes (toString n ++ zeros zeroes ++ ".0")) := by
  have hpoint : toBytes ".0" = [ascii '.', ascii '0'] := by decide
  have hleading : Leading ((Nat.toDigits 10 n).map ascii ++
      List.replicate zeroes.toNat (ascii '0')) := by
    obtain hzero | hpos := Nat.eq_zero_or_pos n
    · rw [hzero, h hzero]
      exact leading_zero
    · obtain ⟨first, rest, hfirst⟩ := toDigits_eq_cons n
      refine .of_toDigits hpos ?_ ?_
      · rw [List.forall_mem_append]
        exact ⟨isDigit_of_mem_toDigits, isDigit_of_mem_replicate⟩
      · rw [hfirst]
        rfl
  rw [toBytes_append, toBytes_append, toBytes_toString, toBytes_zeros, hpoint]
  exact .positional hleading (List.cons_ne_nil _ _) (List.forall_mem_singleton.mpr (by decide))

theorem unsigned_split {n k : Nat} (hn : 0 < n) (hk : 0 < k) (hlength : k < (Nat.toDigits 10 n).length) :
    Unsigned (toBytes (String.ofList ((Nat.toDigits 10 n).take k) ++ "." ++
      String.ofList ((Nat.toDigits 10 n).drop k))) := by
  have hpoint : toBytes "." = [ascii '.'] := by decide
  have hfront : ∀ c ∈ (Nat.toDigits 10 n).take k, c.isDigit = true := fun c hc =>
    toDigits_isDigit c (List.mem_of_mem_take hc)
  have hback : ∀ c ∈ (Nat.toDigits 10 n).drop k, c.isDigit = true := fun c hc =>
    toDigits_isDigit c (List.mem_of_mem_drop hc)
  have hleading : Leading (((Nat.toDigits 10 n).take k).map ascii) := by
    apply Leading.of_toDigits hn (isDigit_of_mem_map hfront)
    rw [List.head?_map, List.head?_take, if_neg (by omega)]
  rw [toBytes_append, toBytes_append, toBytes_digits hfront, toBytes_digits hback, hpoint,
    List.append_assoc]
  refine .positional hleading ?_ (isDigit_of_mem_map hback)
  simpa using hlength

-- A decimal is written as a numeral, if zero is not written with a power of its own.
theorem unsigned_decimal {d : Decimal} (h : d.digits = 0 → d.exponent = 0) :
    Unsigned (toBytes (document.decimal d)) := by
  have hdigits : (toString d.digits).toList = Nat.toDigits 10 d.digits := by
    rw [Nat.toString_eq_ofList_toDigits, String.toList_ofList]
  have hlength : (toString d.digits).length = (Nat.toDigits 10 d.digits).length := by
    rw [← hdigits, String.length_toList]
  unfold decimal
  dsimp only
  rw [hdigits, hlength]
  split
  · exact unsigned_scientific Nat.toDigits_ne_nil toDigits_isDigit _
  · split
    · exact unsigned_fraction _ _
    · split
      · exact unsigned_whole h
      · have hpos : 0 < d.digits := by
          apply Nat.pos_of_ne_zero
          intro hzero
          have hexponent := h hzero
          omega
        exact unsigned_split hpos (by omega) (by omega)

theorem ofLetters?_finite (f : Format) (negative : Bool) (magnitude : Nat) :
    ∃ n, ofLetters? (toBytes (document.finite f negative magnitude)) = some n ∧
      n.negative = negative := by
  have hunsigned : Unsigned (toBytes (if magnitude = 0 then "0.0"
      else document.decimal (f.shortest document.tie magnitude))) := by
    split
    · have hzero : Unsigned (toBytes (toString 0 ++ zeros 0 ++ ".0")) := unsigned_whole fun _ => rfl
      exact hzero
    · rename_i hmagnitude
      exact unsigned_decimal (Format.shortest_digits (Nat.pos_of_ne_zero hmagnitude))
  have hsign : toBytes (if negative then "-" else "") = signLetters negative := by
    cases negative <;> decide
  unfold finite
  dsimp only
  rw [toBytes_append, hsign]
  exact hunsigned negative

end Floating.Layout

-- A finite number has a text in a document, which is a numeral with its sign.
theorem Binary64.ofLetters?_documentText {x : Binary64} (h : x.isFinite = true) :
    ∃ text n, x.documentText? = some text ∧ ofLetters? (toBytes text) = some n ∧
      n.negative = x.negative := by
  obtain ⟨n, hread, hsign⟩ := Floating.Layout.ofLetters?_finite .binary64 x.negative x.magnitude
  exact ⟨_, n, if_pos h, hread, hsign⟩

end RelayGateway
