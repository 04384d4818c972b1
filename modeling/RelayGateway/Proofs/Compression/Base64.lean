import RelayGateway.Compression.Base64

namespace RelayGateway.Base64

theorem value?_digit {n : Nat} (h : n < 64) : value? (digit n) = some n := by
  have hall : ∀ i : Fin 64, value? (digit i) = some i.val := by decide
  exact hall ⟨n, h⟩

-- The padding is none of the digits, so the last group cannot be taken for a longer or shorter one.
theorem digit_ne_padding {n : Nat} (h : n < 64) : digit n ≠ '=' := by
  have hall : ∀ i : Fin 64, digit i ≠ '=' := by decide
  exact hall ⟨n, h⟩

theorem decode?_whole {a b c d : Char} (rest : List Char) (h : d ≠ '=') :
    decode? (a :: b :: c :: d :: rest) =
      (do
        let group ← group? a b c d
        return group ++ (← decode? rest)) := by
  rw [decode?]
  · exact fun _ hd _ => h hd
  · exact fun hd _ => h hd

theorem decode?_lastTwo {a b c : Char} (h : c ≠ '=') :
    decode? [a, b, c, '='] = lastTwo? a b c := by
  rw [decode?]
  exact h

theorem toUInt8_eq_iff {n : Nat} {b : UInt8} : n.toUInt8 = b ↔ n % 256 = b.toNat := by
  rw [← UInt8.toNat_inj]
  rfl

theorem lastOne?_digits (a : UInt8) :
    let n := a.toNat * 16
    lastOne? (digit (n / 64)) (digit (n % 64)) = some [a] := by
  intro n
  have ha := a.toNat_lt
  have hbyte : ((n / 64 * 64 + n % 64) / 16).toUInt8 = a := by
    rw [toUInt8_eq_iff]
    omega
  rw [lastOne?, value?_digit (by omega), value?_digit (by omega)]
  simp only [Option.bind_eq_bind, Option.bind_some]
  rw [if_pos (by omega), hbyte]

theorem lastTwo?_digits (a b : UInt8) :
    let n := (a.toNat * 256 + b.toNat) * 4
    lastTwo? (digit (n / 4096)) (digit (n / 64 % 64)) (digit (n % 64)) = some [a, b] := by
  intro n
  have ha := a.toNat_lt
  have hb := b.toNat_lt
  have hjoin : (n / 4096 * 64 + n / 64 % 64) * 64 + n % 64 = n := by omega
  rw [lastTwo?, value?_digit (by omega), value?_digit (by omega), value?_digit (by omega)]
  simp only [Option.bind_eq_bind, Option.bind_some, hjoin]
  have hfirst : (n / 1024).toUInt8 = a := toUInt8_eq_iff.mpr (by omega)
  have hsecond : (n / 4 % 256).toUInt8 = b := toUInt8_eq_iff.mpr (by omega)
  rw [if_pos (by omega), hfirst, hsecond]

theorem group?_digits (a b c : UInt8) :
    let n := (a.toNat * 256 + b.toNat) * 256 + c.toNat
    group? (digit (n / 262144)) (digit (n / 4096 % 64)) (digit (n / 64 % 64)) (digit (n % 64)) =
      some [a, b, c] := by
  intro n
  have ha := a.toNat_lt
  have hb := b.toNat_lt
  have hc := c.toNat_lt
  have hjoin : ((n / 262144 * 64 + n / 4096 % 64) * 64 + n / 64 % 64) * 64 + n % 64 = n := by omega
  have hfirst : (n / 65536).toUInt8 = a := toUInt8_eq_iff.mpr (by omega)
  have hsecond : (n / 256 % 256).toUInt8 = b := toUInt8_eq_iff.mpr (by omega)
  have hthird : (n % 256).toUInt8 = c := toUInt8_eq_iff.mpr (by omega)
  rw [group?, value?_digit (by omega), value?_digit (by omega), value?_digit (by omega),
    value?_digit (by omega)]
  simp only [Option.bind_eq_bind, Option.bind_some, hjoin, hfirst, hsecond, hthird]
  rfl

theorem decode?_encode (bytes : List UInt8) : decode? (encode bytes) = some bytes := by
  fun_induction encode bytes with
  | case1 => rfl
  | case2 a n => exact lastOne?_digits a
  | case3 a b n =>
      rw [decode?_lastTwo (digit_ne_padding (by omega))]
      exact lastTwo?_digits a b
  | case4 a b c rest n ih =>
      rw [decode?_whole _ (digit_ne_padding (by omega)), group?_digits, ih]
      rfl

end RelayGateway.Base64
