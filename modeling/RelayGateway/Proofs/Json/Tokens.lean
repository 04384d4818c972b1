import RelayGateway.Json.Writer
import RelayGateway.Proofs.Json.Decimals

namespace RelayGateway.Json

open RelayGateway.Text (toBytes)

theorem toBytes_singleton (c : Char) : toBytes (String.singleton c) = String.utf8EncodeChar c := by
  rw [String.singleton_eq_ofList, toBytes_ofList]
  exact List.append_nil _

theorem toBytes_join (ss : List String) : toBytes (String.join ss) = ss.flatMap toBytes := by
  induction ss with
  | nil => rfl
  | cons s ss ih => rw [String.join_cons, toBytes_append, ih, List.flatMap_cons]

def writtenChar (c : Char) : Text :=
  if c.toNat < 0x20 ∧ c ∉ ['\x08', '\t', '\n', '\x0c', '\r'] then [.unit c.toNat.toUInt16]
  else (String.utf8EncodeChar c).map .byte

def writtenString (s : String) : Text := s.toList.flatMap writtenChar

namespace Text

theorem bytes?_bytes (bytes : List UInt8) (rest : Text) :
    bytes? (bytes.map .byte ++ rest) = (bytes? rest).map (bytes ++ ·) := by
  induction bytes with
  | nil => simp
  | cons b bytes ih =>
      rw [List.map_cons, List.cons_append, bytes?, ih, Option.map_map]
      rfl

theorem bytes?_control {n : Nat} (h : n < 0x20) (rest : Text) :
    bytes? (.unit n.toUInt16 :: rest) =
      (bytes? rest).map (String.utf8EncodeChar (Char.ofNat n) ++ ·) := by
  have hvalue : n.toUInt16.toNat = n := Nat.mod_eq_of_lt (by omega)
  have hhigh : isHighHalf n.toUInt16 = false := by
    simp [isHighHalf, UInt16.le_iff_toNat_le, hvalue]
    omega
  have hlow : isLowHalf n.toUInt16 = false := by
    simp [isLowHalf, UInt16.le_iff_toNat_le, hvalue]
    omega
  cases rest with
  | nil => simp [bytes?, hhigh, hlow, encodePoint, hvalue]
  | cons piece rest =>
      cases piece <;> simp [bytes?, hhigh, hlow, encodePoint, hvalue]

theorem bytes?_writtenChar (c : Char) (rest : Text) :
    bytes? (writtenChar c ++ rest) = (bytes? rest).map (String.utf8EncodeChar c ++ ·) := by
  unfold writtenChar
  split
  · rename_i h
    rw [List.singleton_append, bytes?_control h.1, Char.ofNat_toNat]
  · exact bytes?_bytes _ rest

theorem bytes?_writtenString (s : String) : bytes? (writtenString s) = some (toBytes s) := by
  have hchars (cs : List Char) :
      bytes? (cs.flatMap writtenChar) = some (cs.flatMap String.utf8EncodeChar) := by
    induction cs with
    | nil => rfl
    | cons c cs ih => rw [List.flatMap_cons, bytes?_writtenChar, ih, List.flatMap_cons]; rfl
  have hbytes : toBytes s = s.toList.flatMap String.utf8EncodeChar := by
    rw [← toBytes_ofList, String.ofList_toList]
  rw [hbytes]
  exact hchars s.toList

theorem string?_writtenString (s : String) : string? (writtenString s) = some s := by
  unfold string?
  rw [bytes?_writtenString]
  exact ofBytes?_toBytes s

theorem writtenString_injective : Function.Injective writtenString := by
  intro s t hsame
  have hread := congrArg string? hsame
  rw [string?_writtenString, string?_writtenString] at hread
  exact Option.some.inj hread

end Text

namespace Scanner

-- A byte of a string that stands for itself.
def Ordinary (b : UInt8) : Prop := b ≠ ascii '"' ∧ b ≠ ascii '\\' ∧ ¬ b < 0x20

theorem foldlM_step_ordinary {bytes : List UInt8} (h : ∀ b ∈ bytes, Ordinary b) (pieces : Text)
    (found : List Token) :
    bytes.foldlM step ⟨.quoted pieces, found⟩ =
      some ⟨.quoted ((bytes.map .byte).reverse ++ pieces), found⟩ := by
  induction bytes generalizing pieces with
  | nil => rfl
  | cons b bytes ih =>
      obtain ⟨⟨hquote, hescape, hcontrol⟩, hrest⟩ := List.forall_mem_cons.mp h
      have hstep : step ⟨.quoted pieces, found⟩ b = some ⟨.quoted (.byte b :: pieces), found⟩ := by
        simp only [step, hquote, hescape, hcontrol, if_false]
      rw [List.foldlM_cons, hstep, Option.bind_eq_bind, Option.bind_some, ih hrest]
      simp

theorem ordinary_ofNat {n : Nat} (hlow : 0x20 ≤ n) (hhigh : n < 0x100) (hquote : n ≠ 0x22)
    (hescape : n ≠ 0x5c) : Ordinary (UInt8.ofNat n) := by
  have hvalue : (UInt8.ofNat n).toNat = n := Nat.mod_eq_of_lt hhigh
  refine ⟨fun hsame => hquote ?_, fun hsame => hescape ?_, ?_⟩
  · exact hvalue.symm.trans (congrArg UInt8.toNat hsame)
  · exact hvalue.symm.trans (congrArg UInt8.toNat hsame)
  · rw [UInt8.lt_iff_toNat_lt, hvalue]
    exact Nat.not_lt.mpr hlow

theorem ordinary_utf8 {c : Char} (hquote : c ≠ '"') (hescape : c ≠ '\\')
    (hcontrol : ¬ c.toNat < 0x20) : ∀ b ∈ String.utf8EncodeChar c, Ordinary b := by
  have hlater {n : Nat} (hlow : 0x80 ≤ n) (hhigh : n < 0x100) : Ordinary (UInt8.ofNat n) :=
    ordinary_ofNat (by omega) hhigh (by omega) (by omega)
  unfold String.utf8EncodeChar
  dsimp only
  split
  · rename_i hascii
    have hne {d : Char} (h : c ≠ d) : c.val.toNat ≠ d.toNat := fun hsame =>
      h (Char.toNat_inj.mp hsame)
    rw [List.forall_mem_singleton]
    exact ordinary_ofNat (Nat.not_lt.mp hcontrol) (Nat.lt_of_le_of_lt hascii (by decide))
      (hne hquote) (hne hescape)
  · split
    · simp only [List.forall_mem_cons]
      exact ⟨hlater (by omega) (by omega), hlater (by omega) (by omega), by simp⟩
    · split
      · simp only [List.forall_mem_cons]
        exact ⟨hlater (by omega) (by omega), hlater (by omega) (by omega),
          hlater (by omega) (by omega), by simp⟩
      · simp only [List.forall_mem_cons]
        exact ⟨hlater (by omega) (by omega), hlater (by omega) (by omega),
          hlater (by omega) (by omega), hlater (by omega) (by omega), by simp⟩

def hexByte (value : Nat) : UInt8 := .ofNat (if value < 10 then 48 + value else 87 + value)

theorem hexValue?_hexByte : ∀ value < 16, hexValue? (hexByte value) = some value := by decide

theorem toBytes_controlEscape : ∀ n < 32, toBytes (controlEscape (Char.ofNat n)) =
    [ascii '\\', ascii 'u', ascii '0', ascii '0', hexByte (n / 16), hexByte (n % 16)] := by
  decide

theorem step_hex {b : UInt8} {digit : Nat} (h : hexValue? b = some digit) (pieces : Text)
    (count value : Nat) (found : List Token) :
    step ⟨.hex pieces count value, found⟩ b =
      if count = 3 then some ⟨.quoted (.unit (16 * value + digit).toUInt16 :: pieces), found⟩
      else some ⟨.hex pieces (count + 1) (16 * value + digit), found⟩ := by
  simp only [step, h, Option.map_some]
  split <;> rfl

theorem foldlM_step_control {n : Nat} (h : n < 32) (pieces : Text) (found : List Token) :
    (toBytes (controlEscape (Char.ofNat n))).foldlM step ⟨.quoted pieces, found⟩ =
      some ⟨.quoted (.unit n.toUInt16 :: pieces), found⟩ := by
  have hhigh : hexValue? (hexByte (n / 16)) = some (n / 16) := hexValue?_hexByte _ (by omega)
  have hlow : hexValue? (hexByte (n % 16)) = some (n % 16) := hexValue?_hexByte _ (by omega)
  have hvalue : 16 * (16 * 0 + n / 16) + n % 16 = n := by omega
  have hescape (rest : List UInt8) :
      (ascii '\\' :: ascii 'u' :: ascii '0' :: ascii '0' :: rest).foldlM step ⟨.quoted pieces, found⟩ =
        rest.foldlM step ⟨.hex pieces 2 0, found⟩ := rfl
  rw [toBytes_controlEscape n h, hescape, List.foldlM_cons, step_hex hhigh]
  change [_].foldlM step ⟨.hex pieces 3 (16 * 0 + n / 16), found⟩ = _
  rw [List.foldlM_cons, step_hex hlow, hvalue]
  rfl

theorem foldlM_step_writeChar (c : Char) (pieces : Text) (found : List Token) :
    (toBytes (writeChar c)).foldlM step ⟨.quoted pieces, found⟩ =
      some ⟨.quoted ((writtenChar c).reverse ++ pieces), found⟩ := by
  by_cases hshort : c ∈ ['"', '\\', '\x08', '\t', '\n', '\x0c', '\r']
  · simp only [List.mem_cons, List.not_mem_nil, or_false] at hshort
    rcases hshort with rfl | rfl | rfl | rfl | rfl | rfl | rfl <;> rfl
  · have hplain : c ∉ ['\x08', '\t', '\n', '\x0c', '\r'] := fun hmem =>
      hshort (List.mem_cons_of_mem _ (List.mem_cons_of_mem _ hmem))
    simp only [List.mem_cons, List.not_mem_nil, or_false, not_or] at hshort
    obtain ⟨hquote, hescape, hback, htab, hline, hform, hreturn⟩ := hshort
    unfold writeChar writtenChar
    simp only [hquote, hescape, hback, htab, hline, hform, hreturn, if_false]
    by_cases hcontrol : c.toNat < 0x20
    · rw [if_pos hcontrol, if_pos ⟨hcontrol, hplain⟩]
      have hstep := foldlM_step_control hcontrol pieces found
      rwa [Char.ofNat_toNat] at hstep
    · rw [if_neg hcontrol, if_neg fun h => hcontrol h.1, toBytes_singleton]
      exact foldlM_step_ordinary (ordinary_utf8 hquote hescape hcontrol) pieces found

theorem foldlM_step_writeString (s : String) (found : List Token) :
    (toBytes (writeString s)).foldlM step ⟨.plain, found⟩ =
      some ⟨.plain, .string (writtenString s) :: found⟩ := by
  have hchars (cs : List Char) (pieces : Text) :
      (cs.flatMap fun c => toBytes (writeChar c)).foldlM step ⟨.quoted pieces, found⟩ =
        some ⟨.quoted ((cs.flatMap writtenChar).reverse ++ pieces), found⟩ := by
    induction cs generalizing pieces with
    | nil => rfl
    | cons c cs ih =>
        rw [List.flatMap_cons, List.foldlM_append, foldlM_step_writeChar, Option.bind_eq_bind,
          Option.bind_some, ih, List.flatMap_cons, List.reverse_append, List.append_assoc]
  have hbytes : toBytes (writeString s) = ascii '"' ::
      ((s.toList.flatMap fun c => toBytes (writeChar c)) ++ [ascii '"']) := by
    unfold writeString
    rw [toBytes_append, toBytes_append, toBytes_join, List.flatMap_map]
    rfl
  have hopen : step ⟨.plain, found⟩ (ascii '"') = some ⟨.quoted [], found⟩ := rfl
  rw [hbytes, List.foldlM_cons, hopen, Option.bind_eq_bind, Option.bind_some, List.foldlM_append,
    hchars, List.append_nil, Option.bind_eq_bind, Option.bind_some]
  change some (Scanner.emit _ (.string (List.reverse (List.reverse _)))) = _
  rw [List.reverse_reverse]
  rfl

end Scanner

-- Between tokens, the scanner finds tokens in bytes, the last of which may be a word that only ends
-- with what follows.
def Scans (bytes : List UInt8) (tokens : List Token) : Prop :=
  ∀ found, ∃ s, bytes.foldlM Scanner.step ⟨.plain, found⟩ = some s ∧
    s.endWord = some ⟨.plain, tokens.reverse ++ found⟩

namespace Scans

theorem nil : Scans [] [] := fun found => ⟨⟨.plain, found⟩, rfl, rfl⟩

theorem string (s : String) : Scans (toBytes (writeString s)) [.string (writtenString s)] :=
  fun found => ⟨_, Scanner.foldlM_step_writeString s found, rfl⟩

theorem not_blank_of_punctuation {b : UInt8} {t : Token} (hb : Token.ofPunctuation? b = some t) :
    isBlank b = false ∧ b ≠ ascii '"' := by
  have hsome : b ∈ [ascii '[', ascii ']', ascii '\x7b', ascii '\x7d', ascii ',', ascii ':'] := by
    by_contra hnone
    simp only [List.mem_cons, List.not_mem_nil, or_false, not_or] at hnone
    simp [Token.ofPunctuation?, hnone] at hb
  simp only [List.mem_cons, List.not_mem_nil, or_false] at hsome
  rcases hsome with rfl | rfl | rfl | rfl | rfl | rfl <;> decide

theorem step_punctuation {s : Scanner} {found : List Token} {b : UInt8} {t : Token}
    (hs : s.endWord = some ⟨.plain, found⟩) (hb : Token.ofPunctuation? b = some t) :
    s.step b = some ⟨.plain, t :: found⟩ := by
  obtain ⟨hblank, hquote⟩ := not_blank_of_punctuation hb
  obtain ⟨mode, before⟩ := s
  cases mode with
  | plain => simp [Scanner.step, hblank, hquote, hb, hs, Scanner.emit]
  | word letters => simp [Scanner.step, hblank, hquote, hb, hs, Scanner.emit]
  | quoted pieces => cases hs
  | escape pieces => cases hs
  | hex pieces count value => cases hs

-- Punctuation ends a word, and may stand between any two tokens.
theorem punctuate {front back : List UInt8} {before after : List Token} {b : UInt8} {t : Token}
    (hfront : Scans front before) (hb : Token.ofPunctuation? b = some t) (hback : Scans back after) :
    Scans (front ++ b :: back) (before ++ t :: after) := by
  intro found
  obtain ⟨s, hs, hended⟩ := hfront found
  have hstep := step_punctuation hended hb
  obtain ⟨s', hs', hended'⟩ := hback (t :: (before.reverse ++ found))
  refine ⟨s', ?_, ?_⟩
  · rw [List.foldlM_append, hs, Option.bind_eq_bind, Option.bind_some, List.foldlM_cons, hstep,
      Option.bind_eq_bind, Option.bind_some, hs']
  · rw [hended']
    simp

def Letter (b : UInt8) : Prop :=
  isBlank b = false ∧ b ≠ ascii '"' ∧ Token.ofPunctuation? b = none

instance : DecidablePred Letter := fun b =>
  inferInstanceAs (Decidable (isBlank b = false ∧ b ≠ ascii '"' ∧ Token.ofPunctuation? b = none))

theorem step_letter {b : UInt8} (hb : Letter b) (found : List Token) :
    Scanner.step ⟨.plain, found⟩ b = some ⟨.word [b], found⟩ ∧
      ∀ letters, Scanner.step ⟨.word letters, found⟩ b = some ⟨.word (b :: letters), found⟩ := by
  obtain ⟨hblank, hquote, hnone⟩ := hb
  simp [Scanner.step, hblank, hquote, hnone]

theorem word {b : UInt8} {letters : List UInt8} {t : Token}
    (hletters : ∀ b' ∈ b :: letters, Letter b') (ht : Token.ofLetters? (b :: letters) = some t) :
    Scans (b :: letters) [t] := by
  have hmore (found : List Token) (front : List UInt8) : ∀ rest : List UInt8, (∀ b' ∈ rest, Letter b') →
      rest.foldlM Scanner.step ⟨.word front, found⟩ = some ⟨.word (rest.reverse ++ front), found⟩ := by
    intro rest hrest
    induction rest generalizing front with
    | nil => rfl
    | cons b' rest ih =>
        obtain ⟨hb', hrest⟩ := List.forall_mem_cons.mp hrest
        rw [List.foldlM_cons, (step_letter hb' found).2, Option.bind_eq_bind, Option.bind_some, ih _ hrest,
          List.reverse_cons, List.append_assoc, List.singleton_append]
  intro found
  obtain ⟨hb, hrest⟩ := List.forall_mem_cons.mp hletters
  refine ⟨⟨.word (letters.reverse ++ [b]), found⟩, ?_, ?_⟩
  · rw [List.foldlM_cons, (step_letter hb found).1, Option.bind_eq_bind, Option.bind_some,
      hmore found [b] letters hrest]
  · simp only [Scanner.endWord, List.reverse_append, List.reverse_reverse, List.reverse_singleton,
      List.singleton_append, ht, Option.map_some]
    rfl

theorem letters (text : String) {t : Token} (hletters : ∀ b ∈ toBytes text, Letter b)
    (ht : Token.ofLetters? (toBytes text) = some t) (hne : toBytes text ≠ []) :
    Scans (toBytes text) [t] := by
  obtain ⟨b, rest, hbytes⟩ := List.exists_cons_of_ne_nil hne
  rw [hbytes] at hletters ht ⊢
  exact word hletters ht

theorem letter_of_digit {b : UInt8} (h : isDigit b = true) : Letter b := by
  have hne (other : UInt8) (hother : isDigit other = false) : b ≠ other := by
    rintro rfl
    rw [h] at hother
    cases hother
  refine ⟨?_, hne _ (by decide), ?_⟩
  · simp [isBlank, hne 0x20 (by decide), hne 0x09 (by decide), hne 0x0A (by decide),
      hne 0x0D (by decide)]
  · simp [Token.ofPunctuation?, hne (ascii '[') (by decide), hne (ascii ']') (by decide),
      hne (ascii '\x7b') (by decide), hne (ascii '\x7d') (by decide), hne (ascii ',') (by decide),
      hne (ascii ':') (by decide)]

theorem letter_of_numeric {b : UInt8} (h : Numeral.Numeric b) : Letter b := by
  obtain h | h := h
  · exact letter_of_digit h
  · simp only [List.mem_cons, List.not_mem_nil, or_false] at h
    rcases h with rfl | rfl | rfl | rfl | rfl <;> decide

theorem numeral {text : String} {n : Numeral} (h : Numeral.ofLetters? (toBytes text) = some n) :
    Scans (toBytes text) [.number n] := by
  have hnumeric := Numeral.numeric_of_ofLetters? h
  have hword (word : List UInt8) (hmem : ∃ b ∈ word, ¬ Numeral.Numeric b) : toBytes text ≠ word := by
    rintro rfl
    obtain ⟨b, hb, hnot⟩ := hmem
    exact hnot (hnumeric b hb)
  apply letters text fun b hb => letter_of_numeric (hnumeric b hb)
  · simp only [Token.ofLetters?, hword (Token.letters "null") (by decide),
      hword (Token.letters "true") (by decide), hword (Token.letters "false") (by decide), if_false, h]
    rfl
  · intro hempty
    rw [hempty] at h
    cases h

theorem tokens? {bytes : List UInt8} {tokens : List Token} (h : Scans bytes tokens) :
    tokens? bytes = some tokens := by
  obtain ⟨s, hs, hended⟩ := h []
  unfold Json.tokens? Scanner.finish
  rw [hs, Option.bind_eq_bind, Option.bind_some, hended]
  simp

end Scans

def Number.numeral? : Number → Option Numeral
  | natural n => some (.ofNat n)
  | negative n => some { Numeral.ofNat n.natAbs with negative := decide (n < 0) }
  | binary x => x.documentText?.bind fun text => Numeral.ofLetters? (toBytes text)

def Number.token (n : Number) : Token := n.numeral?.elim .null .number

theorem Number.scans_write : (n : Number) → Scans (toBytes n.write) [n.token]
  | natural n => .numeral (by
      rw [Number.write, toBytes_toString]
      exact Numeral.ofLetters?_toDigits false n)
  | negative n => .numeral (by
      rw [Number.write, Numeral.toBytes_toString_int]
      exact Numeral.ofLetters?_toDigits _ _)
  | binary x => by
      cases hfinite : x.isFinite with
      | true =>
          obtain ⟨text, n, htext, hread, -⟩ := Binary64.ofLetters?_documentText hfinite
          have htoken : (binary x).token = .number n := by
            rw [token, numeral?, htext, Option.bind_some, hread, Option.elim_some]
          rw [htoken, Number.write, htext, Option.getD_some]
          exact .numeral hread
      | false =>
          have hnone : x.documentText? = none := if_neg (by simp [hfinite])
          have htoken : (binary x).token = .null := by
            rw [token, numeral?, hnone, Option.bind_none, Option.elim_none]
          rw [htoken, Number.write, hnone, Option.getD_none]
          exact .letters "null" (by decide +kernel) (by decide) (by decide)

mutual

-- Numbers are natural and fit 64 bits, and at most `depth` containers stand within one another.
def Value.Plain (depth : Nat) : Value → Prop
  | .null => True
  | .bool _ => True
  | .number n => ∃ value < 2 ^ 64, n = .natural value
  | .string _ => True
  | .array items =>
    match depth with
    | 0 => False
    | depth + 1 => Value.PlainItems depth items
  | .object members =>
    match depth with
    | 0 => False
    | depth + 1 => Value.PlainMembers depth members

def Value.PlainItems (depth : Nat) : List Value → Prop
  | [] => True
  | item :: rest => item.Plain depth ∧ PlainItems depth rest

def Value.PlainMembers (depth : Nat) : List (String × Value) → Prop
  | [] => True
  | (_, item) :: rest => item.Plain depth ∧ PlainMembers depth rest

end

theorem Value.plain_object {depth : Nat} {members : List (String × Value)}
    (h : ∀ member ∈ members, member.2.Plain depth) : Value.Plain (depth + 1) (.object members) := by
  have hmembers : Value.PlainMembers depth members := by
    induction members with
    | nil => trivial
    | cons member members ih =>
        obtain ⟨hmember, hrest⟩ := List.forall_mem_cons.mp h
        exact ⟨hmember, ih hrest⟩
  exact hmembers

theorem Value.Plain.items {depth : Nat} {items : List Value} (h : Value.Plain depth (.array items)) :
    ∃ inner, depth = inner + 1 ∧ Value.PlainItems inner items := by
  cases depth with
  | zero => exact h.elim
  | succ inner => exact ⟨inner, rfl, h⟩

theorem Value.Plain.members {depth : Nat} {members : List (String × Value)}
    (h : Value.Plain depth (.object members)) :
    ∃ inner, depth = inner + 1 ∧ Value.PlainMembers inner members := by
  cases depth with
  | zero => exact h.elim
  | succ inner => exact ⟨inner, rfl, h⟩

mutual

def Value.tokens : Value → List Token
  | .null => [.null]
  | .bool b => [.bool b]
  | .number n => [n.token]
  | .string s => [.string (writtenString s)]
  | .array items => .openArray :: (Value.itemTokens items ++ [.closeArray])
  | .object members => .openObject :: (Value.memberTokens members ++ [.closeObject])

def Value.itemTokens : List Value → List Token
  | [] => []
  | [item] => item.tokens
  | item :: rest => item.tokens ++ .comma :: itemTokens rest

def Value.memberTokens : List (String × Value) → List Token
  | [] => []
  | [(key, item)] => .string (writtenString key) :: .colon :: item.tokens
  | (key, item) :: rest =>
    .string (writtenString key) :: .colon :: (item.tokens ++ .comma :: memberTokens rest)

end

mutual

theorem Value.scans_write : (v : Value) → Scans (toBytes v.write) v.tokens
  | .null => .letters "null" (by decide +kernel) (by decide) (by decide)
  | .bool true => .letters "true" (by decide +kernel) (by decide) (by decide)
  | .bool false => .letters "false" (by decide +kernel) (by decide) (by decide)
  | .number n => n.scans_write
  | .string s => .string s
  | .array items => by
    have hclosed := (Value.scans_writeItems items).punctuate (b := ascii ']') (t := .closeArray)
      rfl .nil
    have hopened := Scans.nil.punctuate (b := ascii '[') (t := .openArray) rfl hclosed
    simp only [Value.write, toBytes_append]
    exact hopened
  | .object members => by
    have hclosed := (Value.scans_writeMembers members).punctuate (b := ascii '\x7d')
      (t := .closeObject) rfl .nil
    have hopened := Scans.nil.punctuate (b := ascii '\x7b') (t := .openObject) rfl hclosed
    simp only [Value.write, toBytes_append]
    exact hopened

theorem Value.scans_writeItems : (items : List Value) →
    Scans (toBytes (Value.writeItems items)) (Value.itemTokens items)
  | [] => .nil
  | [item] => item.scans_write
  | item :: next :: rest => by
    have hrest := Value.scans_writeItems (next :: rest)
    have hall := item.scans_write.punctuate (b := ascii ',') (t := .comma) rfl hrest
    simp only [Value.writeItems, toBytes_append, List.append_assoc]
    exact hall

theorem Value.scans_writeMembers : (members : List (String × Value)) →
    Scans (toBytes (Value.writeMembers members)) (Value.memberTokens members)
  | [] => .nil
  | [(key, item)] => by
    have hmember := (Scans.string key).punctuate (b := ascii ':') (t := .colon) rfl item.scans_write
    simp only [Value.writeMembers, toBytes_append, List.append_assoc]
    exact hmember
  | (key, item) :: next :: rest => by
    have hmember := item.scans_write.punctuate (b := ascii ',') (t := .comma) rfl
      (Value.scans_writeMembers (next :: rest))
    have hall := (Scans.string key).punctuate (b := ascii ':') (t := .colon) rfl hmember
    simp only [Value.writeMembers, toBytes_append, List.append_assoc] at hall ⊢
    exact hall

end

end RelayGateway.Json
