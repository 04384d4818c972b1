import RelayGateway.Compression.Inflate

namespace RelayGateway.Compression

variable {α β γ : Type}

-- Whether what a reader takes is taken just the same by a second reader if whole bytes come behind,
-- and these are left. The second one may be the first one with more fuel.
structure Steady (read longer : Bits → Option (α × Bits)) : Prop where
  reads : ∀ {bits rest : Bits} {a : α}, read bits = some (a, rest) →
    ∀ {behind : Bits}, 8 ∣ behind.length → longer (bits ++ behind) = some (a, rest ++ behind)

namespace Steady

theorem never (longer : Bits → Option (α × Bits)) : Steady (fun _ => none) longer where
  reads h := nomatch h

theorem done (a : α) : Steady (fun bits => some (a, bits)) (fun bits => some (a, bits)) where
  reads h _ _ := by
    cases h
    rfl

theorem bind {read longer : Bits → Option (α × Bits)} {next further : α × Bits → Option (β × Bits)}
    (h : Steady read longer)
    (hnext : ∀ a, Steady (fun bits => next (a, bits)) (fun bits => further (a, bits))) :
    Steady (fun bits => read bits >>= next) (fun bits => longer bits >>= further) where
  reads hread _ hbehind := by
    obtain ⟨⟨a, middle⟩, hfirst, hsecond⟩ := Option.bind_eq_some_iff.mp hread
    change Option.bind _ _ = _
    rw [h.reads hfirst hbehind]
    exact (hnext a).reads hsecond hbehind

theorem given {next further : γ → Bits → Option (α × Bits)} (o : Option γ)
    (h : ∀ c, Steady (next c) (further c)) :
    Steady (fun bits => o >>= fun c => next c bits) (fun bits => o >>= fun c => further c bits) := by
  cases o with
  | none => exact never _
  | some c => exact h c

theorem ite {p : Prop} [Decidable p] {read longer next further : Bits → Option (α × Bits)}
    (h : Steady read longer) (hnext : Steady next further) :
    Steady (fun bits => if p then read bits else next bits)
      (fun bits => if p then longer bits else further bits) := by
  by_cases hp : p
  · simpa only [hp, if_true] using h
  · simpa only [hp, if_false] using hnext

end Steady

theorem steady_takeNumber? (count : Nat) : Steady (takeNumber? count) (takeNumber? count) := by
  induction count with
  | zero => exact .done 0
  | succ count ih =>
      refine ⟨fun {bits} _ _ h _ hbehind => ?_⟩
      cases bits with
      | nil => cases h
      | cons b bits => exact (ih.bind fun high => .done (b.toNat + 2 * high)).reads h hbehind

theorem CodeTree.steady_decode? (t : CodeTree) : Steady t.decode? t.decode? := by
  induction t with
  | empty => exact .never _
  | symbol value => exact .done value
  | node zero one hzero hone =>
      refine ⟨fun {bits} _ _ h _ hbehind => ?_⟩
      cases bits with
      | nil => cases h
      | cons bit bits => exact (Steady.ite hone hzero).reads h hbehind

theorem steady_takeRanged? (ranges : List (Nat × Nat)) (symbol : Nat) :
    Steady (takeRanged? ranges symbol) (takeRanged? ranges symbol) :=
  .given _ fun (least, extra) => (steady_takeNumber? extra).bind fun more => .done (least + more)

namespace Codes

theorem steady_take? (codes : Codes) : Steady codes.take? codes.take? := by
  refine codes.literals.steady_decode?.bind fun symbol => ?_
  refine .ite (.done _) (.ite (.done _) ?_)
  refine (steady_takeRanged? lengthRanges (symbol - 257)).bind fun length => ?_
  refine codes.distances.steady_decode?.bind fun distance => ?_
  exact (steady_takeRanged? distanceRanges distance).bind fun distance => .done _

-- The fuel is the number of bits, so it grows with what comes behind.
theorem steady_inflate? (codes : Codes) {fuel more : Nat} (h : fuel ≤ more) (out : Array UInt8) :
    Steady (codes.inflate? fuel out) (codes.inflate? more out) := by
  induction fuel generalizing more out with
  | zero => exact .never _
  | succ fuel ih =>
      obtain _ | more := more
      · cases h
      · have hless : fuel ≤ more := Nat.le_of_succ_le_succ h
        refine ⟨fun {bits rest a} hread behind hbehind => ?_⟩
        simp only [inflate?] at hread ⊢
        cases htake : codes.take? bits with
        | none =>
            rw [htake] at hread
            cases hread
        | some taken =>
            obtain ⟨symbol, middle⟩ := taken
            rw [htake] at hread
            rw [codes.steady_take?.reads htake hbehind]
            cases symbol with
            | endOfBlock => exact (Steady.done out).reads hread hbehind
            | literal byte => exact (ih hless (out.push byte)).reads hread hbehind
            | copy length distance =>
                have hcopy := Steady.ite (p := out.size < distance) (.never fun _ => none)
                  (ih hless (copyBack distance length out))
                exact hcopy.reads hread hbehind

theorem steady_inflateAll? (codes : Codes) (out : Array UInt8) :
    Steady (fun bits => codes.inflate? bits.length out bits)
      (fun bits => codes.inflate? bits.length out bits) where
  reads h _ hbehind := by
    refine (codes.steady_inflate? ?_ out).reads h hbehind
    rw [List.length_append]
    exact Nat.le_add_right _ _

end Codes

theorem alignToByte_append (bits : Bits) {behind : Bits} (h : 8 ∣ behind.length) :
    alignToByte (bits ++ behind) = alignToByte bits ++ behind := by
  have hdrop : bits.length % 8 ≤ bits.length := Nat.mod_le _ _
  have hsame : (bits ++ behind).length % 8 = bits.length % 8 := by
    rw [List.length_append]
    omega
  rw [alignToByte, alignToByte, hsame, List.drop_append_of_le_length hdrop]

theorem Steady.align {read longer : Bits → Option (α × Bits)} (h : Steady read longer) :
    Steady (fun bits => read (alignToByte bits)) (fun bits => longer (alignToByte bits)) where
  reads hread _ hbehind := by
    rw [alignToByte_append _ hbehind]
    exact h.reads hread hbehind

theorem steady_takeBytes? (count : Nat) (out : Array UInt8) :
    Steady (takeBytes? count out) (takeBytes? count out) := by
  induction count generalizing out with
  | zero => exact .done out
  | succ count ih =>
      have hstep : takeBytes? (count + 1) out = fun bits => takeNumber? 8 bits >>= fun taken =>
          takeBytes? count (out.push taken.1.toUInt8) taken.2 := by
        funext bits
        rw [takeBytes?]
        cases takeNumber? 8 bits <;> rfl
      rw [hstep]
      exact (steady_takeNumber? 8).bind fun byte => ih (out.push byte.toUInt8)

theorem steady_inflateStored? (out : Array UInt8) :
    Steady (inflateStored? out) (inflateStored? out) := by
  unfold inflateStored?
  refine ((steady_takeNumber? 16).align).bind fun length => ?_
  refine (steady_takeNumber? 16).bind fun complement => ?_
  exact .ite (steady_takeBytes? length out) (.never _)

theorem steady_takeTriples? (count : Nat) : Steady (takeTriples? count) (takeTriples? count) := by
  induction count with
  | zero => exact .done []
  | succ count ih =>
      exact (steady_takeNumber? 3).bind fun first => ih.bind fun rest => .done (first :: rest)

theorem steady_takeLengths? (code : CodeTree) (count fuel : Nat) (found : List Nat) :
    Steady (takeLengths? code count fuel found) (takeLengths? code count fuel found) := by
  induction fuel generalizing found with
  | zero => exact .never _
  | succ fuel ih =>
      refine .ite (.done _) (.ite (.never _) (code.steady_decode?.bind fun symbol => ?_))
      refine .ite (ih _) (.ite ?_ (.ite ?_ ?_))
      all_goals exact .given _ fun (least, extra, repeated) =>
        (steady_takeNumber? extra).bind fun more => ih _

theorem steady_takeCodes? : Steady takeCodes? takeCodes? := by
  unfold takeCodes?
  refine (steady_takeNumber? 5).bind fun literals => ?_
  refine (steady_takeNumber? 5).bind fun distances => ?_
  refine (steady_takeNumber? 4).bind fun metas => .ite (.never _) ?_
  refine (steady_takeTriples? (metas + 4)).bind fun sent => .given _ fun metaCode => ?_
  refine (steady_takeLengths? metaCode _ _ []).bind fun lengths => ?_
  exact .given _ fun literalCode => .given _ fun distanceCode => .done _

theorem steady_inflateBlocks? {fuel more : Nat} (h : fuel ≤ more) (out : Array UInt8) :
    Steady (inflateBlocks? fuel out) (inflateBlocks? more out) := by
  induction fuel generalizing more out with
  | zero => exact .never _
  | succ fuel ih =>
      obtain _ | more := more
      · cases h
      · have hless : fuel ≤ more := Nat.le_of_succ_le_succ h
        refine (steady_takeNumber? 1).bind fun last => (steady_takeNumber? 2).bind fun kind => ?_
        have hnext (out : Array UInt8) := Steady.ite (p := last = 1) (.done out) (ih hless out)
        match kind with
        | 0 => exact (steady_inflateStored? out).bind hnext
        | 1 => exact .given fixedCodes? fun codes => (codes.steady_inflateAll? out).bind hnext
        | 2 => exact steady_takeCodes?.bind fun codes => (codes.steady_inflateAll? out).bind hnext
        | _ + 3 => exact .never _

theorem steady_inflate? : Steady inflate? inflate? where
  reads h _ hbehind :=
    (steady_inflateBlocks? (by rw [List.length_append]; omega) #[]).reads h hbehind

end RelayGateway.Compression
