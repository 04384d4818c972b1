import RelayGateway.Packed.Varint

namespace RelayGateway.Packed

variable {α β : Type}

-- Whether a reader takes bytes as a whole: it reads the value from them, whatever follows, and no
-- front part of them is enough for it.
structure TakesWhole (read : Reader α) (bytes : List UInt8) (value : α) : Prop where
  reads : ∀ rest, read (bytes ++ rest) = .ok (value, rest)
  cut : ∀ front, front <+: bytes → front ≠ bytes → read front = .error .unexpectedEnd

theorem prefix_append_cases {front bytes more : List UInt8} (h : front <+: bytes ++ more) :
    (front <+: bytes ∧ front ≠ bytes) ∨ ∃ middle, middle <+: more ∧ front = bytes ++ middle := by
  by_cases hsame : front = bytes
  · subst hsame
    exact .inr ⟨[], List.nil_prefix, (List.append_nil front).symm⟩
  · obtain hwithin | hbehind := List.prefix_or_prefix_of_prefix h (List.prefix_append bytes more)
    · exact .inl ⟨hwithin, hsame⟩
    · obtain ⟨middle, rfl⟩ := hbehind
      exact .inr ⟨middle, (List.prefix_append_right_inj bytes).mp h, rfl⟩

namespace TakesWhole

theorem reads_all {read : Reader α} {bytes : List UInt8} {value : α}
    (h : TakesWhole read bytes value) : read bytes = .ok (value, []) := by
  have hall := h.reads []
  rwa [List.append_nil] at hall

theorem pure (value : α) : TakesWhole (Pure.pure value) [] value where
  reads _ := rfl
  cut _ hfront hne := (hne (List.prefix_nil.mp hfront)).elim

theorem readByte (b : UInt8) : TakesWhole readByte [b] b where
  reads _ := rfl
  cut front hfront hne := by
    obtain rfl | ⟨rest, rfl, hrest⟩ := List.prefix_cons_iff.mp hfront
    · rfl
    · exact (hne (congrArg (b :: ·) (List.prefix_nil.mp hrest))).elim

theorem bind {read : Reader α} {next : α → Reader β} {bytes more : List UInt8} {a : α} {b : β}
    (h : TakesWhole read bytes a) (hnext : TakesWhole (next a) more b) :
    TakesWhole (read >>= next) (bytes ++ more) b where
  reads rest := by
    have hfirst := h.reads (more ++ rest)
    have hsecond := hnext.reads rest
    simp only [List.append_assoc, Bind.bind, StateT.bind, Except.bind, hfirst, hsecond]
  cut front hfront hne := by
    simp only [Bind.bind, StateT.bind, Except.bind]
    obtain ⟨hwithin, hshort⟩ | ⟨middle, hmiddle, rfl⟩ := prefix_append_cases hfront
    · rw [h.cut front hwithin hshort]
    · have hshort : middle ≠ more := by
        rintro rfl
        exact hne rfl
      rw [h.reads middle]
      exact hnext.cut middle hmiddle hshort

theorem map {read : Reader α} {bytes : List UInt8} {a : α} (h : TakesWhole read bytes a)
    (f : α → β) : TakesWhole (read >>= fun a => Pure.pure (f a)) bytes (f a) := by
  have hmapped : TakesWhole (read >>= fun a => Pure.pure (f a)) (bytes ++ []) (f a) :=
    h.bind (.pure (f a))
  rwa [List.append_nil] at hmapped

end TakesWhole

variable {read : Reader α} {write : α → List UInt8}

theorem takesWhole_readItems (h : ∀ item, TakesWhole read (write item) item) (items : List α) :
    TakesWhole (readItems read items.length) (items.flatMap write) items := by
  induction items with
  | nil => exact .pure []
  | cons item items ih => exact (h item).bind (ih.map (item :: ·))

end RelayGateway.Packed
