import Mathlib.Data.List.Basic

namespace RelayGateway

variable {α : Type} {begins ends : List α → α → Prop}

-- Each event is looked at together with what was before it.
def Lasting (begins ends : List α → α → Prop) (history : List α) : Prop :=
  ∃ before event after, history = before ++ event :: after ∧ begins before event ∧
    ∀ between later rest, after = between ++ later :: rest →
      ¬ ends (before ++ event :: between) later

theorem not_lasting_nil : ¬ Lasting begins ends [] := by
  rintro ⟨before, event, after, hhistory, -⟩
  simp at hhistory

theorem Lasting.concat_iff (history : List α) (last : α) :
    Lasting begins ends (history ++ [last]) ↔
      begins history last ∨ (Lasting begins ends history ∧ ¬ ends history last) := by
  constructor
  · rintro ⟨before, event, after, hhistory, hbegins, hafter⟩
    obtain rfl | ⟨front, final, rfl⟩ := after.eq_nil_or_concat
    · obtain ⟨rfl, hlast⟩ := List.append_inj' hhistory rfl
      cases hlast
      exact .inl hbegins
    · rw [List.concat_eq_append, ← List.cons_append, ← List.append_assoc] at hhistory
      obtain ⟨rfl, hlast⟩ := List.append_inj' hhistory rfl
      obtain rfl := List.singleton_inj.mp hlast
      refine .inr ⟨⟨before, event, front, rfl, hbegins, ?_⟩, hafter front last [] (by simp)⟩
      rintro between later rest rfl
      exact hafter between later (rest ++ [last]) (by simp)
  · rintro (hbegins | ⟨⟨before, event, after, rfl, hbegins, hafter⟩, hlast⟩)
    · exact ⟨history, last, [], rfl, hbegins, by simp⟩
    · refine ⟨before, event, after ++ [last], by simp, hbegins, ?_⟩
      intro between later rest hsplit
      obtain rfl | ⟨front, final, rfl⟩ := rest.eq_nil_or_concat
      · obtain ⟨rfl, hlater⟩ := List.append_inj' hsplit rfl
        cases hlater
        exact hlast
      · rw [List.concat_eq_append, ← List.cons_append, ← List.append_assoc] at hsplit
        obtain ⟨rfl, -⟩ := List.append_inj' hsplit rfl
        exact hafter between later front rfl

end RelayGateway
