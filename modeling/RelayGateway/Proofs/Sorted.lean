import RelayGateway.Json.Value
import Mathlib.Data.List.Induction

namespace RelayGateway.Sorted

variable {κ ν : Type} [LT κ] [DecidableLT κ] [DecidableEq κ]

def Ascending (entries : List (κ × ν)) : Prop := entries.Pairwise fun a b => a.1 < b.1

theorem eq_or_mem_of_mem_insert {key : κ} {value : ν} {entries : List (κ × ν)} {entry : κ × ν}
    (h : entry ∈ insert key value entries) : entry = (key, value) ∨ entry ∈ entries := by
  induction entries with
  | nil => exact .inl (List.mem_singleton.mp h)
  | cons head rest ih =>
      unfold insert at h
      split at h
      · obtain h | h := List.mem_cons.mp h
        · exact .inl h
        · exact .inr (List.mem_cons_of_mem head h)
      · split at h
        · exact List.mem_cons.mp h
        · obtain h | h := List.mem_cons.mp h
          · exact .inr (List.mem_cons.mpr (.inl h))
          · exact (ih h).imp_right (List.mem_cons_of_mem head)

theorem mem_of_mem_ofList {entries : List (κ × ν)} {entry : κ × ν} (h : entry ∈ ofList entries) :
    entry ∈ entries := by
  induction entries using List.reverseRecOn with
  | nil => exact h
  | append_singleton front last ih =>
      simp only [ofList, List.foldl_append, List.foldl_cons, List.foldl_nil] at h
      obtain rfl | h := eq_or_mem_of_mem_insert h
      · exact List.mem_append_right front (List.mem_singleton_self _)
      · exact List.mem_append_left _ (ih h)

omit [DecidableLT κ] [DecidableEq κ] in
theorem Ascending.lookup_eq [BEq κ] [LawfulBEq κ] [Std.Irrefl fun a b : κ => a < b]
    {entries : List (κ × ν)} (h : Ascending entries) {entry : κ × ν} (hmem : entry ∈ entries) :
    entries.lookup entry.1 = some entry.2 := by
  induction entries with
  | nil => cases hmem
  | cons head rest ih =>
      obtain ⟨hhead, hrest⟩ := List.pairwise_cons.mp h
      rw [show head :: rest = (head.1, head.2) :: rest from rfl, List.lookup_cons]
      obtain rfl | hentry := List.mem_cons.mp hmem
      · rw [BEq.rfl]
      · have hne : entry.1 ≠ head.1 := by
          intro heq
          have hlt := hhead entry hentry
          rw [heq] at hlt
          exact Std.Irrefl.irrefl _ hlt
        rw [beq_false_of_ne hne]
        exact ih hrest hentry

omit [LT κ] [DecidableLT κ] in
theorem lookup_cons (key : κ) (value : ν) (rest : List (κ × ν)) (other : κ) :
    ((key, value) :: rest).lookup other = if other = key then some value else rest.lookup other := by
  rw [List.lookup_cons]
  by_cases h : other = key
  · rw [if_pos h, h, BEq.rfl]
  · rw [if_neg h, beq_false_of_ne h]

theorem lookup_insert (key : κ) (value : ν) (entries : List (κ × ν)) (other : κ) :
    (insert key value entries).lookup other =
      if other = key then some value else entries.lookup other := by
  induction entries with
  | nil => exact lookup_cons key value [] other
  | cons head rest ih =>
      obtain ⟨k, v⟩ := head
      unfold insert
      split
      · rename_i hsame
        subst hsame
        simp only [lookup_cons]
        split <;> rfl
      · rename_i hne
        split
        · exact lookup_cons key value _ other
        · rw [lookup_cons, lookup_cons, ih]
          by_cases h : other = k
          · have hother : other ≠ key := fun hkey => hne (hkey.symm.trans h)
            rw [if_pos h, if_neg hother, if_pos h]
          · rw [if_neg h, if_neg h]

omit [DecidableLT κ] in
theorem lookup_eq_none_of_lt [Std.Irrefl fun a b : κ => a < b] {key : κ} {rest : List (κ × ν)}
    (h : ∀ entry ∈ rest, key < entry.1) : rest.lookup key = none := by
  apply List.lookup_eq_none_iff.mpr
  intro entry hentry
  apply bne_iff_ne.mpr
  intro hsame
  have hlt := h entry hentry
  rw [← hsame] at hlt
  exact Std.Irrefl.irrefl _ hlt

omit [DecidableLT κ] in
theorem Ascending.lookup_filter [Std.Irrefl fun a b : κ => a < b] {entries : List (κ × ν)}
    (h : Ascending entries) (p : κ × ν → Bool) (key : κ) :
    (entries.filter p).lookup key = (entries.lookup key).filter fun value => p (key, value) := by
  induction entries with
  | nil => rfl
  | cons head rest ih =>
      obtain ⟨k, v⟩ := head
      obtain ⟨hhead, hrest⟩ := List.pairwise_cons.mp h
      have hnone : rest.lookup k = none := lookup_eq_none_of_lt hhead
      rw [lookup_cons]
      by_cases hp : p (k, v) = true
      · rw [List.filter_cons_of_pos hp, lookup_cons, ih hrest]
        by_cases hkey : key = k
        · rw [if_pos hkey, if_pos hkey, hkey]
          exact (if_pos hp).symm
        · rw [if_neg hkey, if_neg hkey]
      · rw [List.filter_cons_of_neg hp, ih hrest]
        by_cases hkey : key = k
        · rw [if_pos hkey, hkey, hnone]
          exact (if_neg hp).symm
        · rw [if_neg hkey]

-- What is inserted takes the place of what there was.
theorem Ascending.lookup_foldl_insert [Std.Irrefl fun a b : κ => a < b] {entries : List (κ × ν)}
    (h : Ascending entries) (start : List (κ × ν)) (key : κ) :
    (entries.foldl (fun sorted (key, value) => insert key value sorted) start).lookup key =
      (entries.lookup key).or (start.lookup key) := by
  induction entries generalizing start with
  | nil => rfl
  | cons head rest ih =>
      obtain ⟨k, v⟩ := head
      obtain ⟨hhead, hrest⟩ := List.pairwise_cons.mp h
      have hnone : rest.lookup k = none := lookup_eq_none_of_lt hhead
      rw [List.foldl_cons, ih hrest, lookup_insert, lookup_cons]
      by_cases hkey : key = k
      · rw [if_pos hkey, if_pos hkey, hkey, hnone]
        rfl
      · rw [if_neg hkey, if_neg hkey]

theorem lookup_ofList (entries : List (κ × ν)) (key : κ) :
    (ofList entries).lookup key = entries.reverse.lookup key := by
  induction entries using List.reverseRecOn with
  | nil => rfl
  | append_singleton front last ih =>
      simp only [ofList, List.foldl_append, List.foldl_cons, List.foldl_nil]
      rw [List.reverse_append, List.reverse_singleton, List.singleton_append, lookup_insert,
        ← ofList, ih]
      exact (lookup_cons last.1 last.2 front.reverse key).symm

theorem lookup_ofList_eq_some_iff {entries : List (κ × ν)} {key : κ} {value : ν} :
    (ofList entries).lookup key = some value ↔
      ∃ front back, entries = front ++ (key, value) :: back ∧ ∀ entry ∈ back, entry.1 ≠ key := by
  rw [lookup_ofList, List.lookup_eq_some_iff]
  constructor
  · rintro ⟨back, front, hsplit, hback⟩
    refine ⟨front.reverse, back.reverse, ?_, ?_⟩
    · rw [List.reverse_eq_iff.mp hsplit]
      simp
    · intro entry hentry hsame
      have hne := hback entry (List.mem_reverse.mp hentry)
      rw [hsame, bne_self_eq_false] at hne
      cases hne
  · rintro ⟨front, back, rfl, hback⟩
    refine ⟨back.reverse, front.reverse, by simp, ?_⟩
    intro entry hentry
    exact bne_iff_ne.mpr (Ne.symm (hback entry (List.mem_reverse.mp hentry)))

theorem insert_perm {key : κ} {entries : List (κ × ν)} (h : key ∉ entries.map Prod.fst) (value : ν) :
    (insert key value entries).Perm ((key, value) :: entries) := by
  induction entries with
  | nil => exact .refl _
  | cons head rest ih =>
      obtain ⟨hne, hrest⟩ := List.ne_and_not_mem_of_not_mem_cons h
      unfold insert
      rw [if_neg hne]
      split
      · exact .refl _
      · exact ((ih hrest).cons head).trans (.swap (key, value) head rest)

theorem ofList_perm {entries : List (κ × ν)} (h : (entries.map Prod.fst).Nodup) :
    (ofList entries).Perm entries := by
  induction entries using List.reverseRecOn with
  | nil => exact .refl _
  | append_singleton front last ih =>
      rw [List.map_append, List.nodup_append] at h
      obtain ⟨hfront, -, hdisjoint⟩ := h
      have hperm := ih hfront
      have hnew : last.1 ∉ (ofList front).map Prod.fst := by
        intro hmem
        exact hdisjoint _ ((hperm.map Prod.fst).mem_iff.mp hmem) _ (List.mem_singleton_self _) rfl
      simp only [ofList, List.foldl_append, List.foldl_cons, List.foldl_nil]
      exact (insert_perm hnew last.2).trans ((hperm.cons last).trans (List.perm_append_singleton _ _).symm)

omit [DecidableLT κ] [DecidableEq κ] in
theorem Ascending.keys_nodup [Std.Irrefl fun a b : κ => a < b] {entries : List (κ × ν)}
    (h : Ascending entries) : (entries.map Prod.fst).Nodup := by
  refine List.pairwise_map.mpr (h.imp fun {a b} hlt heq => ?_)
  rw [heq] at hlt
  exact Std.Irrefl.irrefl _ hlt

omit [DecidableLT κ] in
-- What is found in a list whose keys ascend tells the list.
theorem Ascending.ext [Std.Asymm fun a b : κ => a < b] {first second : List (κ × ν)}
    (hfirst : Ascending first) (hsecond : Ascending second)
    (h : ∀ key, first.lookup key = second.lookup key) : first = second := by
  have hmem {entries : List (κ × ν)} (hentries : Ascending entries) (entry : κ × ν) :
      entry ∈ entries ↔ entries.lookup entry.1 = some entry.2 := by
    refine ⟨hentries.lookup_eq, fun hfound => ?_⟩
    obtain ⟨front, back, rfl, -⟩ := List.lookup_eq_some_iff.mp hfound
    exact List.mem_append_right front List.mem_cons_self
  have hnodup {entries : List (κ × ν)} (hentries : Ascending entries) : entries.Nodup :=
    List.Pairwise.of_map Prod.fst (fun _ _ hne heq => hne (congrArg Prod.fst heq)) hentries.keys_nodup
  refine List.Perm.eq_of_pairwise ?_ hfirst hsecond ?_
  · intro a b _ _ hlt hgt
    exact absurd hgt (Std.Asymm.asymm _ _ hlt)
  · refine (List.perm_ext_iff_of_nodup (hnodup hfirst) (hnodup hsecond)).mpr fun entry => ?_
    rw [hmem hfirst, hmem hsecond, h]

theorem insert_of_forall_lt [Std.Asymm fun a b : κ => a < b] {key : κ} {entries : List (κ × ν)}
    (h : ∀ entry ∈ entries, entry.1 < key) (value : ν) :
    insert key value entries = entries ++ [(key, value)] := by
  induction entries with
  | nil => rfl
  | cons head rest ih =>
      obtain ⟨hhead, hrest⟩ := List.forall_mem_cons.mp h
      have hnlt : ¬ key < head.1 := Std.Asymm.asymm _ _ hhead
      have hne : key ≠ head.1 := by
        intro heq
        rw [heq] at hhead hnlt
        exact hnlt hhead
      unfold insert
      rw [if_neg hne, if_neg hnlt, ih hrest]
      rfl

theorem ofList_of_ascending [Std.Asymm fun a b : κ => a < b] {entries : List (κ × ν)}
    (h : Ascending entries) : ofList entries = entries := by
  induction entries using List.reverseRecOn with
  | nil => rfl
  | append_singleton front last ih =>
      obtain ⟨hfront, -, hlast⟩ := List.pairwise_append.mp h
      simp only [ofList, List.foldl_append, List.foldl_cons, List.foldl_nil]
      rw [← ofList, ih hfront, insert_of_forall_lt]
      exact fun entry hentry => hlast entry hentry last (List.mem_singleton_self _)

section Order

variable [Trans (fun a b : κ => a < b) (fun a b : κ => a < b) fun a b : κ => a < b]
  [Std.Trichotomous fun a b : κ => a < b]

theorem Ascending.insert {entries : List (κ × ν)} (h : Ascending entries) (key : κ) (value : ν) :
    Ascending (insert key value entries) := by
  induction entries with
  | nil => exact List.pairwise_singleton _ _
  | cons head rest ih =>
      obtain ⟨hhead, hrest⟩ := List.pairwise_cons.mp h
      unfold Sorted.insert
      split
      · rename_i heq
        subst heq
        exact List.pairwise_cons.mpr ⟨hhead, hrest⟩
      · rename_i hne
        split
        · rename_i hlt
          refine List.pairwise_cons.mpr ⟨?_, h⟩
          intro entry hentry
          obtain rfl | hentry := List.mem_cons.mp hentry
          · exact hlt
          · exact Std.lt_trans hlt (hhead entry hentry)
        · rename_i hnlt
          have hlt : head.1 < key :=
            ((Std.lt_trichotomy key head.1).resolve_left hnlt).resolve_left hne
          refine List.pairwise_cons.mpr ⟨?_, ih hrest⟩
          intro entry hentry
          obtain rfl | hentry := eq_or_mem_of_mem_insert hentry
          · exact hlt
          · exact hhead entry hentry

theorem ascending_ofList (entries : List (κ × ν)) : Ascending (ofList entries) := by
  induction entries using List.reverseRecOn with
  | nil => exact List.Pairwise.nil
  | append_singleton front last ih =>
      simp only [ofList, List.foldl_append, List.foldl_cons, List.foldl_nil]
      exact ih.insert last.1 last.2

theorem Ascending.ofList_eq [Std.Asymm fun a b : κ => a < b] {entries sorted : List (κ × ν)}
    (h : Ascending sorted) (hperm : entries.Perm sorted) : ofList entries = sorted := by
  have hnodup : (entries.map Prod.fst).Nodup := (hperm.map Prod.fst).nodup_iff.mpr h.keys_nodup
  refine List.Perm.eq_of_pairwise ?_ (ascending_ofList entries) h ((ofList_perm hnodup).trans hperm)
  intro a b _ _ hlt hgt
  exact absurd hgt (Std.Asymm.asymm _ _ hlt)

end Order

end RelayGateway.Sorted
