import RelayGateway.Json.Fields
import RelayGateway.Proofs.Json.Assembly

namespace RelayGateway

open RelayGateway.Text (toBytes)

def select {α : Type} (chosen : String → Bool) (name : String) (given fallback : α) : α :=
  if chosen name then given else fallback

namespace Json

-- Whether members are the chosen ones of a list and others whose names the list does not have.
def Carries (all : List (String × Tree)) (chosen : String → Bool) (members : List (Text × Tree)) :
    Prop :=
  ∃ fields extra, members.mapM namedField? = some fields ∧
    fields.Perm (all.filter (chosen ·.1) ++ extra) ∧
    ∀ field ∈ extra, field.1 ∉ all.map Prod.fst

theorem filter_eq_of_nodup {all : List (String × Tree)} {name : String} {item : Tree}
    (hnodup : (all.map Prod.fst).Nodup) (hmem : (name, item) ∈ all) :
    all.filter (·.1 == name) = [(name, item)] := by
  induction all with
  | nil => cases hmem
  | cons field rest ih =>
      obtain ⟨hfresh, hrest⟩ := List.nodup_cons.mp hnodup
      obtain rfl | hmem := List.mem_cons.mp hmem
      · have hnone : rest.filter (·.1 == name) = [] := by
          rw [List.filter_eq_nil_iff]
          intro other hother hsame
          exact hfresh (List.mem_map.mpr ⟨other, hother, eq_of_beq hsame⟩)
        rw [List.filter_cons_of_pos (by simp), hnone]
      · have hne : field.1 ≠ name := by
          rintro rfl
          exact hfresh (List.mem_map.mpr ⟨_, hmem, rfl⟩)
        rw [List.filter_cons_of_neg (by simpa using hne), ih hrest hmem]

-- Among chosen fields and others, a name of the list stands once if it is chosen, and else not at
-- all.
theorem filter_eq_of_perm {all extra fields : List (String × Tree)} {chosen : String → Bool}
    {name : String} {item : Tree} (hperm : fields.Perm (all.filter (chosen ·.1) ++ extra))
    (hextra : ∀ field ∈ extra, field.1 ∉ all.map Prod.fst) (hnodup : (all.map Prod.fst).Nodup)
    (hmem : (name, item) ∈ all) :
    fields.filter (·.1 == name) = if chosen name then [(name, item)] else [] := by
  have hnone : extra.filter (·.1 == name) = [] := by
    rw [List.filter_eq_nil_iff]
    intro field hfield hsame
    exact hextra field hfield (List.mem_map.mpr ⟨_, hmem, (eq_of_beq hsame).symm⟩)
  have hcomm : (all.filter (chosen ·.1)).filter (·.1 == name) =
      (all.filter (·.1 == name)).filter (chosen ·.1) := by
    simp only [List.filter_filter, Bool.and_comm]
  have hfound := hperm.filter (·.1 == name)
  rw [List.filter_append, hnone, List.append_nil, hcomm, filter_eq_of_nodup hnodup hmem,
    List.filter_cons, List.filter_nil] at hfound
  by_cases hchosen : chosen name
  · rw [if_pos hchosen] at hfound ⊢
    exact List.perm_singleton.mp hfound
  · rw [if_neg hchosen] at hfound ⊢
    exact List.perm_nil.mp hfound

theorem Carries.fields {all : List (String × Tree)} {chosen : String → Bool}
    {members : List (Text × Tree)} (h : Carries all chosen members)
    (hnodup : (all.map Prod.fst).Nodup) (count : Nat) :
    ∃ fields, (Tree.object members).fields? count = some fields ∧
      ∀ {α β : Type} (place : Nat) {name : String} {item : Tree} {decode : Tree → Option α}
        {given fallback : α} {rest : α → Option β},
        all[place]? = some (name, item) → decode item = some given →
          (fields.read place name fallback decode >>= rest) =
            rest (select chosen name given fallback) := by
  obtain ⟨fields, extra, hfields, hperm, hextra⟩ := h
  refine ⟨.named fields, ?_, ?_⟩
  · rw [Tree.fields?, hfields]
    rfl
  · intro α β place name item decode given fallback rest hplace hdecode
    have hfound := filter_eq_of_perm hperm hextra hnodup (List.mem_of_getElem? hplace)
    rw [Fields.read, Fields.get?, select, hfound]
    by_cases hchosen : chosen name
    · rw [if_pos hchosen, if_pos hchosen, Option.bind_eq_bind, Option.bind_eq_bind,
        Option.bind_some]
      dsimp only
      rw [hdecode]
      rfl
    · rw [if_neg hchosen, if_neg hchosen]
      rfl

def givenMember (member : String × String) : String × Tree := (member.1, treeOf member.2)

theorem mapM_namedField? (members : List (String × String)) :
    (spelledMembers members).mapM namedField? = some (members.map givenMember) := by
  induction members with
  | nil => rfl
  | cons member members ih =>
      rw [spelledMembers, List.map_cons, List.mapM_cons, ← spelledMembers, ih]
      simp [namedField?, Text.string?_writtenString, givenMember]

-- An object that is put together from chosen texts of a list and from others, in any order.
theorem carries_of_texts {texts extra given : List (String × String)} {chosen : String → Bool}
    (hgiven : given.Perm (texts.filter (chosen ·.1) ++ extra))
    (hextra : ∀ member ∈ extra, member.1 ∉ texts.map Prod.fst) :
    Carries (texts.map givenMember) chosen (spelledMembers given) := by
  have hnames : (texts.map givenMember).map Prod.fst = texts.map Prod.fst := List.map_map
  refine ⟨given.map givenMember, extra.map givenMember, mapM_namedField? given, ?_, ?_⟩
  · have hperm := hgiven.map givenMember
    rw [List.map_append] at hperm
    rw [List.filter_map]
    exact hperm
  · rw [hnames]
    exact List.forall_mem_map.mpr hextra

theorem isSome_of_perm {texts extra given : List (String × String)} {chosen : String → Bool}
    (hgiven : given.Perm (texts.filter (chosen ·.1) ++ extra))
    (htexts : ∀ member ∈ texts, (Tree.parse? (toBytes member.2)).isSome)
    (hextra : ∀ member ∈ extra, (Tree.parse? (toBytes member.2)).isSome) :
    ∀ member ∈ given, (Tree.parse? (toBytes member.2)).isSome := by
  intro member hmem
  obtain hmem | hmem := List.mem_append.mp (hgiven.mem_iff.mp hmem)
  · exact htexts member (List.mem_filter.mp hmem).1
  · exact hextra member hmem

end Json

end RelayGateway
