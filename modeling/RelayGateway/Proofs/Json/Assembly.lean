import RelayGateway.Proofs.Json.ReadBack

namespace RelayGateway.Json

open RelayGateway.Text (toBytes)

namespace Scanner

def behind (s : Scanner) (found : List Token) : Scanner := { s with found := s.found ++ found }

theorem endWord_behind (s : Scanner) (found : List Token) :
    (s.behind found).endWord = s.endWord.map (·.behind found) := by
  obtain ⟨mode, before⟩ := s
  cases mode with
  | word letters =>
      simp only [endWord, behind]
      cases Token.ofLetters? letters.reverse <;> rfl
  | plain => rfl
  | quoted pieces => rfl
  | escape pieces => rfl
  | hex pieces count value => rfl

theorem step_behind (s : Scanner) (b : UInt8) (found : List Token) :
    (s.behind found).step b = (s.step b).map (·.behind found) := by
  have hended := s.endWord_behind found
  obtain ⟨mode, before⟩ := s
  cases mode with
  | quoted pieces =>
      simp only [step, behind]
      repeat' split
      all_goals rfl
  | escape pieces =>
      simp only [step, behind]
      split
      · rfl
      · cases escaped? b <;> rfl
  | hex pieces count value =>
      simp only [step, behind]
      cases hexValue? b with
      | none => rfl
      | some digit =>
          simp only [Option.map_some]
          split <;> rfl
  | plain =>
      simp only [step, behind] at hended ⊢
      repeat' split
      all_goals rfl
  | word letters =>
      simp only [step, behind] at hended ⊢
      repeat' split
      all_goals first | rfl | (rw [hended]; cases endWord _ <;> rfl)

theorem foldlM_behind (bytes : List UInt8) (s : Scanner) (found : List Token) :
    bytes.foldlM step (s.behind found) = (bytes.foldlM step s).map (·.behind found) := by
  induction bytes generalizing s with
  | nil => rfl
  | cons b bytes ih =>
      rw [List.foldlM_cons, List.foldlM_cons, step_behind]
      cases s.step b with
      | none => rfl
      | some next => exact ih next

end Scanner

theorem Scans.of_tokens? {bytes : List UInt8} {tokens : List Token}
    (h : Json.tokens? bytes = some tokens) : Scans bytes tokens := by
  obtain ⟨s, hs, h⟩ := Option.bind_eq_some_iff.mp h
  obtain ⟨ended, hended, h⟩ := Option.bind_eq_some_iff.mp h
  obtain ⟨mode, before⟩ := ended
  cases mode with
  | plain =>
      obtain rfl : before.reverse = tokens := Option.some.inj h
      intro found
      have hrun := Scanner.foldlM_behind bytes {} found
      rw [hs] at hrun
      refine ⟨s.behind found, hrun, ?_⟩
      rw [Scanner.endWord_behind, hended, List.reverse_reverse]
      rfl
  | word letters => cases h
  | quoted pieces => cases h
  | escape pieces => cases h
  | hex pieces count value => cases h

namespace Context

def within : Context → Context → Context
  | .top, outer => outer
  | .item before inner, outer => .item before (inner.within outer)
  | .member before key inner, outer => .member before key (inner.within outer)

end Context

namespace Machine

def within (m : Machine) (outer : Context) : Machine :=
  match m with
  | .value context mayClose => .value (context.within outer) mayClose
  | .key before context mayClose => .key before (context.within outer) mayClose
  | .colon before name context => .colon before name (context.within outer)
  | .after v context => .after v (context.within outer)

theorem step_within {m m' : Machine} {token : Token} (h : m.step token = some m')
    (outer : Context) : (m.within outer).step token = some (m'.within outer) := by
  cases m with
  | value context mayClose =>
      cases token with
      | closeArray =>
          cases context <;> cases mayClose <;> cases h
          rfl
      | openArray => cases h; rfl
      | openObject => cases h; rfl
      | null => cases h; rfl
      | bool b => cases h; rfl
      | number n => cases h; rfl
      | string s => cases h; rfl
      | closeObject => cases h
      | comma => cases h
      | colon => cases h
  | key before context mayClose =>
      cases token with
      | string s => cases h; rfl
      | closeObject =>
          cases mayClose <;> cases h
          rfl
      | null => cases h
      | bool b => cases h
      | number n => cases h
      | openArray => cases h
      | closeArray => cases h
      | openObject => cases h
      | comma => cases h
      | colon => cases h
  | colon before name context =>
      cases token <;> cases h
      rfl
  | after v context =>
      cases context <;> cases token <;> cases h <;> rfl

theorem foldlM_within {tokens : List Token} {m m' : Machine}
    (h : tokens.foldlM step m = some m') (outer : Context) :
    tokens.foldlM step (m.within outer) = some (m'.within outer) := by
  induction tokens generalizing m with
  | nil =>
      obtain rfl : m = m' := Option.some.inj h
      rfl
  | cons token tokens ih =>
      obtain ⟨next, hnext, hrest⟩ := Option.bind_eq_some_iff.mp h
      rw [List.foldlM_cons, step_within hnext outer]
      exact ih hrest

end Machine

-- Whether bytes are read as a tree wherever a value is expected within an object.
def Spells (bytes : List UInt8) (tree : Tree) : Prop :=
  ∃ tokens, Scans bytes tokens ∧ ∀ context,
    tokens.foldlM Machine.step (.value context false) = some (.after tree context)

theorem Spells.of_parse? {bytes : List UInt8} {tree : Tree} (h : Tree.parse? bytes = some tree) :
    Spells bytes tree := by
  obtain ⟨tokens, htokens, h⟩ := Option.bind_eq_some_iff.mp h
  obtain ⟨m, hm, h⟩ := Option.bind_eq_some_iff.mp h
  refine ⟨tokens, .of_tokens? htokens, ?_⟩
  intro context
  have hwithin := Machine.foldlM_within hm context
  cases m with
  | after v inner =>
      cases inner with
      | top =>
          obtain rfl : v = tree := Option.some.inj h
          exact hwithin
      | item before outer => cases h
      | member before key outer => cases h
  | value inner mayClose => cases h
  | key before inner mayClose => cases h
  | colon before key inner => cases h

def memberTexts : List (String × String) → String
  | [] => ""
  | [(key, text)] => writeString key ++ ":" ++ text
  | (key, text) :: rest => writeString key ++ ":" ++ text ++ "," ++ memberTexts rest

def objectText (members : List (String × String)) : String :=
  "\x7b" ++ memberTexts members ++ "\x7d"

def treeOf (text : String) : Tree := (Tree.parse? (toBytes text)).getD .null

def spelledMembers (members : List (String × String)) : List (Text × Tree) :=
  members.map fun (key, text) => (writtenString key, treeOf text)

theorem Spells.of_isSome {text : String} (h : (Tree.parse? (toBytes text)).isSome) :
    Spells (toBytes text) (treeOf text) := by
  obtain ⟨tree, htree⟩ := Option.isSome_iff_exists.mp h
  rw [treeOf, htree, Option.getD_some]
  exact .of_parse? htree

theorem scans_memberTexts {members : List (String × String)}
    (h : ∀ member ∈ members, (Tree.parse? (toBytes member.2)).isSome) (hne : members ≠ []) :
    ∃ tokens, Scans (toBytes (memberTexts members)) tokens ∧ ∀ before outer mayClose,
      (tokens ++ [Token.closeObject]).foldlM Machine.step (.key before outer mayClose) =
        some (.after (.object (before.reverse ++ spelledMembers members)) outer) := by
  induction members with
  | nil => exact (hne rfl).elim
  | cons member rest ih =>
      obtain ⟨key, text⟩ := member
      obtain ⟨htext, hrest⟩ := List.forall_mem_cons.mp h
      obtain ⟨tokens, hscans, hvalue⟩ := Spells.of_isSome htext
      have hmember := (Scans.string key).punctuate (b := ascii ':') (t := .colon) rfl hscans
      cases rest with
      | nil =>
          refine ⟨.string (writtenString key) :: .colon :: tokens, ?_, ?_⟩
          · simp only [memberTexts, toBytes_append, List.append_assoc]
            exact hmember
          · intro before outer mayClose
            have hrun := hvalue (.member before (writtenString key) outer)
            change (tokens ++ [Token.closeObject]).foldlM Machine.step _ = _
            rw [List.foldlM_append, hrun]
            simp [Machine.step, spelledMembers]
      | cons next rest =>
          obtain ⟨more, hmore, hclosed⟩ := ih hrest (by simp)
          have hall := hmember.punctuate (b := ascii ',') (t := .comma) rfl hmore
          refine ⟨.string (writtenString key) :: .colon :: (tokens ++ .comma :: more), ?_, ?_⟩
          · simp only [memberTexts, toBytes_append, List.append_assoc] at hall ⊢
            exact hall
          · intro before outer mayClose
            have hrun := hvalue (.member before (writtenString key) outer)
            have hnext := hclosed ((writtenString key, treeOf text) :: before) outer false
            rw [List.reverse_cons, List.append_assoc] at hnext
            change (tokens ++ Token.comma :: more ++ [Token.closeObject]).foldlM Machine.step _ = _
            rw [List.append_assoc, List.foldlM_append, hrun]
            exact hnext

-- An object whose members are texts of their own has their trees as its members.
theorem parse?_objectText {members : List (String × String)}
    (h : ∀ member ∈ members, (Tree.parse? (toBytes member.2)).isSome) :
    Tree.parse? (toBytes (objectText members)) =
      some (.object (spelledMembers members)) := by
  obtain ⟨tokens, hscans, hrun⟩ : ∃ tokens, Scans (toBytes (memberTexts members)) tokens ∧
      (tokens ++ [Token.closeObject]).foldlM Machine.step (.key [] .top true) =
        some (.after (.object (spelledMembers members)) .top) := by
    by_cases hempty : members = []
    · subst hempty
      exact ⟨[], .nil, rfl⟩
    · obtain ⟨tokens, hscans, hrun⟩ := scans_memberTexts h hempty
      exact ⟨tokens, hscans, hrun [] .top true⟩
  have hclosed := hscans.punctuate (b := ascii '\x7d') (t := .closeObject) rfl .nil
  have hopened := Scans.nil.punctuate (b := ascii '\x7b') (t := .openObject) rfl hclosed
  have hbytes : toBytes (objectText members) =
      [] ++ ascii '\x7b' :: (toBytes (memberTexts members) ++ ascii '\x7d' :: []) := by
    rw [objectText, toBytes_append, toBytes_append, List.append_assoc]
    rfl
  rw [Tree.parse?, hbytes, hopened.tokens?, Option.bind_eq_bind, Option.bind_some, Tree.ofTokens?]
  change ((tokens ++ [Token.closeObject]).foldlM Machine.step (.key [] .top true)).bind _ = _
  rw [hrun]
  rfl

end RelayGateway.Json
