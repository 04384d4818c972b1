import RelayGateway.Json.Fields
import RelayGateway.Proofs.Json.Tokens

namespace RelayGateway.Json

open RelayGateway.Text (toBytes)

def Number.tree (n : Number) : Tree := n.numeral?.elim .null .number

theorem Number.foldlM_token (n : Number) (context : Context) (mayClose : Bool) :
    [n.token].foldlM Machine.step (.value context mayClose) = some (.after n.tree context) := by
  unfold Number.token Number.tree
  cases n.numeral? with
  | none => rfl
  | some numeral => rfl

mutual

def Value.tree : Value → Tree
  | .null => .null
  | .bool b => .bool b
  | .number n => n.tree
  | .string s => .string (writtenString s)
  | .array items => .array (Value.itemTrees items)
  | .object members => .object (Value.memberTrees members)

def Value.itemTrees : List Value → List Tree
  | [] => []
  | item :: rest => item.tree :: itemTrees rest

def Value.memberTrees : List (String × Value) → List (Text × Tree)
  | [] => []
  | (key, item) :: rest => (writtenString key, item.tree) :: memberTrees rest

end

theorem Value.itemTrees_eq (items : List Value) : Value.itemTrees items = items.map Value.tree := by
  induction items with
  | nil => rfl
  | cons item items ih => rw [Value.itemTrees, ih, List.map_cons]

theorem Value.memberTrees_keys (members : List (String × Value)) :
    (Value.memberTrees members).map Prod.fst = (members.map Prod.fst).map writtenString := by
  induction members with
  | nil => rfl
  | cons member members ih =>
      obtain ⟨key, item⟩ := member
      rw [Value.memberTrees, List.map_cons, ih, List.map_cons, List.map_cons]

mutual

-- Where a value is expected, the tokens of one are taken as its tree.
theorem Value.foldlM_tokens : (v : Value) → ∀ context mayClose,
    v.tokens.foldlM Machine.step (.value context mayClose) = some (.after v.tree context)
  | .null, _, _ => rfl
  | .bool _, _, _ => rfl
  | .number n, context, mayClose => n.foldlM_token context mayClose
  | .string _, _, _ => rfl
  | .array [], _, _ => rfl
  | .array (item :: rest), context, _ =>
    Value.foldlM_itemTokens (item :: rest) (by simp) [] context true
  | .object [], _, _ => rfl
  | .object (member :: rest), context, _ =>
    Value.foldlM_memberTokens (member :: rest) (by simp) [] context true

theorem Value.foldlM_itemTokens : (items : List Value) → items ≠ [] → ∀ before outer mayClose,
    (Value.itemTokens items ++ [Token.closeArray]).foldlM Machine.step
        (.value (.item before outer) mayClose) =
      some (.after (.array (before.reverse ++ Value.itemTrees items)) outer)
  | [item], _, before, outer, mayClose => by
    have hitem := Value.foldlM_tokens item (.item before outer) mayClose
    rw [Value.itemTokens, List.foldlM_append, hitem]
    simp [Machine.step, Value.itemTrees]
  | item :: next :: rest, _, before, outer, mayClose => by
    have hitem := Value.foldlM_tokens item (.item before outer) mayClose
    have hrest := Value.foldlM_itemTokens (next :: rest) (by simp) (item.tree :: before) outer false
    rw [List.reverse_cons, List.append_assoc] at hrest
    rw [Value.itemTokens, List.append_assoc, List.foldlM_append, hitem]
    · exact hrest
    · simp

theorem Value.foldlM_memberTokens : (members : List (String × Value)) → members ≠ [] →
    ∀ before outer mayClose,
    (Value.memberTokens members ++ [Token.closeObject]).foldlM Machine.step
        (.key before outer mayClose) =
      some (.after (.object (before.reverse ++ Value.memberTrees members)) outer)
  | [(key, item)], _, before, outer, mayClose => by
    have hitem := Value.foldlM_tokens item (.member before (writtenString key) outer) false
    change (item.tokens ++ [Token.closeObject]).foldlM Machine.step _ = _
    rw [List.foldlM_append, hitem]
    simp [Machine.step, Value.memberTrees]
  | (key, item) :: next :: rest, _, before, outer, mayClose => by
    have hitem := Value.foldlM_tokens item (.member before (writtenString key) outer) false
    have hrest := Value.foldlM_memberTokens (next :: rest) (by simp)
      ((writtenString key, item.tree) :: before) outer false
    rw [List.reverse_cons, List.append_assoc] at hrest
    change (item.tokens ++ Token.comma :: Value.memberTokens (next :: rest) ++
      [Token.closeObject]).foldlM Machine.step _ = _
    rw [List.append_assoc, List.foldlM_append, hitem]
    exact hrest

end

theorem Value.parse?_write (v : Value) : Tree.parse? (toBytes v.write) = some v.tree := by
  have htokens : tokens? (toBytes v.write) = some v.tokens := v.scans_write.tokens?
  have hmachine : v.tokens.foldlM Machine.step Machine.start = some (.after v.tree .top) :=
    v.foldlM_tokens .top false
  unfold Tree.parse? Tree.ofTokens?
  rw [htokens, Option.bind_eq_bind, Option.bind_some, hmachine]
  rfl

mutual

theorem Value.keep?_tree {depth : Nat} : (v : Value) → v.Plain depth → v.tree.keep? depth = some v
  | .null, _ => rfl
  | .bool _, _ => rfl
  | .number _, ⟨n, hn, rfl⟩ => by
    change (Numeral.number? (.ofNat n)).map Value.number = _
    rw [Numeral.number?_ofNat hn]
    rfl
  | .string s, _ => by
    change (Text.string? (writtenString s)).map Value.string = _
    rw [Text.string?_writtenString]
    rfl
  | .array items, h => by
    obtain ⟨inner, rfl, hitems⟩ := h.items
    change (Tree.keepItems? inner (Value.itemTrees items)).map Value.array = _
    rw [Value.keepItems?_itemTrees items hitems]
    rfl
  | .object members, h => by
    obtain ⟨inner, rfl, hmembers⟩ := h.members
    change (Tree.keepMembers? inner (Value.memberTrees members)).map Value.object = _
    rw [Value.keepMembers?_memberTrees members hmembers]
    rfl

theorem Value.keepItems?_itemTrees {depth : Nat} : (items : List Value) →
    Value.PlainItems depth items → Tree.keepItems? depth (Value.itemTrees items) = some items
  | [], _ => rfl
  | item :: rest, h => by
    rw [Value.itemTrees, Tree.keepItems?, Value.keep?_tree item h.1,
      Value.keepItems?_itemTrees rest h.2]
    rfl

theorem Value.keepMembers?_memberTrees {depth : Nat} : (members : List (String × Value)) →
    Value.PlainMembers depth members →
    Tree.keepMembers? depth (Value.memberTrees members) = some members
  | [], _ => rfl
  | (key, item) :: rest, h => by
    rw [Value.memberTrees, Tree.keepMembers?, Text.string?_writtenString, Value.keep?_tree item h.1,
      Value.keepMembers?_memberTrees rest h.2]
    rfl

end

-- What is read from the text of a value is the value.
theorem Value.read_write {depth : Nat} {v : Value} (h : v.Plain depth) :
    (Tree.parse? (toBytes v.write)).bind (Tree.keep? depth) = some v := by
  rw [Value.parse?_write]
  exact Value.keep?_tree v h

theorem Value.mapping?_tree {depth : Nat} {members : List (String × Value)}
    (h : Value.Plain depth (.object members)) :
    (Value.tree (.object members)).mapping? depth = some (Sorted.ofList members) := by
  unfold Tree.mapping?
  rw [Value.keep?_tree _ h]
  rfl

theorem Value.fields?_tree (count : Nat) (members : List (String × Value)) :
    (Value.tree (.object members)).fields? count =
      some (.named (members.map fun (key, item) => (key, item.tree))) := by
  have hmembers : (Value.memberTrees members).mapM namedField? =
      some (members.map fun (key, item) => (key, item.tree)) := by
    induction members with
    | nil => rfl
    | cons member members ih =>
        obtain ⟨key, item⟩ := member
        rw [Value.memberTrees, List.mapM_cons, ih]
        simp [namedField?, Text.string?_writtenString]
  change ((Value.memberTrees members).mapM namedField?).map Fields.named = _
  rw [hmembers]
  rfl

end RelayGateway.Json
