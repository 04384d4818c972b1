import RelayGateway.Proofs.Json.Members
import RelayGateway.Proofs.Shadow.Entries

namespace RelayGateway

open RelayGateway.Text (toBytes)

namespace Json

def Tree.members? (depth : Nat) (t : Tree) : Option (List (String × Value)) := do
  match ← t.keep? depth with
  | .object members => some members
  | _ => none

theorem Tree.mapping?_eq (depth : Nat) (t : Tree) :
    t.mapping? depth = (t.members? depth).map Sorted.ofList := by
  unfold mapping? members?
  cases t.keep? depth with
  | none => rfl
  | some value => cases value <;> rfl

theorem Fields.read_map {α β : Type} (f : α → β) (fields : Fields) (place : Nat) (name : String)
    (fallback : α) (decode : Tree → Option α) :
    fields.read place name (f fallback) (fun t => (decode t).map f) =
      (fields.read place name fallback decode).map f := by
  unfold Fields.read
  cases fields.get? place name with
  | none => rfl
  | some item => cases item <;> rfl

def readValue? (depth : Nat) (text : String) : Option Value :=
  (Tree.parse? (toBytes text)).bind (Tree.keep? depth)

def readEntries? (depth : Nat) : List (String × String) → Option (List (String × Value))
  | [] => some []
  | (key, text) :: rest => do
    let value ← readValue? depth text
    let values ← readEntries? depth rest
    return (key, value) :: values

theorem readEntries?_cons {depth : Nat} {key text : String} {rest : List (String × String)}
    {given : List (String × Value)} (h : readEntries? depth ((key, text) :: rest) = some given) :
    ∃ value values, (Tree.parse? (toBytes text)).isSome ∧
      (treeOf text).keep? depth = some value ∧ readEntries? depth rest = some values ∧
        given = (key, value) :: values := by
  obtain ⟨value, hvalue, h⟩ := Option.bind_eq_some_iff.mp h
  obtain ⟨values, hvalues, h⟩ := Option.bind_eq_some_iff.mp h
  obtain ⟨tree, htree, hkeep⟩ := Option.bind_eq_some_iff.mp hvalue
  refine ⟨value, values, by simp [htree], ?_, hvalues, (Option.some.inj h).symm⟩
  rw [treeOf, htree]
  exact hkeep

theorem isSome_of_readEntries? {depth : Nat} {texts : List (String × String)}
    {given : List (String × Value)} (h : readEntries? depth texts = some given) :
    ∀ member ∈ texts, (Tree.parse? (toBytes member.2)).isSome := by
  induction texts generalizing given with
  | nil => simp
  | cons member rest ih =>
      obtain ⟨value, values, htext, -, hvalues, -⟩ := readEntries?_cons h
      exact List.forall_mem_cons.mpr ⟨htext, ih hvalues⟩

theorem keepMembers?_spelledMembers {depth : Nat} {texts : List (String × String)}
    {given : List (String × Value)} (h : readEntries? depth texts = some given) :
    Tree.keepMembers? depth (spelledMembers texts) = some given := by
  induction texts generalizing given with
  | nil => exact h
  | cons member rest ih =>
      obtain ⟨key, text⟩ := member
      obtain ⟨value, values, -, hkeep, hvalues, rfl⟩ := readEntries?_cons h
      rw [spelledMembers, List.map_cons, ← spelledMembers, Tree.keepMembers?,
        Text.string?_writtenString, hkeep, ih hvalues]
      rfl

theorem members?_objectText {depth : Nat} {texts : List (String × String)}
    {given : List (String × Value)} (h : readEntries? depth texts = some given) :
    (treeOf (objectText texts)).members? (depth + 1) = some given := by
  have hkeep : (Tree.object (spelledMembers texts)).keep? (depth + 1) = some (.object given) := by
    rw [Tree.keep?, keepMembers?_spelledMembers h]
    rfl
  rw [treeOf, parse?_objectText (isSome_of_readEntries? h), Option.getD_some, Tree.members?, hkeep]
  rfl

def Others (names : List String) (members : List (String × String)) : Prop :=
  ∀ member ∈ members, member.1 ∉ names ∧ (Tree.parse? (toBytes member.2)).isSome

instance (names : List String) : DecidablePred (Others names) := fun members =>
  inferInstanceAs
    (Decidable (∀ member ∈ members, member.1 ∉ names ∧ (Tree.parse? (toBytes member.2)).isSome))

end Json

namespace Shadow

open Json

def readState? {α : Type} (fallback : α) (decode : Tree → Option α) (payload : List UInt8) :
    Option α := do
  let fields ← (← Tree.parse? payload).fields? 1
  fields.read 0 "state" fallback decode

def deltaEntries? : List UInt8 → Option (List (String × Value)) :=
  readState? [] (Tree.members? (maxDepth - 1))

def Partitions.entriesOfTree? (t : Tree) : Option Partitions := do
  let fields ← t.fields? 2
  let partition (place : Nat) (name : String) : Option (Option (List (String × Value))) :=
    fields.read place name none (Tree.optional? (Tree.members? (maxDepth - 2)))
  let desired ← partition 0 "desired"
  let reported ← partition 1 "reported"
  return { desired := desired.getD [], reported := reported.getD [] }

def partitionEntries? : List UInt8 → Option Partitions :=
  readState? {} Partitions.entriesOfTree?

def Partitions.sorted (p : Partitions) : Partitions :=
  ⟨Sorted.ofList p.desired, Sorted.ofList p.reported⟩

theorem readState?_map {α β : Type} (f : α → β) (fallback : α) (decode : Tree → Option α)
    (payload : List UInt8) :
    readState? (f fallback) (fun t => (decode t).map f) payload =
      (readState? fallback decode payload).map f := by
  unfold readState?
  cases Tree.parse? payload with
  | none => rfl
  | some t =>
      simp only [Option.bind_eq_bind, Option.bind_some]
      cases t.fields? 1 with
      | none => rfl
      | some fields => exact Fields.read_map f fields 0 "state" fallback decode

theorem deltaState?_eq (payload : List UInt8) :
    deltaState? payload = (deltaEntries? payload).map Sorted.ofList := by
  rw [deltaEntries?, ← readState?_map, ← funext (Tree.mapping?_eq (maxDepth - 1))]
  rfl

theorem Partitions.ofTree?_eq (t : Tree) : ofTree? t = (entriesOfTree? t).map sorted := by
  have hmapping : Tree.optional? (Tree.mapping? (maxDepth - 2)) =
      fun t => (Tree.optional? (Tree.members? (maxDepth - 2)) t).map (Option.map Sorted.ofList) := by
    funext t
    cases t <;> simp [Tree.optional?, Tree.mapping?_eq, Function.comp_def]
  unfold ofTree? entriesOfTree?
  cases t.fields? 2 with
  | none => rfl
  | some fields =>
      have hread (place : Nat) (name : String) :
          fields.read place name none (Tree.optional? (Tree.mapping? (maxDepth - 2))) =
            (fields.read place name none (Tree.optional? (Tree.members? (maxDepth - 2)))).map
              (Option.map Sorted.ofList) := by
        rw [hmapping]
        exact Fields.read_map (Option.map Sorted.ofList) fields place name none _
      simp only [Option.bind_eq_bind, Option.bind_some, hread]
      cases fields.read 0 "desired" none (Tree.optional? (Tree.members? (maxDepth - 2))) with
      | none => rfl
      | some desired =>
          cases fields.read 1 "reported" none (Tree.optional? (Tree.members? (maxDepth - 2))) with
          | none => rfl
          | some reported => cases desired <;> cases reported <;> rfl

theorem partitions?_eq (payload : List UInt8) :
    partitions? payload = (partitionEntries? payload).map Partitions.sorted := by
  rw [partitionEntries?, ← readState?_map, ← funext Partitions.ofTree?_eq]
  rfl

-- What is put under `state` in a document, in any place among others, is what is read there.
theorem readState?_objectText {α : Type} {fallback given : α} {decode : Tree → Option α}
    {text : String} {outer extra : List (String × String)}
    (htext : (Tree.parse? (toBytes text)).isSome) (hgiven : decode (treeOf text) = some given)
    (houter : outer.Perm (("state", text) :: extra)) (hextra : Others ["state"] extra) :
    readState? fallback decode (toBytes (objectText outer)) = some given := by
  let all : String → Bool := fun _ => true
  have hperm : outer.Perm ([("state", text)].filter (all ·.1) ++ extra) := houter
  have htexts := isSome_of_perm hperm (List.forall_mem_singleton.mpr htext)
    (fun member hmember => (hextra member hmember).2)
  have hcarries := carries_of_texts hperm (fun member hmember => (hextra member hmember).1)
  obtain ⟨fields, hfields, hread⟩ := hcarries.fields (by simp) 1
  have hstate : (fields.read 0 "state" fallback decode >>= pure) = some given :=
    hread 0 rfl hgiven
  rw [readState?, parse?_objectText htexts, Option.bind_eq_bind, Option.bind_some, hfields,
    Option.bind_eq_bind, Option.bind_some]
  rwa [bind_pure] at hstate

theorem isSome_objectText {texts : List (String × String)}
    (h : ∀ member ∈ texts, (Tree.parse? (toBytes member.2)).isSome) :
    (Tree.parse? (toBytes (objectText texts))).isSome := by
  rw [parse?_objectText h]
  rfl

theorem deltaEntries?_objectText {texts outer extra : List (String × String)}
    {given : List (String × Value)} (h : readEntries? (maxDepth - 2) texts = some given)
    (houter : outer.Perm (("state", objectText texts) :: extra)) (hextra : Others ["state"] extra) :
    deltaEntries? (toBytes (objectText outer)) = some given :=
  readState?_objectText (isSome_objectText (isSome_of_readEntries? h)) (members?_objectText h)
    houter hextra

def partitionTexts (desired reported : List (String × String)) : List (String × String) :=
  [("desired", objectText desired), ("reported", objectText reported)]

theorem entriesOfTree?_objectText {desired reported inner extra : List (String × String)}
    {chosen : String → Bool} {given : Partitions}
    (hdesired : readEntries? (maxDepth - 3) desired = some given.desired)
    (hreported : readEntries? (maxDepth - 3) reported = some given.reported)
    (hinner : inner.Perm ((partitionTexts desired reported).filter (chosen ·.1) ++ extra))
    (hextra : Others ["desired", "reported"] extra) :
    (Tree.parse? (toBytes (objectText inner))).isSome ∧
      Partitions.entriesOfTree? (treeOf (objectText inner)) =
        some ⟨select chosen "desired" given.desired [], select chosen "reported" given.reported []⟩ := by
  have htexts : ∀ member ∈ partitionTexts desired reported,
      (Tree.parse? (toBytes member.2)).isSome :=
    List.forall_mem_cons.mpr ⟨isSome_objectText (isSome_of_readEntries? hdesired),
      List.forall_mem_singleton.mpr (isSome_objectText (isSome_of_readEntries? hreported))⟩
  have hparse := isSome_of_perm hinner htexts (fun member hmember => (hextra member hmember).2)
  have hcarries := carries_of_texts hinner (fun member hmember => (hextra member hmember).1)
  obtain ⟨fields, hfields, hread⟩ := hcarries.fields (by simp [partitionTexts, givenMember]) 2
  have hmembers {texts : List (String × String)} {entries : List (String × Value)}
      (h : readEntries? (maxDepth - 3) texts = some entries) :
      Tree.optional? (Tree.members? (maxDepth - 2)) (treeOf (objectText texts)) =
        some (some entries) := by
    have hkept := members?_objectText h
    rw [treeOf, parse?_objectText (isSome_of_readEntries? h)] at hkept ⊢
    exact congrArg (Option.map some) hkept
  refine ⟨isSome_objectText hparse, ?_⟩
  rw [treeOf, parse?_objectText hparse, Option.getD_some, Partitions.entriesOfTree?, hfields]
  refine (hread 0 rfl (hmembers hdesired)).trans ?_
  refine (hread 1 rfl (hmembers hreported)).trans ?_
  unfold select
  split <;> split <;> rfl

theorem partitionEntries?_objectText {desired reported inner innerExtra outer extra :
    List (String × String)} {chosen : String → Bool} {given : Partitions}
    (hdesired : readEntries? (maxDepth - 3) desired = some given.desired)
    (hreported : readEntries? (maxDepth - 3) reported = some given.reported)
    (hinner : inner.Perm ((partitionTexts desired reported).filter (chosen ·.1) ++ innerExtra))
    (hinnerExtra : Others ["desired", "reported"] innerExtra)
    (houter : outer.Perm (("state", objectText inner) :: extra)) (hextra : Others ["state"] extra) :
    partitionEntries? (toBytes (objectText outer)) =
      some ⟨select chosen "desired" given.desired [], select chosen "reported" given.reported []⟩ := by
  obtain ⟨htext, hentries⟩ := entriesOfTree?_objectText hdesired hreported hinner hinnerExtra
  exact readState?_objectText htext hentries houter hextra

-- What relays are asked for in: a delta, or one of the partitions of a full shadow.
inductive Part where
  | delta
  | desired
  | reported

namespace Part

def entries? (payload : List UInt8) : Part → Option (List (String × Value))
  | delta => deltaEntries? payload
  | desired => (partitionEntries? payload).map (·.desired)
  | reported => (partitionEntries? payload).map (·.reported)

def targets? (relays : Nat) (payload : List UInt8) : Part → Option Targets
  | delta => (Delta.ofBytes? relays payload).map (·.targets)
  | desired => (Full.ofBytes? relays payload).map (·.desired)
  | reported => (Full.ofBytes? relays payload).map (·.reported)

theorem targets?_eq (relays : Nat) (payload : List UInt8) (part : Part) :
    part.targets? relays payload =
      (part.entries? payload).map fun given => targets relays (Sorted.ofList given) := by
  cases part with
  | delta => simp [targets?, entries?, Delta.ofBytes?, deltaState?_eq, Function.comp_def]
  | desired =>
      simp [targets?, entries?, Full.ofBytes?, partitions?_eq, Partitions.sorted, Function.comp_def]
  | reported =>
      simp [targets?, entries?, Full.ofBytes?, partitions?_eq, Partitions.sorted, Function.comp_def]

theorem targets?_of_entries? {relays : Nat} {payload : List UInt8} {part : Part}
    {given : List (String × Value)} (h : part.entries? payload = some given)
    (hkeys : (given.map Prod.fst).Nodup) :
    ∃ targets, part.targets? relays payload = some targets ∧ Follows relays given targets := by
  refine ⟨_, ?_, targets_follow hkeys⟩
  rw [targets?_eq, h, Option.map_some]

-- Of entries with keys of their own, those that ask for anything decide on the targets: the targets
-- are in the order of the relays, a relay's is the state in the entry whose key is the greatest of
-- those that name it, and neither the order of the entries nor entries that ask for nothing change
-- them, nor does the other partition. Each list of entries is that of a document.
theorem targets?_follow (relays : Nat) :
    (∀ (part : Part) payload given, part.entries? payload = some given →
        (given.map Prod.fst).Nodup →
          ∃ targets, part.targets? relays payload = some targets ∧ Follows relays given targets) ∧
      (∀ (part part' : Part) payload payload' given others,
        part.entries? payload = some given → (given.map Prod.fst).Nodup →
          part'.entries? payload' = some others → (others.map Prod.fst).Nodup →
            SameAsked relays given others →
              part.targets? relays payload = part'.targets? relays payload') ∧
      (∀ texts given outer extra, readEntries? (maxDepth - 2) texts = some given →
        outer.Perm (("state", objectText texts) :: extra) → Others ["state"] extra →
          delta.entries? (toBytes (objectText outer)) = some given) ∧
      ∀ dtexts rtexts inner innerExtra outer extra chosen (given : Partitions),
        readEntries? (maxDepth - 3) dtexts = some given.desired →
          readEntries? (maxDepth - 3) rtexts = some given.reported →
          inner.Perm ((partitionTexts dtexts rtexts).filter (chosen ·.1) ++ innerExtra) →
          Others ["desired", "reported"] innerExtra →
          outer.Perm (("state", objectText inner) :: extra) → Others ["state"] extra →
            desired.entries? (toBytes (objectText outer)) =
                some (select chosen "desired" given.desired []) ∧
              reported.entries? (toBytes (objectText outer)) =
                some (select chosen "reported" given.reported []) := by
  refine ⟨?_, ?_, ?_, ?_⟩
  · intro part payload given hentries hkeys
    exact targets?_of_entries? hentries hkeys
  · intro part part' payload payload' given others hentries hkeys hothers hkeys' hsame
    obtain ⟨read, hread, hfollows⟩ := targets?_of_entries? hentries hkeys
    obtain ⟨read', hread', hfollows'⟩ := targets?_of_entries? hothers hkeys'
    rw [hread, hread', hfollows.unique hfollows' hsame]
  · intro texts given outer extra htexts houter hextra
    exact deltaEntries?_objectText htexts houter hextra
  · intro dtexts rtexts inner innerExtra outer extra chosen given hdesired hreported hinner
      hinnerExtra houter hextra
    have hentries := partitionEntries?_objectText hdesired hreported hinner hinnerExtra houter
      hextra
    exact ⟨congrArg (Option.map Partitions.desired) hentries,
      congrArg (Option.map Partitions.reported) hentries⟩

-- Two keys name the first relay, and the greater one counts: in a delta, among entries that ask for
-- nothing, and in the desired partition of a shadow, without these and in another order.
theorem targets?_follow_twoSpellings :
    let off := "\x7b\"state\":false\x7d"
    let on := "\x7b\"state\":true\x7d"
    let inDelta := objectText [("version", "7"), ("state", objectText [("lamp", on), ("relay1", on),
      ("relay01", off), ("relay9", on), ("relay2", "1")])]
    let inShadow := objectText [("state", objectText [("reported", objectText [("relay1", off)]),
      ("desired", objectText [("relay01", off), ("relay1", on)])])]
    delta.targets? 3 (toBytes inDelta) = some [(0, true)] ∧
      delta.targets? 3 (toBytes inDelta) = desired.targets? 3 (toBytes inShadow) ∧
        ∃ targets, desired.targets? 3 (toBytes inShadow) = some targets ∧
          targets.lookup 0 = some true := by
  intro off on inDelta inShadow
  let held (state : Bool) : Value := .object [("state", .bool state)]
  let given : List (String × Value) := [("lamp", held true), ("relay1", held true),
    ("relay01", held false), ("relay9", held true), ("relay2", .number (.natural 1))]
  let others : List (String × Value) := [("relay01", held false), ("relay1", held true)]
  obtain ⟨hreads, hagree, hdelta, hshadow⟩ := targets?_follow 3
  have hgiven : delta.entries? (toBytes inDelta) = some given :=
    hdelta _ given _ [("version", "7")] rfl (.swap _ _ _) (by decide +kernel)
  obtain ⟨hothers, -⟩ := hshadow [("relay01", off), ("relay1", on)] [("relay1", off)] _ [] _ []
    (fun _ => true) ⟨others, [("relay1", held false)]⟩ rfl rfl (.swap _ _ _) (by decide) (.refl _)
    (by decide)
  have hsame : SameAsked 3 given others := by
    intro entry hasks
    constructor
    · intro hmem
      simp only [given, List.mem_cons, List.not_mem_nil, or_false] at hmem
      obtain rfl | rfl | rfl | rfl | rfl := hmem
      · exact absurd (.inl (by decide +kernel)) hasks
      · simp [others]
      · simp [others]
      · exact absurd (.inr (.inl ⟨8, by decide +kernel⟩)) hasks
      · exact absurd (.inr (.inr (by decide +kernel))) hasks
    · intro hmem
      simp only [others, List.mem_cons, List.not_mem_nil, or_false] at hmem
      obtain rfl | rfl := hmem <;> simp [given]
  have hkeys : (given.map Prod.fst).Nodup := by decide
  have hkeys' : (others.map Prod.fst).Nodup := by decide
  obtain ⟨targets, htargets, hfollows⟩ := hreads desired _ others hothers hkeys'
  refine ⟨by decide +kernel, hagree _ _ _ _ _ _ hgiven hkeys hothers hkeys' hsame, targets, htargets,
    (hfollows.lookup_eq_some_iff 0 true).mpr ⟨("relay1", held true), by simp [others], ?_, ?_⟩⟩
  · exact ⟨by decide +kernel, by decide, by decide +kernel⟩
  · intro other hother state hasks
    simp only [others, List.mem_cons, List.not_mem_nil, or_false] at hother
    obtain rfl | rfl := hother
    · exact .inr (by decide +kernel)
    · exact .inl rfl

end Part

end Shadow

end RelayGateway
