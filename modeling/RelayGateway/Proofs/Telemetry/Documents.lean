import RelayGateway.Telemetry.Publisher
import RelayGateway.Proofs.Floating.Finite
import RelayGateway.Proofs.Json.ReadBack
import RelayGateway.Proofs.Sorted
import Mathlib.Data.List.Forall2

namespace RelayGateway

open Json
open RelayGateway.Text (toBytes)

namespace Json

mutual

def Tree.nulls : Tree → Nat
  | .null => 1
  | .bool _ => 0
  | .number _ => 0
  | .string _ => 0
  | .array items => Tree.itemNulls items
  | .object members => Tree.memberNulls members

def Tree.itemNulls : List Tree → Nat
  | [] => 0
  | item :: rest => item.nulls + itemNulls rest

def Tree.memberNulls : List (Text × Tree) → Nat
  | [] => 0
  | (_, item) :: rest => item.nulls + memberNulls rest

end

namespace Value

theorem itemNulls_itemTrees (items : List Value) :
    Tree.itemNulls (itemTrees items) = (items.map (·.tree.nulls)).sum := by
  induction items with
  | nil => rfl
  | cons item items ih =>
      rw [itemTrees, Tree.itemNulls, ih, List.map_cons, List.sum_cons]

theorem memberNulls_memberTrees (members : List (String × Value)) :
    Tree.memberNulls (memberTrees members) = (members.map (·.2.tree.nulls)).sum := by
  induction members with
  | nil => rfl
  | cons member members ih =>
      obtain ⟨key, item⟩ := member
      rw [memberTrees, Tree.memberNulls, ih, List.map_cons, List.sum_cons]

theorem nulls_ofMapping {members : List (String × Value)} (h : (members.map Prod.fst).Nodup) :
    (ofMapping members).tree.nulls = (members.map (·.2.tree.nulls)).sum := by
  have hperm := (Sorted.ofList_perm h).map fun member : String × Value => member.2.tree.nulls
  change Tree.memberNulls (memberTrees (Sorted.ofList members)) = _
  rw [memberNulls_memberTrees]
  exact hperm.sum_nat

theorem mem_memberTrees {members : List (String × Value)} {key : String} {item : Value}
    (h : (key, item) ∈ members) : (writtenString key, item.tree) ∈ memberTrees members := by
  induction members with
  | nil => cases h
  | cons member members ih =>
      obtain hsame | hrest := List.mem_cons.mp h
      · rw [← hsame]
        exact List.mem_cons_self
      · exact List.mem_cons_of_mem _ (ih hrest)

theorem tree_ofBinary64_of_numeral? {x : Binary64} {n : Numeral} (h : x.isFinite = true)
    (hn : (Number.binary x).numeral? = some n) : (ofBinary64 x).tree = .number n := by
  rw [ofBinary64, if_pos h]
  change (Number.binary x).numeral?.elim _ _ = _
  rw [hn, Option.elim_some]

theorem tree_ofBinary64 {x : Binary64} (h : x.isFinite = true) :
    ∃ n, (ofBinary64 x).tree = .number n := by
  obtain ⟨text, n, htext, hread, -⟩ := Binary64.ofLetters?_documentText h
  have hnumeral : (Number.binary x).numeral? = some n := by
    rw [Number.numeral?, htext, Option.bind_some, hread]
  exact ⟨n, tree_ofBinary64_of_numeral? h hnumeral⟩

theorem tree_ofBinary64_of_not {x : Binary64} (h : x.isFinite = false) :
    (ofBinary64 x).tree = .null := by
  rw [ofBinary64, h]
  rfl

theorem nulls_ofBinary64 (x : Binary64) :
    (ofBinary64 x).tree.nulls = if x.isFinite then 0 else 1 := by
  cases hfinite : x.isFinite with
  | true =>
      obtain ⟨n, hn⟩ := tree_ofBinary64 hfinite
      rw [hn]
      rfl
  | false =>
      rw [tree_ofBinary64_of_not hfinite]
      rfl

end Value

def Tree.minusOne : Tree := .number ⟨true, [1], some [0], none⟩

end Json

namespace Telemetry

def Outlet.kept {σ : Type} (outlet : Outlet σ) : Outlet (σ × List PubSub.Message) where
  post message world :=
    let (accepted, s) := outlet.post message world.1
    (accepted, s, world.2 ++ [message])
  say notice world := (outlet.say notice world.1, world.2)

theorem Outlet.offer_kept {σ : Type} (outlet : Outlet σ) (refusal : PubSub.Message → Notice)
    (messages : List PubSub.Message) (world : σ × List PubSub.Message) :
    (outlet.kept.offer refusal messages world).2.2 = world.2 ++ messages := by
  induction messages generalizing world with
  | nil => exact (List.append_nil _).symm
  | cons message rest ih =>
      have hpost : outlet.kept.post message world =
          ((outlet.post message world.1).1, (outlet.post message world.1).2, world.2 ++ [message]) :=
        rfl
      rw [Outlet.offer, hpost]
      cases (outlet.post message world.1).1 with
      | true =>
          dsimp only
          rw [ih, List.append_assoc, List.singleton_append]
      | false =>
          dsimp only
          rw [ih]
          simp [kept]

def Draft.Reads (draft : Draft) (tree : Tree) : Prop :=
  Tree.parse? (toBytes draft.text) = some tree

namespace Record

def scalars (r : Record) : List (String × Option Binary32) :=
  [("temperature", r.temperature), ("humidity", r.humidity), ("light_level", r.lightLevel)]

def isInfinite (x : Option Binary32) : Bool := x.any fun x => !x.isNaN && !x.isFinite

-- How many values of a record no document can hold: the scalars that are infinite, and the levels
-- that are infinite or not a number.
def holes (r : Record) : Nat :=
  r.scalars.countP (isInfinite ·.2) + r.phLevels.countP (!·.isFinite)

theorem holes_eq (r : Record) : r.holes = (if isInfinite r.temperature then 1 else 0) +
    (if isInfinite r.humidity then 1 else 0) + (if isInfinite r.lightLevel then 1 else 0) +
    r.phLevels.countP (!·.isFinite) := by
  simp only [holes, scalars, List.countP_cons, List.countP_nil]
  omega

end Record

-- What the cloud reads of a level: a number, or null if there is none.
def ReadsLevel (x : Binary32) (t : Tree) : Prop :=
  if x.isFinite then ∃ n, t = .number n else t = .null

-- What the cloud reads of a scalar: minus one where the device gave no number.
def ReadsScalar (x : Option Binary32) (t : Tree) : Prop :=
  match x with
  | none => t = .minusOne
  | some x => if x.isNaN then t = .minusOne else ReadsLevel x t

theorem tree_missing : (Value.ofBinary64 missing).tree = .minusOne :=
  Value.tree_ofBinary64_of_numeral? (by decide +kernel) (by decide +kernel)

theorem isFinite_sanitizeLevel (x : Binary32) : (sanitizeLevel x).isFinite = x.isFinite := by
  have hlevel : sanitizeLevel x = x.widen ∨ sanitizeLevel x = x.widen.toHundredths :=
    ite_eq_or_eq _ _ _
  obtain hsame | hrounded := hlevel
  · rw [hsame, Binary32.widen_isFinite]
  · rw [hrounded, Binary32.toHundredths_widen_isFinite]

theorem readsLevel_of_isFinite {x : Binary32} {y : Binary64} (h : y.isFinite = x.isFinite) :
    ReadsLevel x (Value.ofBinary64 y).tree := by
  unfold ReadsLevel
  rw [← h]
  cases hfinite : y.isFinite with
  | true => exact Value.tree_ofBinary64 hfinite
  | false => exact Value.tree_ofBinary64_of_not hfinite

theorem readsScalar_sanitizeScalar (x : Option Binary32) :
    ReadsScalar x (Value.ofBinary64 (sanitizeScalar x)).tree := by
  cases x with
  | none => exact tree_missing
  | some x =>
      simp only [ReadsScalar, sanitizeScalar]
      split
      · exact tree_missing
      · exact readsLevel_of_isFinite (Binary32.toHundredths_widen_isFinite x)

theorem nulls_sanitizeScalar (x : Option Binary32) :
    (Value.ofBinary64 (sanitizeScalar x)).tree.nulls = if Record.isInfinite x then 1 else 0 := by
  have hmissing : (Value.ofBinary64 missing).tree.nulls = 0 := by
    rw [tree_missing]
    rfl
  cases x with
  | none => exact hmissing
  | some x =>
      have hrounded := Value.nulls_ofBinary64 x.widen.toHundredths
      rw [Binary32.toHundredths_widen_isFinite] at hrounded
      by_cases hnan : x.isNaN = true
      · rw [sanitizeScalar, if_pos hnan, Record.isInfinite, Option.any_some, hnan]
        exact hmissing
      · rw [sanitizeScalar, if_neg hnan, hrounded, Record.isInfinite, Option.any_some,
          eq_false_of_ne_true hnan]
        cases x.isFinite <;> rfl

theorem nulls_sanitizedLevels (record : Record) :
    (sanitizedLevels record).tree.nulls = record.phLevels.countP (!·.isFinite) := by
  change Tree.itemNulls (Value.itemTrees (record.phLevels.map _)) = _
  rw [Value.itemNulls_itemTrees]
  induction record.phLevels with
  | nil => rfl
  | cons x levels ih =>
      rw [List.map_cons, List.map_cons, List.sum_cons, ih, Value.nulls_ofBinary64,
        isFinite_sanitizeLevel, List.countP_cons]
      cases x.isFinite <;> simp [Nat.add_comm]

theorem readsLevels (record : Record) : ∃ items,
    (sanitizedLevels record).tree = .array items ∧ List.Forall₂ ReadsLevel record.phLevels items := by
  refine ⟨_, rfl, ?_⟩
  induction record.phLevels with
  | nil => exact .nil
  | cons x levels ih => exact .cons (readsLevel_of_isFinite (isFinite_sanitizeLevel x)) ih

def Draft.Hold (drafts : List Draft) (nulls : Nat) : Prop :=
  ∃ trees, List.Forall₂ Draft.Reads drafts trees ∧ (trees.map Tree.nulls).sum = nulls

namespace Draft

theorem Hold.nil : Hold [] 0 := ⟨[], .nil, rfl⟩

theorem Hold.write (topic : String) {v : Value} {nulls : Nat} (h : v.tree.nulls = nulls) :
    Hold [⟨topic, v.write⟩] nulls :=
  ⟨[v.tree], .cons v.parse?_write .nil, by rw [List.map_singleton, List.sum_singleton, h]⟩

theorem Hold.append {front back : List Draft} {m n : Nat} (hfront : Hold front m)
    (hback : Hold back n) : Hold (front ++ back) (m + n) := by
  obtain ⟨before, hbefore, rfl⟩ := hfront
  obtain ⟨after, hafter, rfl⟩ := hback
  exact ⟨before ++ after, List.rel_append hbefore hafter, by rw [List.map_append, List.sum_append]⟩

end Draft

namespace PublisherSettings

open Draft (Hold)

theorem scalarDraft_hold (topic key : String) (x : Option Binary32) :
    Hold (scalarDraft topic key x) (if Record.isInfinite x then 1 else 0) := by
  cases x with
  | none => exact .nil
  | some x =>
      by_cases hnan : x.isNaN = true
      · rw [scalarDraft, if_pos hnan, Record.isInfinite, Option.any_some, hnan]
        exact .nil
      · have hscalar := nulls_sanitizeScalar (some x)
        rw [sanitizeScalar, if_neg hnan] at hscalar
        rw [scalarDraft, if_neg hnan]
        refine .write topic ?_
        rw [Value.nulls_ofMapping (by simp), ← hscalar]
        rfl

theorem levelsDraft_hold (topic : String) (record : Record) :
    Hold (levelsDraft topic record) (record.phLevels.countP (!·.isFinite)) := by
  have hlevels := nulls_sanitizedLevels record
  unfold levelsDraft
  cases hempty : record.phLevels.isEmpty with
  | true =>
      rw [List.isEmpty_iff.mp hempty]
      exact .nil
  | false =>
      refine .write topic ?_
      rw [Value.nulls_ofMapping (by simp), ← hlevels]
      rfl

theorem nulls_array_eq_zero {items : List Value} (h : ∀ item ∈ items, item.tree.nulls = 0) :
    (Value.array items).tree.nulls = 0 := by
  change Tree.itemNulls (Value.itemTrees items) = 0
  rw [Value.itemNulls_itemTrees, List.sum_eq_zero_iff_forall_eq_nat, List.forall_mem_map]
  exact h

theorem relaysDraft_hold (topic : String) (record : Record) : Hold (relaysDraft topic record) 0 := by
  have hstates : (Value.array (record.relayStates.map .bool)).tree.nulls = 0 := by
    apply nulls_array_eq_zero
    rw [List.forall_mem_map]
    exact fun _ _ => rfl
  have hlabels : (Value.array (record.relayLabels.map .string)).tree.nulls = 0 := by
    apply nulls_array_eq_zero
    rw [List.forall_mem_map]
    exact fun _ _ => rfl
  unfold relaysDraft
  split
  · exact .nil
  · refine .write topic ?_
    rw [Value.nulls_ofMapping (by simp), List.map_cons, List.map_singleton, List.sum_cons,
      List.sum_singleton, hstates, hlabels]

theorem splitDrafts_hold (topics : SensorTopics) (record : Record) :
    Hold (splitDrafts topics record) record.holes := by
  have hall := ((((scalarDraft_hold topics.temperature "temperature" record.temperature).append
    (scalarDraft_hold topics.humidity "humidity" record.humidity)).append
    (scalarDraft_hold topics.lightLevel "light_level" record.lightLevel)).append
    (levelsDraft_hold topics.phLevels record)).append (relaysDraft_hold topics.relayStates record)
  rw [record.holes_eq]
  exact hall

def unifiedMembers (record : Record) (timestamp : Nat) : List (String × Value) := [
  ("data_type", .string "sensor_data"),
  ("timestamp", .number (.natural timestamp))] ++ sanitized record

theorem unifiedMembers_nodup (record : Record) (timestamp : Nat) :
    ((unifiedMembers record timestamp).map Prod.fst).Nodup := by
  change ["data_type", "timestamp", "temperature", "humidity", "light_level", "ph_levels"].Nodup
  decide

theorem nulls_unifiedDocument (record : Record) (timestamp : Nat) :
    (unifiedDocument record timestamp).tree.nulls = record.holes := by
  have hnulls := Value.nulls_ofMapping (unifiedMembers_nodup record timestamp)
  simp only [unifiedMembers, sanitized, List.map_append, List.map_cons, List.map_nil, List.sum_append,
    List.sum_cons, List.sum_nil, nulls_sanitizeScalar, nulls_sanitizedLevels] at hnulls
  change (unifiedDocument record timestamp).tree.nulls = 0 + (0 + 0) + _ at hnulls
  rw [hnulls, record.holes_eq]
  omega

theorem mem_sanitized {record : Record} {field : String × Option Binary32}
    (h : field ∈ record.scalars) :
    (field.1, Value.ofBinary64 (sanitizeScalar field.2)) ∈ sanitized record := by
  simp only [Record.scalars, List.mem_cons, List.not_mem_nil, or_false] at h
  rcases h with rfl | rfl | rfl <;> simp [sanitized]

theorem mem_unifiedDocument {record : Record} {timestamp : Nat} {key : String} {item : Value}
    (h : (key, item) ∈ sanitized record) :
    (writtenString key, item.tree) ∈
      Value.memberTrees (Sorted.ofList (unifiedMembers record timestamp)) := by
  have hmem : (key, item) ∈ unifiedMembers record timestamp := List.mem_append_right _ h
  exact Value.mem_memberTrees
    ((Sorted.ofList_perm (unifiedMembers_nodup record timestamp)).mem_iff.mpr hmem)

-- Whatever the port accepts, all that is handed to it are documents, with a null for each scalar that
-- is infinite and for each level that is infinite or not a number, and no others. In the one document
-- of the unified layout every scalar stands under its name, as minus one if it is missing or not a
-- number, and the levels stand in their order.
theorem publish_nulls {σ : Type} (s : PublisherSettings) (outlet : Outlet σ) (record : Record)
    (timestamp : Nat) (world : σ) :
    (s.publish outlet.kept record timestamp (world, [])).2.2 =
        (s.drafts record timestamp).map s.message ∧
      ∃ trees, List.Forall₂ Draft.Reads (s.drafts record timestamp) trees ∧
        (trees.map Tree.nulls).sum = record.holes ∧
        (s.unified = true → ∃ members items, trees = [.object members] ∧
          (∀ field ∈ record.scalars, ∃ t, (writtenString field.1, t) ∈ members ∧
            ReadsScalar field.2 t) ∧
          (writtenString "ph_levels", .array items) ∈ members ∧
          List.Forall₂ ReadsLevel record.phLevels items) := by
  refine ⟨outlet.offer_kept s.refusal (s.messages record timestamp) (world, []), ?_⟩
  cases hunified : s.unified with
  | false =>
      obtain ⟨trees, htrees, hnulls⟩ := splitDrafts_hold s.topics record
      refine ⟨trees, ?_, hnulls, fun h => absurd h Bool.false_ne_true⟩
      rwa [drafts, hunified]
  | true =>
      obtain ⟨items, hitems, hlevels⟩ := readsLevels record
      have hdrafts : s.drafts record timestamp =
          [⟨s.unifiedTopic, (unifiedDocument record timestamp).write⟩] := by
        rw [drafts, hunified]
        rfl
      refine ⟨[(unifiedDocument record timestamp).tree], ?_, ?_, fun _ => ⟨_, items, rfl, ?_, ?_, hlevels⟩⟩
      · rw [hdrafts]
        exact .cons (Value.parse?_write _) .nil
      · rw [List.map_singleton, List.sum_singleton, nulls_unifiedDocument]
      · intro field hfield
        exact ⟨_, mem_unifiedDocument (mem_sanitized hfield), readsScalar_sanitizeScalar field.2⟩
      · rw [← hitems]
        exact mem_unifiedDocument (by simp [sanitized])

theorem drafts_notFinite :
    let record : Record :=
      { temperature := some ⟨0x7F800000⟩, humidity := some ⟨0x425C0000⟩,
        phLevels := [⟨0x40D00000⟩, ⟨0x7FC00000⟩] }
    ((PublisherSettings.mk true "t" {} false).drafts record 42).map Draft.text =
        ["\x7b\"data_type\":\"sensor_data\",\"humidity\":55.0,\"light_level\":-1.0," ++
          "\"ph_levels\":[6.5,null],\"temperature\":null,\"timestamp\":42\x7d"] ∧
      ((PublisherSettings.mk false "t" {} false).drafts record 42).map Draft.text =
        ["\x7b\"temperature\":null\x7d", "\x7b\"humidity\":55.0\x7d",
          "\x7b\"ph_levels\":[6.5,null]\x7d"] := by
  decide +kernel

end PublisherSettings

end Telemetry

end RelayGateway
