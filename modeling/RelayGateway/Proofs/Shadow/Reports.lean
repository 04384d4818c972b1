import RelayGateway.Shadow.Document
import RelayGateway.Proofs.Json.ReadBack
import RelayGateway.Proofs.Shadow.Entries
import Mathlib.Data.List.Nodup

namespace RelayGateway.Shadow

open Json
open RelayGateway.Text (toBytes)

theorem index_lt_of_mem_targets {relays : Nat} {partition : Mapping} {entry : Nat × Bool}
    (h : entry ∈ targets relays partition) : entry.1 + 1 < 2 ^ 64 := by
  obtain ⟨_, -, hasks⟩ := exists_of_mem_targets h
  exact index_lt_of_key hasks.1

theorem partitions?_reported (states : List (Nat × Bool)) :
    partitions? (toBytes (reported states).write) =
      some { reported :=
        Sorted.ofList (states.map fun (index, state) => reportedEntry index state) } := by
  let members := Sorted.ofList (states.map fun (index, state) => reportedEntry index state)
  have hmembers (depth : Nat) : Value.Plain (depth + 2) (.object members) := by
    refine Value.plain_object fun member hmember => ?_
    obtain ⟨⟨index, state⟩, -, rfl⟩ := List.mem_map.mp (Sorted.mem_of_mem_ofList hmember)
    exact ⟨trivial, trivial⟩
  have hreported : Partitions.ofTree? (Value.tree (.object [("reported", .object members)])) =
      some { reported := members } := by
    have hmapping : Tree.mapping? (maxDepth - 2) (Value.tree (.object members)) = some members := by
      have hread := Value.mapping?_tree (hmembers (maxDepth - 4))
      rwa [Sorted.ofList_of_ascending (Sorted.ascending_ofList _)] at hread
    unfold Partitions.ofTree?
    rw [Value.fields?_tree]
    change (Option.map some (Tree.mapping? (maxDepth - 2) (Value.tree (.object members)))).bind
      (fun reported => some { desired := [], reported := reported.getD [] : Partitions }) = _
    rw [hmapping]
    rfl
  have hstate : Tree.parse? (toBytes (reported states).write) =
      some (Value.tree (.object [("state", .object [("reported", .object members)])])) :=
    Value.parse?_write _
  unfold partitions?
  rw [hstate, Option.bind_eq_bind, Option.bind_some, Value.fields?_tree]
  exact hreported

theorem entry_of_reported {relays index : Nat} (hindex : index < relays)
    (hword : index + 1 < 2 ^ 64) (state : Bool) :
    Entry.of relays (reportedEntry index state).1 (reportedEntry index state).2 =
      .target index state := by
  unfold Entry.of reportedEntry
  rw [indexOfKey?_keyOfIndex hword]
  dsimp only
  rw [if_neg (Nat.not_le.mpr hindex)]
  rfl

-- The entries of a report stand in the order of their keys, where relay 10 comes before relay 2.
theorem entries_reported {relays : Nat} {states : List (Nat × Bool)}
    (hstates : Sorted.Ascending states) (hrelays : ∀ entry ∈ states, entry.1 < relays)
    (hword : ∀ entry ∈ states, entry.1 + 1 < 2 ^ 64) :
    (entries relays
        (Sorted.ofList (states.map fun (index, state) => reportedEntry index state))).Perm
      (states.map fun entry => .target entry.1 entry.2) := by
  have hkeys : ((states.map fun (index, state) => reportedEntry index state).map Prod.fst).Nodup := by
    rw [List.map_map, show Prod.fst ∘ (fun (index, state) => reportedEntry index state) =
      keyOfIndex ∘ Prod.fst from rfl, ← List.map_map]
    refine hstates.keys_nodup.map_on ?_
    rintro _ hmem _ hother hsame
    obtain ⟨first, hfirst, rfl⟩ := List.mem_map.mp hmem
    obtain ⟨second, hsecond, rfl⟩ := List.mem_map.mp hother
    exact keyOfIndex_injOn (hword first hfirst) (hword second hsecond) hsame
  have hperm := (Sorted.ofList_perm hkeys).map fun entry => Entry.of relays entry.1 entry.2
  rw [List.map_map] at hperm
  refine hperm.trans (.of_eq (List.map_congr_left fun entry hentry => ?_))
  exact entry_of_reported (hrelays entry hentry) (hword entry hentry) entry.2

theorem ofBytes?_reported {relays : Nat} {states : List (Nat × Bool)}
    (hstates : Sorted.Ascending states) (hrelays : ∀ entry ∈ states, entry.1 < relays)
    (hword : ∀ entry ∈ states, entry.1 + 1 < 2 ^ 64) :
    Full.ofBytes? relays (toBytes (reported states).write) = some ⟨[], states, []⟩ := by
  have hentries := entries_reported hstates hrelays hword
  have htargets : targets relays
      (Sorted.ofList (states.map fun (index, state) => reportedEntry index state)) = states := by
    refine hstates.ofList_eq ((hentries.filterMap Entry.target?).trans (.of_eq ?_))
    rw [List.filterMap_map]
    exact List.filterMap_some
  have hcomplaints : complaints relays
      (Sorted.ofList (states.map fun (index, state) => reportedEntry index state)) = [] := by
    refine List.Perm.eq_nil ((hentries.filterMap Entry.notice?).trans (.of_eq ?_))
    rw [List.filterMap_map]
    exact List.filterMap_eq_nil_iff.mpr fun _ _ => rfl
  unfold Full.ofBytes?
  rw [partitions?_reported, Option.map_some, htargets, hcomplaints]
  rfl

theorem ofBytes?_relayReport {relays index : Nat} (hindex : index < relays)
    (hword : index + 1 < 2 ^ 64) (state : Bool) :
    Full.ofBytes? relays (toBytes (relayReport index state)) = some ⟨[], [(index, state)], []⟩ :=
  ofBytes?_reported (List.pairwise_singleton _ _) (List.forall_mem_singleton.mpr hindex)
    (List.forall_mem_singleton.mpr hword)

def indexed (states : List Bool) : List (Nat × Bool) :=
  states.zipIdx.map fun (state, index) => (index, state)

theorem getElem?_indexed (states : List Bool) (index : Nat) :
    (indexed states)[index]? = states[index]?.map (Prod.mk index) := by
  simp [indexed, Function.comp_def]

theorem map_fst_indexed (states : List Bool) :
    (indexed states).map Prod.fst = List.range states.length := by
  unfold indexed
  rw [List.map_map, List.range_eq_range']
  exact List.zipIdx_map_snd 0 states

theorem indexed_ascending (states : List Bool) : Sorted.Ascending (indexed states) := by
  have hkeys : ((indexed states).map Prod.fst).Pairwise (· < ·) := by
    rw [map_fst_indexed]
    exact List.pairwise_lt_range
  exact List.pairwise_map.mp hkeys

theorem lt_of_mem_indexed {states : List Bool} {entry : Nat × Bool} (h : entry ∈ indexed states) :
    entry.1 < states.length := by
  have hmem := List.mem_map_of_mem (f := Prod.fst) h
  rwa [map_fst_indexed, List.mem_range] at hmem

theorem lookup_indexed (states : List Bool) (index : Nat) :
    (indexed states).lookup index = states[index]? := by
  cases hstate : states[index]? with
  | none =>
      rw [List.lookup_eq_none_iff]
      intro entry hentry
      have hlt := lt_of_mem_indexed hentry
      have hlength := List.getElem?_eq_none_iff.mp hstate
      exact bne_iff_ne.mpr (by omega)
  | some state =>
      have hentry : (indexed states)[index]? = some (index, state) := by
        rw [getElem?_indexed, hstate]
        rfl
      exact (indexed_ascending states).lookup_eq (List.mem_of_getElem? hentry)

-- What is reported is read back: of a board each relay with its state and nothing else, however the
-- keys are ordered, and of one relay just its state. Nothing is desired.
theorem ofBytes?_reports (relays : Nat) :
    (∀ states : List Bool, states.length ≤ relays → states.length < 2 ^ 64 →
        ∃ reported, Full.ofBytes? relays (toBytes (boardReport states)) = some ⟨[], reported, []⟩ ∧
          reported.map Prod.fst = List.range states.length ∧
          ∀ index, reported.lookup index = states[index]?) ∧
      ∀ index state, index < relays → relays < 2 ^ 64 - 1 →
        Full.ofBytes? relays (toBytes (relayReport index state)) =
          some ⟨[], [(index, state)], []⟩ := by
  constructor
  · intro states hrelays hword
    have hlt : ∀ entry ∈ indexed states, entry.1 < states.length := fun _ => lt_of_mem_indexed
    refine ⟨indexed states, ?_, map_fst_indexed states, lookup_indexed states⟩
    exact ofBytes?_reported (indexed_ascending states)
      (fun entry hentry => Nat.lt_of_lt_of_le (hlt entry hentry) hrelays)
      (fun entry hentry => Nat.lt_of_le_of_lt (hlt entry hentry) hword)
  · intro index state hindex hword
    exact ofBytes?_relayReport hindex (by omega) state

theorem ofBytes?_reports_tenRelays :
    let states := (List.range 10).map (· % 3 == 0)
    (Sorted.ofList ((indexed states).map fun (index, state) => reportedEntry index state)).map
        Prod.fst =
      ["relay1", "relay10", "relay2", "relay3", "relay4", "relay5", "relay6", "relay7", "relay8",
        "relay9"] ∧
      (∃ reported, Full.ofBytes? 10 (toBytes (boardReport states)) = some ⟨[], reported, []⟩ ∧
        reported.map Prod.fst = List.range 10 ∧ reported.lookup 9 = some true ∧
        reported.lookup 1 = some false) ∧
      Full.ofBytes? 10 (toBytes (relayReport 9 true)) = some ⟨[], [(9, true)], []⟩ := by
  intro states
  obtain ⟨hboard, hrelay⟩ := ofBytes?_reports 10
  obtain ⟨reported, hread, hkeys, hlookup⟩ := hboard states (by decide) (by decide)
  refine ⟨by decide +kernel, ⟨reported, hread, hkeys, hlookup 9, hlookup 1⟩, ?_⟩
  exact hrelay 9 true (by decide) (by decide)

end RelayGateway.Shadow
