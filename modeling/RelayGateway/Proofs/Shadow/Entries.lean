import RelayGateway.Shadow.Document
import RelayGateway.Proofs.Json.Tokens
import RelayGateway.Proofs.Shadow.RelayKey
import RelayGateway.Proofs.Sorted

namespace RelayGateway.Shadow

open Json
open RelayGateway.Text (toBytes)

-- Whether an entry asks for a state of a relay: its key names a relay of the board, and its value
-- holds a state.
def Asks (relays : Nat) (entry : String × Value) (index : Nat) (state : Bool) : Prop :=
  indexOfKey? entry.1 = some index ∧ index < relays ∧
    (entry.2.get? "state").bind Value.bool? = some state

def asked? (relays : Nat) (entry : String × Value) : Option (Nat × Bool) :=
  (Entry.of relays entry.1 entry.2).target?

theorem asked?_eq_some_iff {relays : Nat} {entry : String × Value} {index : Nat} {state : Bool} :
    asked? relays entry = some (index, state) ↔ Asks relays entry index state := by
  unfold asked? Entry.of Asks
  cases hkey : indexOfKey? entry.1 with
  | none =>
      dsimp only
      split <;> simp [Entry.target?]
  | some named =>
      dsimp only
      split
      · simp [Entry.target?]
        omega
      · cases hstate : (entry.2.get? "state").bind Value.bool? with
        | none => simp [Entry.target?]
        | some held =>
            simp [Entry.target?]
            omega

-- Whether an entry asks for nothing: its key names no relay or one that the board does not have, or
-- its value has no state.
def Idle (relays : Nat) (entry : String × Value) : Prop :=
  indexOfKey? entry.1 = none ∨ (∃ index, indexOfKey? entry.1 = some index ∧ relays ≤ index) ∨
    (entry.2.get? "state").bind Value.bool? = none

theorem Asks.not_idle {relays : Nat} {entry : String × Value} {index : Nat} {state : Bool}
    (h : Asks relays entry index state) : ¬ Idle relays entry := by
  obtain ⟨hkey, hindex, hstate⟩ := h
  rintro (hnone | ⟨named, hnamed, hle⟩ | hnone)
  · rw [hkey] at hnone
    cases hnone
  · rw [hkey] at hnamed
    obtain rfl := Option.some.inj hnamed
    omega
  · rw [hstate] at hnone
    cases hnone

def SameAsked (relays : Nat) (given others : List (String × Value)) : Prop :=
  ∀ entry, ¬ Idle relays entry → (entry ∈ given ↔ entry ∈ others)

theorem ascii_of_key {key : String} {index : Nat} (h : indexOfKey? key = some index) :
    ∀ c ∈ key.toList, c.toNat < 128 := by
  obtain ⟨-, plus, zeros, rfl⟩ := indexOfKey?_eq_some_iff.mp h
  have hsign : ∀ c ∈ signText plus, c.toNat < 128 := by
    cases plus <;> simp [signText]
  have hzeros : ∀ c ∈ List.replicate zeros '0', c.toNat < 128 := by
    intro c hc
    rw [List.eq_of_mem_replicate hc]
    decide
  have hdigits : ∀ c ∈ Nat.toDigits 10 (index + 1), c.toNat < 128 := by
    intro c hc
    obtain ⟨-, hhigh⟩ := digit_bounds (toDigits_isDigit c hc)
    omega
  rw [toList_spelled]
  simp only [spelledNumber, List.forall_mem_cons, List.forall_mem_append]
  exact ⟨by decide, by decide, by decide, by decide, by decide, hsign, hzeros, hdigits⟩

theorem map_ascii_lt_iff {first second : List Char} (hfirst : ∀ c ∈ first, c.toNat < 128)
    (hsecond : ∀ c ∈ second, c.toNat < 128) :
    first.map ascii < second.map ascii ↔ first < second := by
  induction first generalizing second with
  | nil =>
      cases second with
      | nil => simp
      | cons d second => simp
  | cons c first ih =>
      cases second with
      | nil => simp
      | cons d second =>
          obtain ⟨hc, hfirst⟩ := List.forall_mem_cons.mp hfirst
          obtain ⟨hd, hsecond⟩ := List.forall_mem_cons.mp hsecond
          have hcvalue : (ascii c).toNat = c.toNat := Nat.mod_eq_of_lt (by omega)
          have hdvalue : (ascii d).toNat = d.toNat := Nat.mod_eq_of_lt (by omega)
          have hless : ascii c < ascii d ↔ c < d := by
            rw [UInt8.lt_iff_toNat_lt, hcvalue, hdvalue]
            exact Iff.rfl
          have hsame : ascii c = ascii d ↔ c = d := by
            rw [← UInt8.toNat_inj, hcvalue, hdvalue, Char.toNat_inj]
          rw [List.map_cons, List.map_cons, List.cons_lt_cons_iff, List.cons_lt_cons_iff, hless,
            hsame, ih hfirst hsecond]

theorem toBytes_lt_iff {first second : String} (hfirst : ∀ c ∈ first.toList, c.toNat < 128)
    (hsecond : ∀ c ∈ second.toList, c.toNat < 128) :
    toBytes first < toBytes second ↔ first < second := by
  have hbytes {s : String} (hs : ∀ c ∈ s.toList, c.toNat < 128) :
      toBytes s = s.toList.map ascii := by
    rw [← toBytes_ofList_ascii hs, String.ofList_toList]
  rw [hbytes hfirst, hbytes hsecond, map_ascii_lt_iff hfirst hsecond, String.lt_iff]

-- Whether an entry has the greatest key, in the order of bytes, of those that ask for a relay.
def Prevails (relays : Nat) (given : List (String × Value)) (index : Nat) (entry : String × Value) :
    Prop :=
  ∀ other ∈ given, ∀ state, Asks relays other index state →
    other.1 = entry.1 ∨ toBytes other.1 < toBytes entry.1

structure Follows (relays : Nat) (given : List (String × Value)) (targets : Targets) : Prop where
  ascending : Sorted.Ascending targets
  lt : ∀ entry ∈ targets, entry.1 < relays
  lookup_eq_some_iff : ∀ index state, targets.lookup index = some state ↔
    ∃ entry ∈ given, Asks relays entry index state ∧ Prevails relays given index entry

-- The targets depend only on which entries there are that ask for anything.
theorem Follows.unique {relays : Nat} {given others : List (String × Value)}
    {targets targets' : Targets} (h : Follows relays given targets)
    (h' : Follows relays others targets') (hsame : SameAsked relays given others) :
    targets = targets' := by
  have hmem {entry : String × Value} {index : Nat} {state : Bool}
      (hasks : Asks relays entry index state) : entry ∈ given ↔ entry ∈ others :=
    hsame entry hasks.not_idle
  refine h.ascending.ext h'.ascending fun index => Option.ext fun state => ?_
  rw [h.lookup_eq_some_iff, h'.lookup_eq_some_iff]
  constructor
  · rintro ⟨entry, hentry, hasks, hgreatest⟩
    refine ⟨entry, (hmem hasks).mp hentry, hasks, ?_⟩
    intro other hother held hheld
    exact hgreatest other ((hmem hheld).mpr hother) held hheld
  · rintro ⟨entry, hentry, hasks, hgreatest⟩
    refine ⟨entry, (hmem hasks).mpr hentry, hasks, ?_⟩
    intro other hother held hheld
    exact hgreatest other ((hmem hheld).mp hother) held hheld

theorem targets_eq (relays : Nat) (partition : Mapping) :
    targets relays partition = Sorted.ofList (partition.filterMap (asked? relays)) := by
  rw [targets, entries, List.filterMap_map]
  rfl

theorem exists_of_mem_targets {relays : Nat} {partition : Mapping} {entry : Nat × Bool}
    (h : entry ∈ targets relays partition) :
    ∃ given ∈ partition, Asks relays given entry.1 entry.2 := by
  rw [targets_eq] at h
  obtain ⟨given, hgiven, htarget⟩ := List.mem_filterMap.mp (Sorted.mem_of_mem_ofList h)
  exact ⟨given, hgiven, asked?_eq_some_iff.mp htarget⟩

-- Entries are looked through in the order of their keys, and a later one takes the place of those
-- before it that ask for the same relay.
theorem lookup_targets_eq_some_iff {relays : Nat} {partition : Mapping}
    (h : Sorted.Ascending partition) {index : Nat} {state : Bool} :
    (targets relays partition).lookup index = some state ↔
      ∃ entry ∈ partition, Asks relays entry index state ∧ Prevails relays partition index entry := by
  rw [targets_eq, Sorted.lookup_ofList_eq_some_iff]
  constructor
  · rintro ⟨front, back, hsplit, hback⟩
    obtain ⟨first, rest, rfl, -, hrest⟩ := List.filterMap_eq_append_iff.mp hsplit
    obtain ⟨skipped, entry, later, rfl, -, hentry, hlater⟩ := List.filterMap_eq_cons_iff.mp hrest
    refine ⟨entry, by simp, asked?_eq_some_iff.mp hentry, ?_⟩
    intro other hother held hasks
    rw [← List.append_assoc] at h hother
    obtain ⟨-, -, hbefore⟩ := List.pairwise_append.mp h
    obtain hother | hother := List.mem_append.mp hother
    · right
      have hlt := hbefore other hother entry List.mem_cons_self
      exact (toBytes_lt_iff (ascii_of_key hasks.1)
        (ascii_of_key (asked?_eq_some_iff.mp hentry).1)).mpr hlt
    · obtain rfl | hother := List.mem_cons.mp hother
      · exact .inl rfl
      -- an entry behind it that asks for the relay would have taken its place
      · have hmem : (index, held) ∈ back := by
          rw [← hlater]
          exact List.mem_filterMap.mpr ⟨other, hother, asked?_eq_some_iff.mpr hasks⟩
        exact absurd rfl (hback _ hmem)
  · rintro ⟨entry, hentry, hasks, hgreatest⟩
    obtain ⟨first, later, rfl⟩ := List.append_of_mem hentry
    refine ⟨first.filterMap (asked? relays), later.filterMap (asked? relays), ?_, ?_⟩
    · rw [List.filterMap_append, List.filterMap_cons_some (asked?_eq_some_iff.mpr hasks)]
    · rintro ⟨named, held⟩ hmem rfl
      obtain ⟨other, hother, htarget⟩ := List.mem_filterMap.mp hmem
      have hother' := asked?_eq_some_iff.mp htarget
      obtain ⟨-, hlater, -⟩ := List.pairwise_append.mp h
      have hlt : entry.1 < other.1 := (List.pairwise_cons.mp hlater).1 other hother
      obtain hsame | hless := hgreatest other (by simp [hother]) held hother'
      · rw [hsame] at hlt
        exact String.lt_irrefl _ hlt
      · have hgt := (toBytes_lt_iff (ascii_of_key hother'.1) (ascii_of_key hasks.1)).mp hless
        exact String.lt_asymm hlt hgt

theorem targets_follow {relays : Nat} {given : List (String × Value)}
    (h : (given.map Prod.fst).Nodup) : Follows relays given (targets relays (Sorted.ofList given)) where
  ascending := Sorted.ascending_ofList _
  lt entry hentry := by
    obtain ⟨_, -, hasks⟩ := exists_of_mem_targets hentry
    exact hasks.2.1
  lookup_eq_some_iff index state := by
    have hmem (entry : String × Value) : entry ∈ Sorted.ofList given ↔ entry ∈ given :=
      (Sorted.ofList_perm h).mem_iff
    rw [lookup_targets_eq_some_iff (Sorted.ascending_ofList given)]
    simp only [Prevails, hmem]

end RelayGateway.Shadow
