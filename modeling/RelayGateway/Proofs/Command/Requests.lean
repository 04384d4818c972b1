import RelayGateway.Command.Request
import RelayGateway.Proofs.Json.Numbers
import Mathlib.Data.List.Forall2

namespace RelayGateway

open Json

namespace Json

def Holds (text : List UInt8) (tree : Tree) : Prop :=
  Tree.parse? text = some tree ∧ (tree.keep? maxDepth).isSome = true

def Lacks (members : List (Text × Tree)) (name : String) : Prop :=
  ∀ member ∈ members, Text.string? member.1 ≠ some name

def Given (members : List (Text × Tree)) (name : String) (item : Tree) : Prop :=
  ∃ front key back, members = front ++ (key, item) :: back ∧ Text.string? key = some name ∧
    Lacks front name ∧ Lacks back name

def named (name : String) (member : Text × Tree) : Bool := Text.string? member.1 == some name

theorem lacks_iff {members : List (Text × Tree)} {name : String} :
    Lacks members name ↔ members.filter (named name) = [] := by
  rw [List.filter_eq_nil_iff]
  simp [Lacks, named]

theorem given_iff {members : List (Text × Tree)} {name : String} {item : Tree} :
    Given members name item ↔ ∃ key, members.filter (named name) = [(key, item)] := by
  constructor
  · rintro ⟨front, key, back, rfl, hkey, hfront, hback⟩
    refine ⟨key, ?_⟩
    rw [List.filter_append, lacks_iff.mp hfront, List.nil_append,
      List.filter_cons_of_pos (by simp [named, hkey]), lacks_iff.mp hback]
  · rintro ⟨key, hfilter⟩
    obtain ⟨front, back, rfl, hfront, hkey, hback⟩ := List.filter_eq_cons_iff.mp hfilter
    refine ⟨front, key, back, rfl, by simpa [named] using hkey, ?_, lacks_iff.mpr hback⟩
    rw [lacks_iff, List.filter_eq_nil_iff]
    exact hfront

-- The members of an object, as they are kept.
def Kept (members : List (Text × Tree)) (kept : List (String × Value)) : Prop :=
  List.Forall₂ (fun member entry => Text.string? member.1 = some entry.1 ∧
    member.2.keep? (maxDepth - 1) = some entry.2) members kept

theorem kept_of_keepMembers? {members : List (Text × Tree)} {kept : List (String × Value)}
    (h : Tree.keepMembers? (maxDepth - 1) members = some kept) : Kept members kept := by
  induction members generalizing kept with
  | nil =>
      obtain rfl := Option.some.inj h
      exact .nil
  | cons member members ih =>
      obtain ⟨written, item⟩ := member
      rw [Tree.keepMembers?] at h
      obtain ⟨key, hkey, h⟩ := Option.bind_eq_some_iff.mp h
      obtain ⟨value, hvalue, h⟩ := Option.bind_eq_some_iff.mp h
      obtain ⟨rest, hrest, h⟩ := Option.bind_eq_some_iff.mp h
      obtain rfl := Option.some.inj h
      exact .cons ⟨hkey, hvalue⟩ (ih hrest)

theorem exists_kept {text : List UInt8} {members : List (Text × Tree)}
    (h : Holds text (.object members)) : ∃ kept, Kept members kept ∧
      Command.parse? text = Command.ofValue? (.object kept) := by
  obtain ⟨hparse, hkeep⟩ := h
  obtain ⟨v, hv⟩ := Option.isSome_iff_exists.mp hkeep
  have hmembers : (Tree.keepMembers? (maxDepth - 1) members).map Value.object = some v := hv
  obtain ⟨kept, hkept, rfl⟩ := Option.map_eq_some_iff.mp hmembers
  refine ⟨kept, kept_of_keepMembers? hkept, ?_⟩
  rw [Command.parse?, hparse, Option.bind_eq_bind, Option.bind_some, hv]
  rfl

namespace Kept

variable {members : List (Text × Tree)} {kept : List (String × Value)}

theorem filter (h : Kept members kept) (name : String) :
    Kept (members.filter (named name)) (kept.filter (·.1 == name)) := by
  refine List.rel_filter ?_ h
  rintro ⟨key, item⟩ ⟨name', value⟩ ⟨hkey, -⟩
  simp only at hkey
  simp [named, hkey]

theorem lacks_iff (h : Kept members kept) {name : String} :
    Lacks members name ↔ kept.filter (·.1 == name) = [] := by
  have hfilter := h.filter name
  rw [Json.lacks_iff]
  constructor
  · intro hnil
    rw [hnil] at hfilter
    exact List.forall₂_nil_left_iff.mp hfilter
  · intro hnil
    rw [hnil] at hfilter
    exact List.forall₂_nil_right_iff.mp hfilter

-- What is found once is what is kept of the one member of that name.
theorem filter_iff (h : Kept members kept) {name : String} {value : Value} :
    (∃ key, kept.filter (·.1 == name) = [(key, value)]) ↔
      ∃ item, Given members name item ∧ item.keep? (maxDepth - 1) = some value := by
  have hfilter := h.filter name
  simp only [given_iff]
  constructor
  · rintro ⟨key, hone⟩
    rw [hone] at hfilter
    obtain ⟨⟨written, item⟩, rest, ⟨-, hitem⟩, hrest, hfound⟩ :=
      List.forall₂_cons_right_iff.mp hfilter
    obtain rfl := List.forall₂_nil_right_iff.mp hrest
    exact ⟨item, ⟨written, hfound⟩, hitem⟩
  · rintro ⟨item, ⟨written, hone⟩, hitem⟩
    rw [hone] at hfilter
    obtain ⟨⟨key, other⟩, rest, ⟨-, hother⟩, hrest, hfound⟩ :=
      List.forall₂_cons_left_iff.mp hfilter
    obtain rfl := List.forall₂_nil_left_iff.mp hrest
    obtain rfl : other = value := Option.some.inj (hother.symm.trans hitem)
    exact ⟨key, hfound⟩

end Kept

theorem Tree.of_keep? {depth : Nat} {t : Tree} {v : Value} (h : t.keep? depth = some v) :
    match v with
    | .null => t = .null
    | .bool b => t = .bool b
    | .number x => ∃ n, t = .number n ∧ n.number? = some x
    | .object _ => ∃ members, t = .object members
    | _ => True := by
  cases t with
  | null =>
      obtain rfl := Option.some.inj h
      rfl
  | bool b =>
      obtain rfl := Option.some.inj h
      rfl
  | number n =>
      obtain ⟨x, hx, rfl⟩ := Option.map_eq_some_iff.mp h
      exact ⟨n, rfl, hx⟩
  | string s =>
      obtain ⟨text, -, rfl⟩ := Option.map_eq_some_iff.mp h
      trivial
  | array items =>
      cases depth with
      | zero => cases h
      | succ depth =>
          obtain ⟨values, -, rfl⟩ := Option.map_eq_some_iff.mp h
          trivial
  | object members =>
      cases depth with
      | zero => cases h
      | succ depth =>
          obtain ⟨entries, -, rfl⟩ := Option.map_eq_some_iff.mp h
          exact ⟨members, rfl⟩

theorem Mapping.once?_eq_some_iff {kept : List (String × Value)} {name : String} {value : Value} :
    once? kept name = some value ↔ ∃ key, kept.filter (·.1 == name) = [(key, value)] := by
  unfold once?
  split
  · rename_i key found hone
    simp [hone]
  · rename_i hnot
    refine iff_of_false (by simp) ?_
    rintro ⟨key, hone⟩
    exact hnot key value hone

end Json

namespace Command

def AsksState (members : List (Text × Tree)) : Option Bool → Prop
  | none => Lacks members "state" ∨ Given members "state" .null
  | some b => Given members "state" (.bool b)

def AsksRelay (members : List (Text × Tree)) (index : Nat) (desired : Option Bool) : Prop :=
  (∃ n, Given members "relay_index" (.number n) ∧ n.IsWhole index ∧ index < 2 ^ 64) ∧
    AsksState members desired

-- The members ask for a calibration, with a value that is rounded once.
def AsksCalibration (members : List (Text × Tree)) (sensor : UInt32) (value : Binary32) : Prop :=
  (∃ n, Given members "sensor_index" (.number n) ∧ n.IsWhole sensor.toNat) ∧
    ∃ n x, Given members "calibration_value" (.number n) ∧ n.number? = some x ∧ x.RoundsTo value

variable {members : List (Text × Tree)} {kept : List (String × Value)}

theorem requestedState?_iff (h : Kept members kept) {desired : Option Bool} :
    requestedState? kept = some desired ↔ AsksState members desired := by
  constructor
  · intro hstate
    unfold requestedState? at hstate
    split at hstate
    · rename_i hnone
      obtain rfl := Option.some.inj hstate
      exact .inl (h.lacks_iff.mpr hnone)
    · rename_i key hone
      obtain rfl := Option.some.inj hstate
      obtain ⟨item, hgiven, hitem⟩ := h.filter_iff.mp ⟨key, hone⟩
      obtain rfl : item = .null := Tree.of_keep? hitem
      exact .inr hgiven
    · rename_i key b hone
      obtain rfl := Option.some.inj hstate
      obtain ⟨item, hgiven, hitem⟩ := h.filter_iff.mp ⟨key, hone⟩
      obtain rfl : item = .bool b := Tree.of_keep? hitem
      exact hgiven
    · cases hstate
  · intro hasks
    cases desired with
    | none =>
        obtain hlacks | hgiven := hasks
        · rw [requestedState?, h.lacks_iff.mp hlacks]
        · obtain ⟨key, hone⟩ := h.filter_iff.mpr ⟨.null, hgiven, rfl⟩
          rw [requestedState?, hone]
    | some b =>
        obtain ⟨key, hone⟩ := h.filter_iff.mpr ⟨.bool b, hasks, rfl⟩
        rw [requestedState?, hone]

theorem number_iff (h : Kept members kept) {name : String} {x : Number} :
    Mapping.once? kept name = some (.number x) ↔
      ∃ n, Given members name (.number n) ∧ n.number? = some x := by
  rw [Mapping.once?_eq_some_iff, h.filter_iff]
  constructor
  · rintro ⟨item, hgiven, hitem⟩
    obtain ⟨n, rfl, hx⟩ := Tree.of_keep? hitem
    exact ⟨n, hgiven, hx⟩
  · rintro ⟨n, hgiven, hx⟩
    exact ⟨.number n, hgiven, by rw [Tree.keep?, hx, Option.map_some]⟩

theorem natural?_eq_some_iff {limit n : Nat} {value : Value} :
    natural? limit value = some n ↔ value = .number (.natural n) ∧ n ≤ limit := by
  unfold natural?
  split
  · rename_i m
    by_cases hm : m ≤ limit
    · rw [if_pos hm]
      constructor
      · intro hsame
        obtain rfl := Option.some.inj hsame
        exact ⟨rfl, hm⟩
      · rintro ⟨hsame, -⟩
        cases hsame
        rfl
    · rw [if_neg hm]
      refine iff_of_false (by simp) ?_
      rintro ⟨hsame, hle⟩
      cases hsame
      exact hm hle
  · rename_i hnot
    refine iff_of_false (by simp) ?_
    rintro ⟨hsame, -⟩
    exact hnot n hsame

theorem natural_iff (h : Kept members kept) (name : String) {limit : Nat} (hlimit : limit < 2 ^ 64)
    (n : Nat) :
    (∃ value, Mapping.once? kept name = some value ∧ natural? limit value = some n) ↔
      ∃ numeral, Given members name (.number numeral) ∧ numeral.IsWhole n ∧ n ≤ limit := by
  simp only [natural?_eq_some_iff]
  constructor
  · rintro ⟨value, hvalue, rfl, hle⟩
    obtain ⟨numeral, hgiven, hnumber⟩ := (number_iff h).mp hvalue
    exact ⟨numeral, hgiven, (Numeral.number?_eq_natural_iff.mp hnumber).1, hle⟩
  · rintro ⟨numeral, hgiven, hwhole, hle⟩
    have hnumber := Numeral.number?_eq_natural_iff.mpr ⟨hwhole, Nat.lt_of_le_of_lt hle hlimit⟩
    exact ⟨_, (number_iff h).mpr ⟨numeral, hgiven, hnumber⟩, rfl, hle⟩

theorem relayRequest?_iff (h : Kept members kept) {command : Command} :
    relayRequest? kept = some command ↔
      ∃ index desired, AsksRelay members index desired ∧ command = toggleRelay index desired := by
  have hlimit : 2 ^ 64 - 1 < 2 ^ 64 := by decide
  have hindex := natural_iff h "relay_index" hlimit
  constructor
  · intro hrun
    obtain ⟨found, hfound, hrun⟩ := Option.bind_eq_some_iff.mp hrun
    obtain ⟨index, hnatural, hrun⟩ := Option.bind_eq_some_iff.mp hrun
    obtain ⟨desired, hstate, hrun⟩ := Option.bind_eq_some_iff.mp hrun
    obtain rfl := Option.some.inj hrun
    obtain ⟨numeral, hgiven, hwhole, hle⟩ := (hindex index).mp ⟨found, hfound, hnatural⟩
    exact ⟨index, desired, ⟨⟨numeral, hgiven, hwhole, by omega⟩, (requestedState?_iff h).mp hstate⟩,
      rfl⟩
  · rintro ⟨index, desired, ⟨⟨numeral, hgiven, hwhole, hlt⟩, hstate⟩, rfl⟩
    obtain ⟨found, hfound, hnatural⟩ := (hindex index).mpr ⟨numeral, hgiven, hwhole, by omega⟩
    rw [relayRequest?, hfound, Option.bind_eq_bind, Option.bind_some, hnatural, Option.bind_eq_bind,
      Option.bind_some, (requestedState?_iff h).mpr hstate]
    rfl

theorem calibrationRequest?_iff (h : Kept members kept) {command : Command} :
    calibrationRequest? kept = some command ↔
      ∃ sensor value, AsksCalibration members sensor value ∧ command = calibrateProbe sensor value := by
  have hlimit : 2 ^ 32 - 1 < 2 ^ 64 := by decide
  have hsensor := natural_iff h "sensor_index" hlimit
  constructor
  · intro hrun
    obtain ⟨found, hfound, hrun⟩ := Option.bind_eq_some_iff.mp hrun
    obtain ⟨sensor, hnatural, hrun⟩ := Option.bind_eq_some_iff.mp hrun
    obtain ⟨value, hvalue, hrun⟩ := Option.bind_eq_some_iff.mp hrun
    obtain ⟨numeral, hgiven, hwhole, hle⟩ := (hsensor sensor).mp ⟨found, hfound, hnatural⟩
    have hword : sensor.toUInt32.toNat = sensor := Nat.mod_eq_of_lt (by omega)
    cases value with
    | number x =>
        obtain rfl := Option.some.inj hrun
        obtain ⟨n, hn, hx⟩ := (number_iff h).mp hvalue
        have hrounds := (Number.roundsTo_iff (Numeral.number?_isFinite hx)).mpr rfl
        exact ⟨_, _, ⟨⟨numeral, hgiven, by rwa [hword]⟩, n, x, hn, hx, hrounds⟩, rfl⟩
    | null => cases hrun
    | bool b => cases hrun
    | string s => cases hrun
    | array items => cases hrun
    | object entries => cases hrun
  · rintro ⟨sensor, value, ⟨⟨numeral, hgiven, hwhole⟩, n, x, hn, hx, hrounds⟩, rfl⟩
    have hword := sensor.toNat_lt
    obtain rfl := (Number.roundsTo_iff (Numeral.number?_isFinite hx)).mp hrounds
    obtain ⟨found, hfound, hnatural⟩ := (hsensor sensor.toNat).mpr ⟨numeral, hgiven, hwhole, by omega⟩
    rw [calibrationRequest?, hfound, Option.bind_eq_bind, Option.bind_some, hnatural,
      Option.bind_eq_bind, Option.bind_some, (number_iff h).mpr ⟨n, hn, hx⟩, Option.bind_some]
    simp

-- What the members of an object ask for: a relay, or else a calibration.
def Asks (members : List (Text × Tree)) : Command → Prop
  | toggleRelay index desired => AsksRelay members index desired
  | calibrateProbe sensor value =>
    (∀ index desired, ¬ AsksRelay members index desired) ∧ AsksCalibration members sensor value

theorem ofValue?_iff (h : Kept members kept) {command : Command} :
    ofValue? (.object kept) = some command ↔ Asks members command := by
  rw [ofValue?]
  rcases hrelay : relayRequest? kept with _ | request
  · have hnone : ∀ index desired, ¬ AsksRelay members index desired := by
      intro index desired hasks
      have hsome := (relayRequest?_iff h).mpr ⟨index, desired, hasks, rfl⟩
      rw [hrelay] at hsome
      cases hsome
    change calibrationRequest? kept = some command ↔ _
    rw [calibrationRequest?_iff h]
    cases command with
    | toggleRelay index desired =>
        refine iff_of_false ?_ (hnone index desired)
        rintro ⟨sensor, value, -, hsame⟩
        cases hsame
    | calibrateProbe sensor value =>
        constructor
        · rintro ⟨sensor, value, hasks, hsame⟩
          cases hsame
          exact ⟨hnone, hasks⟩
        · rintro ⟨-, hasks⟩
          exact ⟨sensor, value, hasks, rfl⟩
  · obtain ⟨index, desired, hasks, rfl⟩ := (relayRequest?_iff h).mp hrelay
    change some (toggleRelay index desired) = some command ↔ _
    cases command with
    | toggleRelay other state =>
        constructor
        · intro hsame
          cases hsame
          exact hasks
        · intro hother
          rw [← hrelay]
          exact (relayRequest?_iff h).mpr ⟨other, state, hother, rfl⟩
    | calibrateProbe sensor value =>
        refine iff_of_false (by simp) ?_
        rintro ⟨hnone, -⟩
        exact hnone index desired hasks

theorem exists_holds {text : List UInt8} {command : Command} (h : parse? text = some command) :
    ∃ members, Holds text (.object members) := by
  obtain ⟨tree, htree, h⟩ := Option.bind_eq_some_iff.mp h
  obtain ⟨v, hv, h⟩ := Option.bind_eq_some_iff.mp h
  cases v with
  | object entries =>
      obtain ⟨members, rfl⟩ := Tree.of_keep? hv
      exact ⟨members, htree, Option.isSome_of_eq_some hv⟩
  | null => cases h
  | bool b => cases h
  | number x => cases h
  | string s => cases h
  | array items => cases h

theorem parse?_eq_some_iff {text : List UInt8} {command : Command} :
    parse? text = some command ↔ ∃ members, Holds text (.object members) ∧ Asks members command := by
  constructor
  · intro h
    obtain ⟨members, hholds⟩ := exists_holds h
    obtain ⟨kept, hkept, hparse⟩ := exists_kept hholds
    rw [hparse] at h
    exact ⟨members, hholds, (ofValue?_iff hkept).mp h⟩
  · rintro ⟨members, hholds, hasks⟩
    obtain ⟨kept, hkept, hparse⟩ := exists_kept hholds
    rw [hparse]
    exact (ofValue?_iff hkept).mpr hasks

-- A text is a request exactly if it holds an object whose members ask for a command, and then it is
-- the request for that command.
theorem parse?_grammar (text : List UInt8) :
    (∀ command, parse? text = some command ↔
        ∃ members, Holds text (.object members) ∧ Asks members command) ∧
      (parse? text = none ↔
        ∀ members command, Holds text (.object members) → ¬ Asks members command) := by
  refine ⟨fun command => parse?_eq_some_iff, ?_⟩
  rw [Option.eq_none_iff_forall_ne_some]
  constructor
  · intro hnone members command hholds hasks
    exact hnone command (parse?_eq_some_iff.mpr ⟨members, hholds, hasks⟩)
  · intro hnone command hparse
    obtain ⟨members, hholds, hasks⟩ := parse?_eq_some_iff.mp hparse
    exact hnone members command hholds hasks

-- An index with a fraction makes no relay request, so the calibration next to it is taken.
example : parse? (Text.toBytes ("\x7b\"relay_index\":1.0,\"sensor_index\":2," ++
    "\"calibration_value\":7\x7d")) = some (.calibrateProbe 2 ⟨0x40E00000⟩) := by
  decide +kernel

end Command

end RelayGateway
