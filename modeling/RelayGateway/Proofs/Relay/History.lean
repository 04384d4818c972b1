import RelayGateway.Relay.Store
import Mathlib.Logic.Function.Iterate

namespace RelayGateway.Relay

inductive Call where
  | get (relay : Nat)
  | getAll
  | set (relay : Nat) (state : Bool)
  | toggle (relay : Nat)
  | setAll (state : Bool)
  deriving DecidableEq, Repr

inductive Answer where
  | done
  | state (value : Bool)
  | states (values : List Bool)
  | refused (reason : StoreError)
  deriving DecidableEq, Repr

namespace Call

def relay? : Call → Option Nat
  | get relay => some relay
  | set relay _ => some relay
  | toggle relay => some relay
  | getAll => none
  | setAll _ => none

-- The state that a call puts a relay into, whatever it showed before.
def puts? (relay : Nat) : Call → Option Bool
  | set other state => if other = relay then some state else none
  | setAll state => some state
  | _ => none

def turns (relay : Nat) (state : Bool) : Call → Bool
  | set other asked => if other = relay then asked else state
  | setAll asked => asked
  | toggle other => if other = relay then !state else state
  | _ => state

def reply (state : Bool) : Call → Answer
  | get _ => .state state
  | toggle _ => .state (!state)
  | _ => .done

def Apart (first second : Call) : Prop :=
  ∃ relay other, first.relay? = some relay ∧ second.relay? = some other ∧ relay ≠ other

end Call

-- The state that a relay was last put into, off at first, and the calls since.
structure LastPut (relay : Nat) (history : List Call) (state : Bool) (since : List Call) : Prop where
  kept : ∀ call ∈ since, call.puts? relay = none
  put : (state = false ∧ history = since) ∨
    ∃ before call, history = before ++ call :: since ∧ call.puts? relay = some state

-- What a relay was told: the state it was last put into, flipped once for each toggle since.
def Told (history : List Call) (relay : Nat) (state : Bool) : Prop :=
  ∃ start since, LastPut relay history start since ∧ state = not^[since.count (.toggle relay)] start

def Answered (count : Nat) (history : List Call) : Call → Answer → Prop
  | .get relay, answer =>
    if relay < count then ∃ state, Told history relay state ∧ answer = .state state
    else answer = .refused (.noSuchRelay relay count)
  | .getAll, answer =>
    ∃ states, states.length = count ∧ answer = .states states ∧
      ∀ relay < count, ∃ state, Told history relay state ∧ states[relay]? = some state
  | .set relay _, answer =>
    answer = if relay < count then .done else .refused (.noSuchRelay relay count)
  | .toggle relay, answer =>
    if relay < count then
      ∃ state, Told (history ++ [.toggle relay]) relay state ∧ answer = .state state
    else answer = .refused (.noSuchRelay relay count)
  | .setAll _, answer => answer = .done

theorem Told.nil (relay : Nat) : Told [] relay false :=
  ⟨false, [], ⟨by simp, .inl ⟨rfl, rfl⟩⟩, rfl⟩

theorem LastPut.concat {relay : Nat} {history since : List Call} {state : Bool} {call : Call}
    (h : LastPut relay history state since) (hcall : call.puts? relay = none) :
    LastPut relay (history ++ [call]) state (since ++ [call]) := by
  refine ⟨?_, ?_⟩
  · intro later hlater
    obtain hmem | hlast := List.mem_append.mp hlater
    · exact h.kept later hmem
    · rwa [List.mem_singleton.mp hlast]
  · obtain ⟨rfl, rfl⟩ | ⟨before, putter, rfl, hputter⟩ := h.put
    · exact .inl ⟨rfl, rfl⟩
    · exact .inr ⟨before, putter, by simp, hputter⟩

theorem Told.concat {relay : Nat} {history : List Call} {state : Bool} (h : Told history relay state)
    (call : Call) : Told (history ++ [call]) relay (call.turns relay state) := by
  obtain ⟨start, since, hlast, rfl⟩ := h
  cases hput : call.puts? relay with
  | some asked =>
      have hturns (state : Bool) : call.turns relay state = asked := by
        cases call <;> simp_all [Call.puts?, Call.turns]
      exact ⟨asked, [], ⟨by simp, .inr ⟨history, call, rfl, hput⟩⟩, hturns _⟩
  | none =>
      refine ⟨start, since ++ [call], hlast.concat hput, ?_⟩
      rw [List.count_append, List.count_singleton]
      by_cases htoggle : call = .toggle relay
      · subst htoggle
        rw [beq_self_eq_true, if_pos rfl, Function.iterate_succ_apply']
        exact if_pos rfl
      · have hturns (state : Bool) : call.turns relay state = state := by
          cases call <;> simp_all [Call.puts?, Call.turns]
        rw [hturns, if_neg (by simpa using htoggle), Nat.add_zero]

namespace Store

def carried (s : Store) : Except StoreError (Answer × Store) → Answer × Store
  | .ok result => result
  | .error reason => (.refused reason, s)

def perform (s : Store) : Call → Answer × Store
  | .get relay => s.carried ((s.get relay).map fun state => (.state state, s))
  | .getAll => (.states s.states, s)
  | .set relay state => s.carried ((s.set relay state).map fun next => (.done, next))
  | .toggle relay => s.carried ((s.toggle relay).map fun result => (.state result.1, result.2))
  | .setAll state => (.done, s.fill state)

def performAll (s : Store) : List Call → List Answer × Store
  | [] => ([], s)
  | call :: rest =>
    ((s.perform call).1 :: ((s.perform call).2.performAll rest).1,
      ((s.perform call).2.performAll rest).2)

theorem perform_of_lt {s : Store} {call : Call} {relay : Nat} (hrelay : call.relay? = some relay)
    {state : Bool} (hstate : s.states[relay]? = some state) :
    s.perform call = (call.reply state, ⟨s.states.set relay (call.turns relay state)⟩) := by
  obtain ⟨hlt, hget⟩ := List.getElem?_eq_some_iff.mp hstate
  cases call with
  | get other =>
      obtain rfl : other = relay := Option.some.inj hrelay
      have hsame : s.states.set other state = s.states := by rw [← hget, List.set_getElem_self]
      simp only [perform, get, hstate, Except.map, carried, Call.reply, Call.turns, hsame]
  | set other asked =>
      obtain rfl : other = relay := Option.some.inj hrelay
      have hset : s.set other asked = .ok ⟨s.states.set other asked⟩ := if_pos hlt
      simp only [perform, hset, Except.map, carried, Call.reply, Call.turns, if_true]
  | toggle other =>
      obtain rfl : other = relay := Option.some.inj hrelay
      simp only [perform, toggle, hstate, Except.map, carried, Call.reply, Call.turns, if_true]
  | getAll => cases hrelay
  | setAll asked => cases hrelay

theorem perform_of_ge {s : Store} {call : Call} {relay : Nat} (hrelay : call.relay? = some relay)
    (hge : s.count ≤ relay) :
    s.perform call = (.refused (.noSuchRelay relay s.count), s) := by
  have hnone : s.states[relay]? = none := List.getElem?_eq_none hge
  cases call with
  | get other =>
      obtain rfl : other = relay := Option.some.inj hrelay
      simp only [perform, get, hnone, Except.map, carried]
  | set other asked =>
      obtain rfl : other = relay := Option.some.inj hrelay
      simp only [perform, set, if_neg (Nat.not_lt.mpr hge), Except.map, carried]
  | toggle other =>
      obtain rfl : other = relay := Option.some.inj hrelay
      simp only [perform, toggle, hnone, Except.map, carried]
  | getAll => cases hrelay
  | setAll asked => cases hrelay

theorem perform_all {s : Store} {call : Call} (h : call.relay? = none) (relay : Nat) :
    (s.perform call).2.states[relay]? = s.states[relay]?.map (call.turns relay ·) := by
  cases call with
  | getAll => exact Option.map_id'.symm
  | setAll asked => exact List.getElem?_map
  | get other => cases h
  | set other asked => cases h
  | toggle other => cases h

-- Every call turns every relay by itself.
theorem getElem?_perform (s : Store) (call : Call) (relay : Nat) :
    (s.perform call).2.states[relay]? = s.states[relay]?.map (call.turns relay ·) := by
  cases hcall : call.relay? with
  | none => exact perform_all hcall relay
  | some other =>
      have hother (hne : other ≠ relay) (state : Bool) : call.turns relay state = state := by
        cases call <;> simp_all [Call.relay?, Call.turns]
      cases hstate : s.states[other]? with
      | none =>
          rw [perform_of_ge hcall (List.getElem?_eq_none_iff.mp hstate)]
          by_cases hsame : other = relay
          · rw [← hsame, hstate, Option.map_none]
          · simp only [hother hsame, Option.map_id']
      | some state =>
          rw [perform_of_lt hcall hstate]
          by_cases hsame : other = relay
          · subst hsame
            have hlt : other < s.states.length := (List.getElem?_eq_some_iff.mp hstate).1
            rw [List.getElem?_set_self hlt, hstate, Option.map_some]
          · rw [List.getElem?_set_ne hsame]
            simp only [hother hsame, Option.map_id']

theorem count_perform (s : Store) (call : Call) : (s.perform call).2.count = s.count := by
  have hnone (relay : Nat) : (s.perform call).2.count ≤ relay ↔ s.count ≤ relay := by
    rw [count, count, ← List.getElem?_eq_none_iff, getElem?_perform, Option.map_eq_none_iff,
      List.getElem?_eq_none_iff]
  exact Nat.le_antisymm ((hnone _).mpr (Nat.le_refl _)) ((hnone _).mp (Nat.le_refl _))

theorem performAll_append (s : Store) (before after : List Call) :
    s.performAll (before ++ after) =
      ((s.performAll before).1 ++ ((s.performAll before).2.performAll after).1,
        ((s.performAll before).2.performAll after).2) := by
  induction before generalizing s with
  | nil => rfl
  | cons call rest ih => simp only [List.cons_append, performAll, ih]

theorem length_answers (s : Store) (history : List Call) :
    (s.performAll history).1.length = history.length := by
  induction history generalizing s with
  | nil => rfl
  | cons call rest ih => exact congrArg (· + 1) (ih _)

structure Shows (s : Store) (count : Nat) (history : List Call) : Prop where
  count_eq : s.count = count
  told : ∀ relay < count, ∃ state, Told history relay state ∧ s.states[relay]? = some state

theorem new_shows (count : Nat) : (new count).Shows count [] := by
  refine ⟨List.length_replicate, fun relay hrelay => ⟨false, .nil relay, ?_⟩⟩
  rw [new, List.getElem?_replicate, if_pos hrelay]

theorem Shows.perform {s : Store} {count : Nat} {history : List Call} (h : s.Shows count history)
    (call : Call) : (s.perform call).2.Shows count (history ++ [call]) := by
  refine ⟨(s.count_perform call).trans h.count_eq, fun relay hrelay => ?_⟩
  obtain ⟨state, htold, hstate⟩ := h.told relay hrelay
  exact ⟨call.turns relay state, htold.concat call, by rw [getElem?_perform, hstate, Option.map_some]⟩

theorem Shows.performAll {s : Store} {count : Nat} {before : List Call} (h : s.Shows count before)
    (after : List Call) : (s.performAll after).2.Shows count (before ++ after) := by
  induction after generalizing s before with
  | nil => rwa [List.append_nil]
  | cons call rest ih =>
      have hrest := ih (h.perform call)
      rwa [List.append_assoc] at hrest

theorem Shows.answered {s : Store} {count : Nat} {history : List Call} (h : s.Shows count history)
    (call : Call) : Answered count history call (s.perform call).1 := by
  obtain ⟨hcount, htold⟩ := h
  cases call with
  | getAll => exact ⟨s.states, hcount, rfl, htold⟩
  | setAll asked => rfl
  | get relay =>
      simp only [Answered]
      split
      · rename_i hlt
        obtain ⟨state, hrelay, hstate⟩ := htold relay hlt
        exact ⟨state, hrelay, by rw [perform_of_lt rfl hstate]; rfl⟩
      · rename_i hge
        rw [perform_of_ge rfl (by omega), hcount]
  | set relay asked =>
      simp only [Answered]
      split
      · rename_i hlt
        obtain ⟨state, -, hstate⟩ := htold relay hlt
        rw [perform_of_lt rfl hstate]
        rfl
      · rename_i hge
        rw [perform_of_ge rfl (by omega), hcount]
  | toggle relay =>
      simp only [Answered]
      split
      · rename_i hlt
        obtain ⟨state, hrelay, hstate⟩ := htold relay hlt
        have hflipped := hrelay.concat (.toggle relay)
        rw [Call.turns, if_pos rfl] at hflipped
        exact ⟨!state, hflipped, by rw [perform_of_lt rfl hstate]; rfl⟩
      · rename_i hge
        rw [perform_of_ge rfl (by omega), hcount]

-- A call for another relay changes neither the answer to a call nor what the call does.
theorem perform_perform_of_apart {first second : Call} (h : first.Apart second) (s : Store) :
    ((s.perform first).2.perform second).1 = (s.perform second).1 ∧
      ((s.perform first).2.perform second).2 = ((s.perform second).2.perform first).2 := by
  obtain ⟨relay, other, hfirst, hsecond, hne⟩ := h
  cases hrelay : s.states[relay]? with
  | none =>
      have hge : s.count ≤ relay := List.getElem?_eq_none_iff.mp hrelay
      have hlater : (s.perform second).2.count ≤ relay := by rwa [count_perform]
      rw [perform_of_ge hfirst hge, perform_of_ge hfirst hlater]
      exact ⟨rfl, rfl⟩
  | some state =>
      cases hother : s.states[other]? with
      | none =>
          have hge : s.count ≤ other := List.getElem?_eq_none_iff.mp hother
          have hlater : (s.perform first).2.count ≤ other := by rwa [count_perform]
          rw [perform_of_ge hsecond hge, perform_of_ge hsecond hlater, count_perform]
          exact ⟨rfl, rfl⟩
      | some held =>
          have hkept : (s.perform first).2.states[other]? = some held := by
            rw [perform_of_lt hfirst hrelay, List.getElem?_set_ne hne, hother]
          have hkept' : (s.perform second).2.states[relay]? = some state := by
            rw [perform_of_lt hsecond hother, List.getElem?_set_ne hne.symm, hrelay]
          rw [perform_of_lt hsecond hkept, perform_of_lt hfirst hkept', perform_of_lt hfirst hrelay,
            perform_of_lt hsecond hother]
          exact ⟨rfl, congrArg Store.mk (List.set_comm _ _ hne)⟩

-- After any calls each relay shows what it was told, and each call was answered by what the relays had
-- been told before it. A next call for a relay that is not there is refused and leaves the store as it
-- is, and next calls for two different relays do and answer the same in both orders.
theorem performAll_told (count : Nat) (history : List Call) :
    let (answers, s) := (new count).performAll history
    (s.states.length = count ∧
      ∀ relay < count, ∃ state, Told history relay state ∧ s.states[relay]? = some state) ∧
    (answers.length = history.length ∧ ∀ before call after, history = before ++ call :: after →
      ∃ answer, answers[before.length]? = some answer ∧ Answered count before call answer) ∧
    (∀ call relay, call.relay? = some relay → count ≤ relay →
      s.perform call = (.refused (.noSuchRelay relay count), s)) ∧
    ∀ first second : Call, first.Apart second →
      ((s.perform first).2.perform second).2 = ((s.perform second).2.perform first).2 ∧
        ((s.perform first).2.perform second).1 = (s.perform second).1 ∧
        ((s.perform second).2.perform first).1 = (s.perform first).1 := by
  have hshows := (new_shows count).performAll history
  refine ⟨⟨hshows.count_eq, hshows.told⟩, ⟨length_answers _ history, ?_⟩, ?_, ?_⟩
  · rintro before call after rfl
    have hbefore := ((new_shows count).performAll before).answered call
    refine ⟨_, ?_, hbefore⟩
    rw [performAll_append, ← length_answers (new count) before,
      List.getElem?_append_right (Nat.le_refl _), Nat.sub_self]
    rfl
  · intro call relay hrelay hge
    rw [perform_of_ge hrelay (by rwa [hshows.count_eq]), hshows.count_eq]
  · intro first second hapart
    obtain ⟨relay, other, hfirst, hsecond, hne⟩ := hapart
    obtain ⟨hanswer, hstore⟩ := perform_perform_of_apart ⟨relay, other, hfirst, hsecond, hne⟩
      ((new count).performAll history).2
    exact ⟨hstore, hanswer,
      (perform_perform_of_apart ⟨other, relay, hsecond, hfirst, hne.symm⟩ _).1⟩

end Store

end RelayGateway.Relay
