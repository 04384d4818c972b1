import RelayGateway.Shadow.Engine
import RelayGateway.Proofs.Shadow.Entries
import Mathlib.Data.List.Basic

namespace RelayGateway.Shadow

abbrev Exchange := Dialogue.Exchange Query Reply

instance : (q : Query) → DecidableEq (Reply q)
  | .read _ => inferInstanceAs (DecidableEq (Except Relay.StoreError Bool))
  | .submit _ => inferInstanceAs (DecidableEq (Except Dispatch.Error Unit))
  | .uptime => inferInstanceAs (DecidableEq Nat)
  | .sleep _ => inferInstanceAs (DecidableEq Unit)
  | .publish _ _ => inferInstanceAs (DecidableEq Bool)
  | .say _ => inferInstanceAs (DecidableEq Unit)

instance : DecidableEq Exchange
  | ⟨query, reply⟩, ⟨query', reply'⟩ =>
    if h : query = query' then decidable_of_iff (h ▸ reply = reply') (by subst h; simp)
    else isFalse (by simp [h])

namespace Exchange

def saw (index : Nat) (state : Bool) : Exchange := ⟨.read index, .ok state⟩

def submitted (command : Command) (result : Except Dispatch.Error Unit) : Exchange :=
  ⟨.submit command, result⟩

def published (topic text : String) (accepted : Bool) : Exchange :=
  ⟨.publish topic text, accepted⟩

@[simp] theorem query_saw (index : Nat) (state : Bool) : (saw index state).query = .read index :=
  rfl

@[simp] theorem query_submitted (command : Command) (result : Except Dispatch.Error Unit) :
    (submitted command result).query = .submit command := rfl

@[simp] theorem query_published (topic text : String) (accepted : Bool) :
    (published topic text accepted).query = .publish topic text := rfl

-- Looks are answered by a store of so many relays, whatever it holds by then.
def FromStore (relays : Nat) : Exchange → Prop
  | ⟨.read index, reply⟩ => ∃ store : Relay.Store, store.count = relays ∧ reply = store.get index
  | _ => True

end Exchange

def spoken (notices : List Notice) : List Exchange :=
  notices.map fun notice => ⟨.say notice, ()⟩

namespace Engine

variable {α : Type} {e : Engine}

def targets? (e : Engine) (relays : Nat) (topic : String) (payload : List UInt8) :
    Option Targets :=
  match e.topics.classify topic with
  | some .updateDelta => (Delta.ofBytes? relays payload).map (·.targets)
  | some .getAccepted => (Full.ofBytes? relays payload).map (·.desired)
  | _ => none

def missedLook (index : Nat) (target : Bool) (now : Nat) : List Exchange :=
  [.saw index (!target), ⟨.uptime, now⟩]

inductive LastLook (index : Nat) (target : Bool) (deadline : Nat) : List Exchange → Verdict → Prop
  | reached : LastLook index target deadline [.saw index target] .reached
  | late {now : Nat} (h : deadline ≤ now) :
      LastLook index target deadline (missedLook index target now) .late
  | unreadable (reason : Relay.StoreError) :
      LastLook index target deadline [⟨.read index, .error reason⟩] (.unreadable reason)

theorem look_cases {index deadline : Nat} {target : Bool} {again : Talk (Option Verdict)}
    {xs : List Exchange} {verdict : Option Verdict}
    (h : Dialogue.Transcript (look index target deadline again) xs verdict) :
    (∃ final, verdict = some final ∧ LastLook index target deadline xs final) ∨
      ∃ now rest, xs = missedLook index target now ++ rest ∧ now < deadline ∧
        Dialogue.Transcript again rest verdict := by
  obtain ⟨reply, rest, rfl, hrest⟩ := h.of_query_bind
  cases reply with
  | error reason =>
      obtain ⟨rfl, rfl⟩ := hrest.of_done
      exact .inl ⟨_, rfl, .unreadable reason⟩
  | ok state =>
      dsimp only at hrest
      split at hrest
      · rename_i hreached
        subst hreached
        obtain ⟨rfl, rfl⟩ := hrest.of_done
        exact .inl ⟨_, rfl, .reached⟩
      · rename_i hother
        obtain rfl : state = !target := Bool.eq_not_of_ne hother
        obtain ⟨now, rest, rfl, hend⟩ := hrest.of_query_bind
        split at hend
        · rename_i hlate
          obtain ⟨rfl, rfl⟩ := hend.of_done
          exact .inl ⟨_, rfl, .late hlate⟩
        · rename_i hearly
          exact .inr ⟨now, rest, rfl, Nat.lt_of_not_le hearly, hend⟩

def missedTurn (index : Nat) (target : Bool) (now : Nat) : List Exchange :=
  missedLook index target now ++ [⟨.sleep pollInterval, ()⟩]

-- A wait is some looks before the deadline, with a pause after each, and a last look. There is no
-- verdict if that would take one more pause than allowed.
theorem verify_cases {index deadline polls : Nat} {target : Bool} {xs : List Exchange}
    {verdict : Option Verdict}
    (h : Dialogue.Transcript (verify index target deadline polls) xs verdict) :
    ∃ (nows : List Nat) (last : List Exchange),
      xs = nows.flatMap (missedTurn index target) ++ last ∧
      (∀ now ∈ nows, now < deadline) ∧
      ((∃ final, verdict = some final ∧ LastLook index target deadline last final) ∨
        (verdict = none ∧ nows.length = polls ∧
          ∃ now, now < deadline ∧ last = missedLook index target now)) := by
  induction polls generalizing xs with
  | zero =>
      obtain hended | ⟨now, rest, rfl, hnow, hrest⟩ := look_cases h
      · exact ⟨[], xs, rfl, by simp, .inl hended⟩
      · obtain ⟨rfl, rfl⟩ := hrest.of_done
        exact ⟨[], _, rfl, by simp, .inr ⟨rfl, rfl, now, hnow, rfl⟩⟩
  | succ polls ih =>
      obtain hended | ⟨now, rest, rfl, hnow, hrest⟩ := look_cases h
      · exact ⟨[], xs, rfl, by simp, .inl hended⟩
      · obtain ⟨⟨⟩, later, rfl, hlater⟩ := hrest.of_query_bind
        obtain ⟨nows, last, rfl, hnows, hlast⟩ := ih hlater
        refine ⟨now :: nows, last, by simp [missedTurn], List.forall_mem_cons.mpr ⟨hnow, hnows⟩, ?_⟩
        obtain hended | ⟨hnone, hlength, hmissed⟩ := hlast
        · exact .inl hended
        · exact .inr ⟨hnone, congrArg (· + 1) hlength, hmissed⟩

theorem verify_ended {index deadline polls : Nat} {target : Bool} {xs : List Exchange}
    {final : Verdict}
    (h : Dialogue.Transcript (verify index target deadline polls) xs (some final)) :
    ∃ (nows : List Nat) (last : List Exchange),
      xs = nows.flatMap (missedTurn index target) ++ last ∧
        LastLook index target deadline last final := by
  obtain ⟨nows, last, rfl, -, ⟨_, hfinal, hlast⟩ | ⟨hnone, -⟩⟩ := verify_cases h
  · obtain rfl := Option.some.inj hfinal
    exact ⟨nows, last, rfl, hlast⟩
  · cases hnone

theorem report_cases {text failure : String} {xs : List Exchange} {accepted : Bool}
    (h : Dialogue.Transcript (e.report text failure) xs accepted) :
    xs = .published e.topics.update text accepted ::
      if accepted then [] else [⟨.say (.error failure), ()⟩] := by
  obtain ⟨reply, rest, rfl, hrest⟩ := h.of_query_bind
  cases reply with
  | true =>
      obtain ⟨rfl, rfl⟩ := hrest.of_done
      rfl
  | false =>
      obtain ⟨said, rest, rfl, hend⟩ := hrest.of_ask
      obtain ⟨rfl, rfl⟩ := hend.of_done
      rfl

def begun (e : Engine) (index : Nat) (target : Bool) (start : Nat) : List Exchange :=
  [.submitted (.setRelay index target) (.ok ()), ⟨.uptime, start⟩,
    ⟨.sleep e.settings.settle, ()⟩]

-- What the reconciliation of one relay comes to: the command is refused; or the wait for it has no
-- verdict, fails, takes too long, or shows the target, which is then reported.
inductive Applies (e : Engine) (polls : Nat) (sync : Sync) (index : Nat) (target : Bool) :
    List Exchange → Option Applied → Prop
  | refused (reason : Dispatch.Error) :
      e.Applies polls sync index target [.submitted (.setRelay index target) (.error reason)]
        (some (.error (.dispatch reason), sync.set index .waiting))
  | cut {start : Nat} {looks : List Exchange}
      (h : Dialogue.Transcript (verify index target (e.deadline start) polls) looks none) :
      e.Applies polls sync index target (e.begun index target start ++ looks) none
  | unreadable {start : Nat} {looks : List Exchange} {reason : Relay.StoreError}
      (h : Dialogue.Transcript (verify index target (e.deadline start) polls) looks
        (some (.unreadable reason))) :
      e.Applies polls sync index target (e.begun index target start ++ looks)
        (some (.error (.relay reason), sync.set index .verifying))
  | late {start : Nat} {looks : List Exchange}
      (h : Dialogue.Transcript (verify index target (e.deadline start) polls) looks (some .late)) :
      e.Applies polls sync index target (e.begun index target start ++ looks)
        (some (.error (.shadow (.unverified index target)), sync.set index .waiting))
  | reported {start : Nat} {looks : List Exchange}
      (h : Dialogue.Transcript (verify index target (e.deadline start) polls) looks
        (some .reached)) :
      e.Applies polls sync index target (e.begun index target start ++ (looks ++
          [.published e.topics.update (relayReport index target) true]))
        (some (.ok (), sync.set index .reported))
  | unreported {start : Nat} {looks : List Exchange} (notice : Notice)
      (h : Dialogue.Transcript (verify index target (e.deadline start) polls) looks
        (some .reached)) :
      e.Applies polls sync index target (e.begun index target start ++ (looks ++
          [.published e.topics.update (relayReport index target) false, ⟨.say notice, ()⟩]))
        (some (.error (.shadow (.publishRefused e.topics.update)), sync.set index .synced))

theorem apply_cases {polls index : Nat} {sync : Sync} {target : Bool} {xs : List Exchange}
    {outcome : Option Applied}
    (h : Dialogue.Transcript (e.apply polls sync index target) xs outcome) :
    e.Applies polls sync index target xs outcome := by
  obtain ⟨result, rest, rfl, hrest⟩ := h.of_query_bind
  cases result with
  | error reason =>
      obtain ⟨rfl, rfl⟩ := hrest.of_done
      exact .refused reason
  | ok taken =>
      obtain ⟨start, afterStart, rfl, hsettle⟩ := hrest.of_query_bind
      obtain ⟨slept, afterSleep, rfl, hverify⟩ := hsettle.of_query_bind
      obtain ⟨looks, verdict, rest, rfl, hlooks, hend⟩ := hverify.of_bind
      rcases verdict with _ | (_ | _ | reason)
      · obtain ⟨rfl, rfl⟩ := hend.of_done
        rw [List.append_nil]
        exact .cut hlooks
      · obtain ⟨reported, accepted, rest, rfl, hreport, hdone⟩ := hend.of_bind
        obtain rfl := report_cases hreport
        cases accepted with
        | true =>
            obtain ⟨rfl, rfl⟩ := hdone.of_done
            exact .reported hlooks
        | false =>
            obtain ⟨rfl, rfl⟩ := hdone.of_done
            exact .unreported _ hlooks
      · obtain ⟨rfl, rfl⟩ := hend.of_done
        rw [List.append_nil]
        exact .late hlooks
      · obtain ⟨rfl, rfl⟩ := hend.of_done
        rw [List.append_nil]
        exact .unreadable hlooks

-- A command is refused; or it is followed by the settle time, the wait, and a report or none.
theorem apply_parts {polls index : Nat} {sync : Sync} {target : Bool} {xs : List Exchange}
    {outcome : Option Applied}
    (h : Dialogue.Transcript (e.apply polls sync index target) xs outcome) :
    (∃ reason, xs = [.submitted (.setRelay index target) (.error reason)] ∧
        outcome = some (.error (.dispatch reason), sync.set index .waiting)) ∨
      ∃ start looks verdict final, xs = e.begun index target start ++ (looks ++ final) ∧
        Dialogue.Transcript (verify index target (e.deadline start) polls) looks verdict ∧
        (final = [] ∨ ∃ accepted notices, final =
          .published e.topics.update (relayReport index target) accepted :: spoken notices) ∧
        (outcome = none → verdict = none) ∧
        ∀ sync', outcome = some (.error (.shadow (.unverified index target)), sync') →
          verdict = some .late ∧ final = [] := by
  cases apply_cases h with
  | refused reason => exact .inl ⟨reason, rfl, rfl⟩
  | cut hlooks => exact .inr ⟨_, _, _, [], by simp, hlooks, .inl rfl, by simp, by simp⟩
  | unreadable hlooks => exact .inr ⟨_, _, _, [], by simp, hlooks, .inl rfl, by simp, by simp⟩
  | late hlooks => exact .inr ⟨_, _, _, [], by simp, hlooks, .inl rfl, by simp, by simp⟩
  | reported hlooks =>
      exact .inr ⟨_, _, _, _, rfl, hlooks, .inr ⟨true, [], rfl⟩, by simp, by simp⟩
  | unreported notice hlooks =>
      exact .inr ⟨_, _, _, _, rfl, hlooks, .inr ⟨false, [notice], rfl⟩, by simp, by simp⟩

def paused (e : Engine) (issued : Bool) : List Exchange :=
  if issued then [⟨.sleep e.settings.gap, ()⟩] else []

theorem pause_cases {issued : Bool} {next : Talk α} {xs : List Exchange} {result : α}
    (h : Dialogue.Transcript
      (if issued then do sleep e.settings.gap; next else next) xs result) :
    ∃ rest, xs = e.paused issued ++ rest ∧ Dialogue.Transcript next rest result := by
  cases issued with
  | true =>
      obtain ⟨⟨⟩, rest, rfl, hnext⟩ := h.of_query_bind
      exact ⟨rest, rfl, hnext⟩
  | false => exact ⟨xs, rfl, h⟩

theorem sayOutcome_cases {index : Nat} {outcome : Except GatewayError Unit} {xs : List Exchange}
    {done : Unit} (h : Dialogue.Transcript (sayOutcome index outcome) xs done) :
    ∃ notices, xs = spoken notices := by
  cases outcome with
  | ok _ => exact ⟨[], h.of_done.1⟩
  | error reason =>
      obtain ⟨⟨⟩, rest, rfl, hend⟩ := h.of_ask
      rw [hend.of_done.1]
      exact ⟨[_], rfl⟩

theorem sayAll_cases {notices : List Notice} {xs : List Exchange} {done : Unit}
    (h : Dialogue.Transcript (sayAll notices) xs done) : xs = spoken notices := by
  induction notices generalizing xs with
  | nil => exact h.of_done.1
  | cons notice notices ih =>
      obtain ⟨⟨⟩, rest, rfl, hrest⟩ := h.of_query_bind
      rw [ih hrest]
      rfl

-- What is exchanged about targets in order: a relay cannot be looked at, or it shows its target, or
-- its reconciliation is cut off or comes to an end.
inductive Reconciles (e : Engine) (polls : Nat) :
    Bool → Targets → Sync → List Exchange → Option Sync → Prop
  | done (issued : Bool) (sync : Sync) : e.Reconciles polls issued [] sync [] (some sync)
  | unreadable {issued : Bool} {index : Nat} {target : Bool} {targets : Targets} {sync : Sync}
      {xs : List Exchange} {result : Option Sync} (reason : Relay.StoreError) (notice : Notice)
      (hrest : e.Reconciles polls issued targets sync xs result) :
      e.Reconciles polls issued ((index, target) :: targets) sync
        (⟨.read index, .error reason⟩ :: (spoken [notice] ++ xs)) result
  | shown {issued : Bool} {index : Nat} {target : Bool} {targets : Targets} {sync : Sync}
      {xs : List Exchange} {result : Option Sync}
      (hrest : e.Reconciles polls issued targets (sync.set index .synced) xs result) :
      e.Reconciles polls issued ((index, target) :: targets) sync (.saw index target :: xs) result
  | cut {issued : Bool} {index : Nat} {target : Bool} {targets : Targets} {sync : Sync}
      {applied : List Exchange}
      (happly : Dialogue.Transcript (e.apply polls sync index target) applied none) :
      e.Reconciles polls issued ((index, target) :: targets) sync
        (.saw index (!target) :: (e.paused issued ++ applied)) none
  | applied {issued : Bool} {index : Nat} {target : Bool} {targets : Targets} {sync sync' : Sync}
      {applied xs : List Exchange} {outcome : Except GatewayError Unit} {result : Option Sync}
      (notices : List Notice)
      (happly : Dialogue.Transcript (e.apply polls sync index target) applied
        (some (outcome, sync')))
      (hrest : e.Reconciles polls true targets sync' xs result) :
      e.Reconciles polls issued ((index, target) :: targets) sync
        (.saw index (!target) :: (e.paused issued ++ (applied ++ spoken notices) ++ xs)) result

theorem reconcile_cases {polls : Nat} {issued : Bool} {targets : Targets} {sync : Sync}
    {xs : List Exchange} {result : Option Sync}
    (h : Dialogue.Transcript (e.reconcile polls issued targets sync) xs result) :
    e.Reconciles polls issued targets sync xs result := by
  induction targets generalizing issued sync xs with
  | nil =>
      obtain ⟨rfl, rfl⟩ := h.of_done
      exact .done issued sync
  | cons entry targets ih =>
      obtain ⟨index, target⟩ := entry
      obtain ⟨reply, rest, rfl, hrest⟩ := h.of_query_bind
      cases reply with
      | error reason =>
          obtain ⟨⟨⟩, later, rfl, hlater⟩ := hrest.of_query_bind
          exact .unreadable reason _ (ih hlater)
      | ok state =>
          dsimp only at hrest
          split at hrest
          · rename_i hshown
            subst hshown
            exact .shown (ih hrest)
          · rename_i hother
            obtain rfl : state = !target := Bool.eq_not_of_ne hother
            obtain ⟨rest, rfl, happly⟩ := pause_cases hrest
            obtain ⟨applied, outcome, rest, rfl, hcourse, hafter⟩ := happly.of_bind
            cases outcome with
            | none =>
                obtain ⟨rfl, rfl⟩ := hafter.of_done
                rw [List.append_nil]
                exact .cut hcourse
            | some outcome =>
                obtain ⟨said, done, later, rfl, hsaid, hlater⟩ := hafter.of_bind
                obtain ⟨notices, rfl⟩ := sayOutcome_cases hsaid
                rw [← List.append_assoc applied, ← List.append_assoc (e.paused issued)]
                exact .applied notices hcourse (ih hlater)

theorem exists_state_of_fromStore {relays index : Nat}
    {reply : Except Relay.StoreError Bool}
    (h : Exchange.FromStore relays ⟨.read index, reply⟩) (hindex : index < relays) :
    ∃ state, reply = .ok state := by
  obtain ⟨store, rfl, rfl⟩ := h
  unfold Relay.Store.get
  rw [List.getElem?_eq_getElem hindex]
  exact ⟨_, rfl⟩

-- A message is handled by some notices and a reconciliation of its targets.
theorem handleWithin_eq (e : Engine) (polls : Nat) (sync : Sync) (topic : String)
    (payload : List UInt8) :
    ∃ notices, e.handleWithin polls sync topic payload = (sayAll notices >>= fun _ =>
      e.reconcile polls false ((e.targets? sync.length topic payload).getD []) sync) := by
  unfold handleWithin targets?
  cases e.topics.classify topic with
  | none => exact ⟨[], rfl⟩
  | some channel =>
      cases channel with
      | getAccepted =>
          cases Full.ofBytes? sync.length payload with
          | none => exact ⟨[_], rfl⟩
          | some full => exact ⟨full.notices, rfl⟩
      | getRejected => exact ⟨[_], rfl⟩
      | updateDelta =>
          cases Delta.ofBytes? sync.length payload with
          | none => exact ⟨[_], rfl⟩
          | some delta => exact ⟨delta.notices, rfl⟩
      | updateAccepted => exact ⟨[], rfl⟩
      | updateRejected => exact ⟨[_], rfl⟩

theorem targets_lt {relays : Nat} {partition : Json.Mapping} {entry : Nat × Bool}
    (h : entry ∈ targets relays partition) : entry.1 < relays := by
  obtain ⟨_, -, hasks⟩ := exists_of_mem_targets h
  exact hasks.2.1

theorem exists_targets_eq (e : Engine) (relays : Nat) (topic : String) (payload : List UInt8) :
    ∃ partition, (e.targets? relays topic payload).getD [] = targets relays partition := by
  unfold targets?
  split
  · unfold Delta.ofBytes?
    cases deltaState? payload with
    | none => exact ⟨[], rfl⟩
    | some state => exact ⟨state, rfl⟩
  · unfold Full.ofBytes?
    cases partitions? payload with
    | none => exact ⟨[], rfl⟩
    | some partitions => exact ⟨partitions.desired, rfl⟩
  · exact ⟨[], rfl⟩

theorem targets?_ascending (e : Engine) (relays : Nat) (topic : String) (payload : List UInt8) :
    Sorted.Ascending ((e.targets? relays topic payload).getD []) := by
  obtain ⟨partition, hpartition⟩ := e.exists_targets_eq relays topic payload
  rw [hpartition]
  exact Sorted.ascending_ofList _

theorem targets?_lt {relays : Nat} {topic : String} {payload : List UInt8} {entry : Nat × Bool}
    (h : entry ∈ (e.targets? relays topic payload).getD []) : entry.1 < relays := by
  obtain ⟨partition, hpartition⟩ := e.exists_targets_eq relays topic payload
  rw [hpartition] at h
  exact targets_lt h

end Engine

end RelayGateway.Shadow
