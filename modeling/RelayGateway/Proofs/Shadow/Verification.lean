import RelayGateway.Proofs.Shadow.Effects

namespace RelayGateway.Shadow

def Dated (R : Nat → Nat → Prop) (base : Nat) : Exchange → Prop
  | ⟨.uptime, now⟩ => R base now
  | _ => True

-- What the clock shows after an exchange, if nothing but sleeps moves it. It stops at the latest
-- uptime.
def clockAfter (base : Nat) : Exchange → Nat
  | ⟨.uptime, now⟩ => now
  | ⟨.sleep length, _⟩ => min (base + length.millis) Engine.maxUptime
  | _ => base

-- Whether each uptime among exchanges is related by `R` to the one that the clock shows if since
-- the uptime before it only the sleeps have moved it.
def Clocked (R : Nat → Nat → Prop) : Nat → List Exchange → Prop
  | _, [] => True
  | base, x :: rest => Dated R base x ∧ Clocked R (clockAfter base x) rest

theorem Dated.mono {R R' : Nat → Nat → Prop} (hR : ∀ base now, R base now → R' base now)
    {base : Nat} {x : Exchange} (h : Dated R base x) : Dated R' base x := by
  obtain ⟨query, reply⟩ := x
  cases query with
  | uptime => exact hR base reply h
  | _ => trivial

theorem Clocked.mono {R R' : Nat → Nat → Prop} (hR : ∀ base now, R base now → R' base now)
    {base : Nat} {xs : List Exchange} (h : Clocked R base xs) : Clocked R' base xs := by
  induction xs generalizing base with
  | nil => trivial
  | cons x xs ih => exact ⟨h.1.mono hR, ih h.2⟩

theorem clocked_append {R : Nat → Nat → Prop} {base : Nat} {xs ys : List Exchange} :
    Clocked R base (xs ++ ys) ↔ Clocked R base xs ∧ Clocked R (xs.foldl clockAfter base) ys := by
  induction xs generalizing base with
  | nil => simp [Clocked]
  | cons x xs ih => rw [List.cons_append, Clocked, ih, Clocked, and_assoc, List.foldl_cons]

namespace Engine

variable {e : Engine}

def mostPauses (e : Engine) : Nat := (e.settings.settle.millis + 24) / 25

theorem mostPauses_le_pollBudget (e : Engine) : e.mostPauses ≤ e.pollBudget := by
  unfold mostPauses pollBudget
  omega

theorem millis_pollInterval : pollInterval.millis = 25 := by decide

theorem deadline_le_maxUptime (e : Engine) (start : Nat) : e.deadline start ≤ maxUptime :=
  Nat.min_le_right _ _

theorem deadline_le (e : Engine) (start : Nat) :
    e.deadline start ≤ start + 2 * e.settings.settle.millis := by
  unfold deadline
  omega

theorem deadline_eq {start : Nat} (h : start + 2 * e.settings.settle.millis < 2 ^ 64) :
    e.deadline start = start + 2 * e.settings.settle.millis := by
  unfold deadline maxUptime
  omega

theorem clocked_begun {R : Nat → Nat → Prop} {index base start : Nat} {target : Bool}
    {rest : List Exchange} :
    Clocked R base (e.begun index target start ++ rest) ↔
      R base start ∧ Clocked R (min (start + e.settings.settle.millis) maxUptime) rest := by
  constructor
  · rintro ⟨-, hstart, -, hrest⟩
    exact ⟨hstart, hrest⟩
  · rintro ⟨hstart, hrest⟩
    exact ⟨trivial, hstart, trivial, hrest⟩

theorem clocked_missedLook {R : Nat → Nat → Prop} {index base now : Nat} {target : Bool}
    {rest : List Exchange} :
    Clocked R base (missedLook index target now ++ rest) ↔ R base now ∧ Clocked R now rest := by
  constructor
  · rintro ⟨-, hnow, hrest⟩
    exact ⟨hnow, hrest⟩
  · rintro ⟨hnow, hrest⟩
    exact ⟨trivial, hnow, hrest⟩

theorem clocked_turns_cons {R : Nat → Nat → Prop} {index base now : Nat} {target : Bool}
    {nows : List Nat} {rest : List Exchange} :
    Clocked R base ((now :: nows).flatMap (missedTurn index target) ++ rest) ↔
      R base now ∧
        Clocked R (min (now + 25) maxUptime) (nows.flatMap (missedTurn index target) ++ rest) := by
  rw [← millis_pollInterval, List.flatMap_cons, missedTurn, List.append_assoc, List.append_assoc,
    clocked_missedLook, clocked_append]
  exact and_congr_right' (and_iff_right ⟨trivial, trivial⟩)

theorem clock_le_after_turns {index base : Nat} {target : Bool} {nows : List Nat}
    {rest : List Exchange}
    (hclock : Clocked (· ≤ ·) base (nows.flatMap (missedTurn index target) ++ rest)) :
    ∃ base', min (base + 25 * nows.length) maxUptime ≤ base' ∧ Clocked (· ≤ ·) base' rest := by
  induction nows generalizing base with
  | nil => exact ⟨base, Nat.min_le_left _ _, hclock⟩
  | cons now nows ih =>
      obtain ⟨hbase, hrest⟩ := clocked_turns_cons.mp hclock
      obtain ⟨base', hbase', hlast⟩ := ih hrest
      refine ⟨base', ?_, hlast⟩
      rw [List.length_cons]
      omega

theorem clock_eq_after_turns {index base : Nat} {target : Bool} {nows : List Nat}
    {rest : List Exchange}
    (hclock : Clocked Eq (min base maxUptime) (nows.flatMap (missedTurn index target) ++ rest)) :
    Clocked Eq (min (base + 25 * nows.length) maxUptime) rest := by
  induction nows generalizing base with
  | nil => exact hclock
  | cons now nows ih =>
      obtain ⟨rfl, hrest⟩ := clocked_turns_cons.mp hclock
      have hmoved : min (min base maxUptime + 25) maxUptime = min (base + 25) maxUptime := by omega
      rw [hmoved] at hrest
      have hlast := ih hrest
      have hlength : base + 25 * (nows.length + 1) = base + 25 + 25 * nows.length := by omega
      rwa [List.length_cons, hlength]

-- The look before the last pause was still before the deadline, so the pauses are no more than the
-- settle time holds.
theorem length_le_mostPauses {index start : Nat} {target : Bool} {nows : List Nat}
    {rest : List Exchange} (hnows : ∀ now ∈ nows, now < e.deadline start)
    (hclock : Clocked (· ≤ ·) (min (start + e.settings.settle.millis) maxUptime)
      (nows.flatMap (missedTurn index target) ++ rest)) :
    nows.length ≤ e.mostPauses := by
  have hlatest := e.deadline_le_maxUptime start
  have hdeadline := e.deadline_le start
  obtain rfl | ⟨front, now, rfl⟩ := nows.eq_nil_or_concat
  · exact Nat.zero_le _
  · rw [List.concat_eq_append] at hnows hclock ⊢
    rw [List.flatMap_append, List.append_assoc] at hclock
    obtain ⟨base', hbase', hlast⟩ := clock_le_after_turns hclock
    have hnow := hnows now (by simp)
    obtain ⟨hle, -⟩ := clocked_turns_cons.mp hlast
    unfold mostPauses
    rw [List.length_append, List.length_singleton]
    omega

-- The looks of a wait before its deadline take less than the settle time, so enough pauses are
-- never used up.
theorem apply_ne_none {polls index base : Nat} {sync : Sync} {target : Bool} {xs : List Exchange}
    {outcome : Option Applied}
    (h : Dialogue.Transcript (e.apply polls sync index target) xs outcome)
    (hclock : Clocked (· ≤ ·) base xs) (hpolls : e.mostPauses ≤ polls) : outcome ≠ none := by
  intro hcut
  obtain ⟨reason, -, hrefused⟩ | ⟨start, looks, verdict, final, rfl, hlooks, -, hnone, -⟩ :=
    apply_parts h
  · rw [hcut] at hrefused
    cases hrefused
  obtain ⟨nows, last, rfl, -, ⟨_, hended, -⟩ | ⟨-, hlength, now, hnow, rfl⟩⟩ := verify_cases hlooks
  · rw [hnone hcut] at hended
    cases hended
  · -- the last look was made before the deadline, behind all pauses
    rw [List.append_assoc] at hclock
    obtain ⟨-, hwait⟩ := clocked_begun.mp hclock
    obtain ⟨base', hbase', hlast⟩ := clock_le_after_turns hwait
    obtain ⟨hle, -⟩ := clocked_missedLook.mp hlast
    have hlatest := e.deadline_le_maxUptime start
    have hdeadline := e.deadline_le start
    unfold mostPauses at hpolls
    omega

theorem reconcile_ne_none {polls base : Nat} {issued : Bool} {targets : Targets} {sync : Sync}
    {xs : List Exchange} {result : Option Sync}
    (h : Dialogue.Transcript (e.reconcile polls issued targets sync) xs result)
    (hclock : Clocked (· ≤ ·) base xs) (hpolls : e.mostPauses ≤ polls) : result ≠ none := by
  replace h := reconcile_cases h
  induction h generalizing base with
  | done issued sync => simp
  | unreadable reason notice hrest ih => exact ih (clocked_append.mp hclock.2).2
  | shown hrest ih => exact ih hclock.2
  | cut happly =>
      exact absurd rfl (apply_ne_none happly (clocked_append.mp hclock.2).2 hpolls)
  | applied notices happly hrest ih => exact ih (clocked_append.mp hclock.2).2

-- While the clock keeps time, a message is handled to the end within the budget.
theorem handle_ne_none {base : Nat} {sync : Sync} {topic : String} {payload : List UInt8}
    {xs : List Exchange} {result : Option Sync}
    (h : Dialogue.Transcript (e.handle sync topic payload) xs result)
    (hclock : Clocked (· ≤ ·) base xs) : result ≠ none := by
  obtain ⟨notices, heq⟩ := e.handleWithin_eq e.pollBudget sync topic payload
  rw [handle, heq] at h
  obtain ⟨said, done, rest, rfl, -, hrest⟩ := h.of_bind
  exact reconcile_ne_none hrest (clocked_append.mp hclock).2 e.mostPauses_le_pollBudget

-- On a clock that each sleep moves on by at least its length, the wait has a verdict within as many
-- pauses as the settle time holds, counted up. If it fails, all looks were at the other state, with
-- one after each sleep; and if only sleeps move the clock, it took just that many pauses.
theorem apply_waits {polls index base : Nat} {sync : Sync} {target : Bool} {xs : List Exchange}
    {outcome : Option Applied}
    (h : Dialogue.Transcript (e.apply polls sync index target) xs outcome)
    (hclock : Clocked (· ≤ ·) base xs) :
    (e.mostPauses ≤ polls → outcome ≠ none) ∧
      (∃ later, effects xs = .submit (.setRelay index target) :: later ∧
        (later = [] ∨ ∃ pauses reports, pauses ≤ e.mostPauses ∧
          later = .sleep e.settings.settle :: List.replicate pauses (.sleep pollInterval) ++ reports ∧
          (reports = [] ∨ reports = [.publish e.topics.update (relayReport index target)]))) ∧
      ∀ sync', outcome = some (.error (.shadow (.unverified index target)), sync') →
        (∃ (start : Nat) (nows : List Nat) (last : Nat), xs = e.begun index target start ++
            (nows.flatMap (missedTurn index target) ++ missedLook index target last) ∧
          (∀ now ∈ nows, now < e.deadline start) ∧ e.deadline start ≤ last) ∧
        (Clocked Eq base xs → base + 2 * e.settings.settle.millis < 2 ^ 64 →
          effects xs = .submit (.setRelay index target) :: .sleep e.settings.settle ::
            List.replicate e.mostPauses (.sleep pollInterval)) := by
  have hended := apply_ne_none h hclock
  obtain ⟨reason, rfl, rfl⟩ | ⟨start, looks, verdict, final, rfl, hlooks, hfinal, -, hlate⟩ :=
    apply_parts h
  · exact ⟨hended, ⟨[], rfl, .inl rfl⟩, by simp⟩
  obtain ⟨nows, last, rfl, hnows, hlast⟩ := verify_cases hlooks
  rw [List.append_assoc] at hclock ⊢
  have hreports : effects final = [] ∨
      effects final = [.publish e.topics.update (relayReport index target)] := by
    obtain rfl | ⟨accepted, notices, rfl⟩ := hfinal
    · exact .inl rfl
    · exact .inr (by simp)
  obtain ⟨-, hwait⟩ := clocked_begun.mp hclock
  have hpauses := length_le_mostPauses hnows hwait
  have hsilent : effects last = [] := by
    obtain ⟨_, -, hfound⟩ | ⟨-, -, now, -, rfl⟩ := hlast
    · exact hfound.effects_eq
    · rfl
  refine ⟨hended,
    ⟨_, by simp [begun, hsilent], .inr ⟨nows.length, effects final, hpauses, rfl, hreports⟩⟩, ?_⟩
  intro sync' hfailed
  obtain ⟨rfl, rfl⟩ := hlate sync' hfailed
  obtain ⟨_, hverdict, hlast⟩ | ⟨hnever, -⟩ := hlast
  · cases hverdict
    cases hlast with
    | @late now hnow =>
        rw [List.append_nil]
        refine ⟨⟨start, nows, now, rfl, hnows, hnow⟩, fun hexact hword => ?_⟩
        obtain ⟨rfl, hturns⟩ := clocked_begun.mp hexact
        obtain ⟨-, hlast, -⟩ := clock_eq_after_turns hturns
        have hmoved : min (base + e.settings.settle.millis + 25 * nows.length) maxUptime = now :=
          hlast
        have hdeadline := deadline_eq hword
        have hlength : nows.length = e.mostPauses := by
          unfold mostPauses at hpauses ⊢
          unfold maxUptime at hmoved
          omega
        simp [begun, hlength]
  · cases hnever

-- A relay that does not switch: with a settle time that is no multiple of the pause, the last look
-- is behind the deadline.
theorem apply_waits_sixty :
    let e : Engine := { verdure with settings := { settle := .ofMillis 60 } }
    let talk := e.apply 3 [.waiting] 0 true
    let xs := e.begun 0 true 7 ++
      ([67, 92, 117].flatMap (missedTurn 0 true) ++ missedLook 0 true 142)
    talk.trace lateRelay 7 = xs ∧ Clocked Eq 7 xs ∧
      7 + 2 * e.settings.settle.millis < 2 ^ 64 ∧ e.mostPauses = 3 ∧
      effects xs = .submit (.setRelay 0 true) :: .sleep (.ofMillis 60) ::
        List.replicate 3 (.sleep pollInterval) := by
  intro e talk xs
  have htrace : talk.trace lateRelay 7 = xs := by decide +kernel
  have hresult : (talk.run lateRelay 7).1 =
      some (.error (.shadow (.unverified 0 true)), [.waiting]) := by decide +kernel
  have hexact : Clocked Eq 7 xs := clocked_begun.mpr ⟨rfl, clocked_turns_cons.mpr ⟨by decide,
    clocked_turns_cons.mpr ⟨by decide, clocked_turns_cons.mpr ⟨by decide,
      clocked_missedLook.mpr ⟨by decide, trivial⟩⟩⟩⟩⟩
  have hword : 7 + 2 * e.settings.settle.millis < 2 ^ 64 := by decide
  have h := Dialogue.transcript_trace lateRelay talk 7
  rw [htrace, hresult] at h
  obtain ⟨-, -, hfailed⟩ := apply_waits h (hexact.mono fun _ _ => Nat.le_of_eq)
  have hpauses := (hfailed _ rfl).2 hexact hword
  have hthree : e.mostPauses = 3 := by decide
  rw [hthree] at hpauses
  exact ⟨htrace, hexact, hword, hthree, hpauses⟩

end Engine

end RelayGateway.Shadow
