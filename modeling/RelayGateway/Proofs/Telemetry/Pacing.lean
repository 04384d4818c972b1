import RelayGateway.Bench.Polling
import Mathlib.Data.List.Forall2

namespace RelayGateway.Telemetry

variable {σ : Type}

namespace Poller

def publishing (labels : List String) (settings : PublisherSettings) (interval : Nat) : Poller where
  labels := labels
  publisher := some settings
  publishInterval := interval

def record (p : Poller) (env : PollSurroundings σ) (reading : Reading) (world : σ) : Record :=
  .merge (some reading) (env.states world) p.labels

def tell (p : Poller) (env : PollSurroundings σ) (reading : Reading) (world : σ) : σ :=
  env.emit (.telemetry (p.record env reading world)) (env.keep reading (env.uptime world) world)

def pollAll (p : Poller) (env : PollSurroundings σ) (world : σ) :
    List (σ → σ) → List (Nat × CycleResult) × Poller × σ
  | [] => ([], p, world)
  | change :: changes =>
    let now := env.uptime (env.receive (change world)).2
    let (result, p, world) := p.poll env (change world)
    let (results, p, world) := pollAll p env world changes
    ((now, result) :: results, p, world)

end Poller

inductive Deed where
  | idle (now : Nat)
  | held (now : Nat)
  | tried (now accepted : Nat)

namespace Deed

def now : Deed → Nat
  | idle now | held now | tried now _ => now

def attempt? : Deed → Option Nat
  | tried now _ => some now
  | _ => none

end Deed

-- What a cycle does and what it leaves. Without a reading it only looks at the link; a reading that
-- is held back is kept and told; one that is offered is published on top of that. Only an attempt
-- changes the poller.
inductive Cycle (env : PollSurroundings σ) (settings : PublisherSettings) (p : Poller) (world : σ) :
    Deed → CycleResult × Poller × σ → Prop
  | idle {received : Received} {found : σ} {result : CycleResult}
      (hreceive : env.receive world = (received, found))
      (hreceived : ∀ reading, received ≠ .reading reading)
      (hresult : ∀ published, result ≠ .telemetry published) :
      Cycle env settings p world (.idle (env.uptime found)) (result, p, found)
  | held {reading : Reading} {found : σ} (hreceive : env.receive world = (.reading reading, found)) :
      Cycle env settings p world (.held (env.uptime found))
        (.telemetry false, p, p.tell env reading found)
  | tried {reading : Reading} {found last : σ} {accepted : Nat}
      (hreceive : env.receive world = (.reading reading, found))
      (hpublish : settings.publish env.outlet (p.record env reading found)
        (env.epoch (p.tell env reading found)) (p.tell env reading found) = (accepted, last)) :
      Cycle env settings p world (.tried (env.uptime found) accepted)
        (.telemetry (0 < accepted), { p with lastAttempt := some (env.uptime found) }, last)

inductive Cycles (env : PollSurroundings σ) (settings : PublisherSettings) :
    Poller → σ → List (σ → σ) → List Deed → List (Nat × CycleResult) × Poller × σ → Prop
  | nil (p : Poller) (world : σ) : Cycles env settings p world [] [] ([], p, world)
  | cons {p p' p'' : Poller} {world world' world'' : σ} {change : σ → σ} {changes : List (σ → σ)}
      {deed : Deed} {deeds : List Deed} {result : CycleResult} {results : List (Nat × CycleResult)}
      (hfirst : Cycle env settings p (change world) deed (result, p', world'))
      (hrest : Cycles env settings p' world' changes deeds (results, p'', world'')) :
      Cycles env settings p world (change :: changes) (deed :: deeds)
        ((deed.now, result) :: results, p'', world'')

-- When a reading is offered: the last attempt, if there was one, is the interval ago.
def Ready (interval : Nat) (last : Option Nat) (now : Nat) : Prop :=
  ∀ time ∈ last, time + interval ≤ now

def Deed.Fair (interval : Nat) (last : Option Nat) : Deed → Prop
  | idle _ => True
  | held now => ¬ Ready interval last now
  | tried now _ => Ready interval last now

def latest (deeds : List Deed) : Option Nat := (deeds.filterMap Deed.attempt?).getLast?

-- What keeping to an interval means for a whole run: any two attempts are apart, and each reading is
-- offered or held back as the time since the last attempt asks for.
structure Paced (interval : Nat) (deeds : List Deed) : Prop where
  spaced : (deeds.filterMap Deed.attempt?).Pairwise fun earlier later => earlier + interval ≤ later
  fair : ∀ before deed after, deeds = before ++ deed :: after → deed.Fair interval (latest before)

def Reports (deed : Deed) (result : Nat × CycleResult) : Prop :=
  result.2 = .telemetry true ↔ ∃ now accepted, deed = .tried now accepted ∧ 0 < accepted

def Keeping (interval : Nat) : Option Nat → List Deed → Prop
  | _, [] => True
  | last, deed :: deeds => deed.Fair interval last ∧ Keeping interval (deed.attempt?.or last) deeds

section Cycles

variable {env : PollSurroundings σ} {settings : PublisherSettings} {p p' : Poller}
  {world world' : σ} {deed : Deed} {result : CycleResult}

theorem Cycle.reports (h : Cycle env settings p world deed (result, p', world')) (now : Nat) :
    Reports deed (now, result) := by
  cases h with
  | idle hreceive hreceived hresult => simp [Reports, hresult]
  | held hreceive => simp [Reports]
  | tried hreceive hpublish => simp [Reports]

theorem Cycle.poller_eq (h : Cycle env settings p world deed (result, p', world')) :
    p' = { p with lastAttempt := deed.attempt?.or p.lastAttempt } := by
  cases h with
  | idle hreceive hreceived hresult => rfl
  | held hreceive => rfl
  | tried hreceive hpublish => rfl

theorem Cycles.reports {changes : List (σ → σ)} {deeds : List Deed}
    {results : List (Nat × CycleResult)}
    (h : Cycles env settings p world changes deeds (results, p', world')) :
    List.Forall₂ Reports deeds results := by
  generalize hrun : (results, p', world') = run at h
  induction h generalizing results with
  | nil p world =>
      cases hrun
      exact .nil
  | cons hfirst hrest ih =>
      cases hrun
      exact .cons (hfirst.reports _) (ih rfl)

end Cycles

namespace Poller

-- On a clock that does not go back, an attempt is due exactly if the last one is the interval ago.
theorem isDue_iff {p : Poller} {now : Nat} (hclock : ∀ time ∈ p.lastAttempt, time ≤ now) :
    p.isDue now = true ↔ Ready p.publishInterval p.lastAttempt now := by
  unfold isDue Ready
  cases hlast : p.lastAttempt with
  | none => simp
  | some time =>
      have hpast : time ≤ now := hclock time hlast
      have hdue : p.publishInterval ≤ now - time ↔ time + p.publishInterval ≤ now := by omega
      simp [hdue]

theorem poll_cycle {p : Poller} {settings : PublisherSettings} {env : PollSurroundings σ} {world : σ}
    (hpublisher : p.publisher = some settings)
    (hclock : ∀ time ∈ p.lastAttempt, time ≤ env.uptime (env.receive world).2) :
    ∃ deed, Cycle env settings p world deed (p.poll env world) ∧
      deed.now = env.uptime (env.receive world).2 ∧ deed.Fair p.publishInterval p.lastAttempt := by
  rcases hreceive : env.receive world with ⟨received, found⟩
  rw [hreceive] at hclock
  have hdue := isDue_iff hclock
  cases received with
  | reading reading =>
      have hpoll : p.poll env world = p.distribute env reading found := by
        simp only [poll, hreceive]
      rw [hpoll]
      by_cases hready : p.isDue (env.uptime found)
      · rcases hpublish : settings.publish env.outlet (p.record env reading found)
          (env.epoch (p.tell env reading found)) (p.tell env reading found) with ⟨accepted, last⟩
        have hrun : p.distribute env reading found = (.telemetry (0 < accepted),
            { p with lastAttempt := some (env.uptime found) }, last) := by
          rw [tell, record] at hpublish
          simp only [distribute, attempt?, hready, if_true, hpublisher, hpublish]
        rw [hrun]
        exact ⟨_, .tried hreceive hpublish, rfl, hdue.mp hready⟩
      · have hrun : p.distribute env reading found =
            (.telemetry false, p, p.tell env reading found) := by
          simp only [distribute, attempt?, hready, Bool.false_eq_true, if_false]
          rfl
        rw [hrun]
        exact ⟨_, .held hreceive, rfl, fun h => hready (hdue.mpr h)⟩
  | nothing =>
      have hpoll : p.poll env world = (.silent, p, found) := by simp only [poll, hreceive]
      rw [hpoll]
      exact ⟨_, .idle hreceive (by simp) (by simp), rfl, trivial⟩
  | undecodable =>
      have hpoll : p.poll env world = (.undecodable, p, found) := by simp only [poll, hreceive]
      rw [hpoll]
      exact ⟨_, .idle hreceive (by simp) (by simp), rfl, trivial⟩
  | linkLost reconnected =>
      have hpoll : p.poll env world = (.linkLost reconnected, p, found) := by
        simp only [poll, hreceive]
      rw [hpoll]
      exact ⟨_, .idle hreceive (by simp) (by simp), rfl, trivial⟩

end Poller

theorem Deed.attempt?_cases (deed : Deed) :
    deed.attempt? = none ∨ deed.attempt? = some deed.now := by
  cases deed with
  | idle now => exact .inl rfl
  | held now => exact .inl rfl
  | tried now accepted => exact .inr rfl

-- The last attempt is never ahead of the clock, which is what each cycle needs.
theorem Poller.pollAll_keeping {p : Poller} {settings : PublisherSettings}
    {env : PollSurroundings σ} {world : σ} {changes : List (σ → σ)}
    (hpublisher : p.publisher = some settings)
    (hclock : (p.lastAttempt.toList ++ (p.pollAll env world changes).1.map Prod.fst).Pairwise
      (· ≤ ·)) :
    ∃ deeds, Cycles env settings p world changes deeds (p.pollAll env world changes) ∧
      Keeping p.publishInterval p.lastAttempt deeds := by
  induction changes generalizing p world with
  | nil => exact ⟨[], .nil p world, trivial⟩
  | cons change changes ih =>
      simp only [pollAll, List.map_cons] at hclock ⊢
      obtain ⟨hlast, htimes, hcross⟩ := List.pairwise_append.mp hclock
      have hpast : ∀ time ∈ p.lastAttempt,
          time ≤ env.uptime (env.receive (change world)).2 := by
        intro time htime
        exact hcross time (Option.mem_toList.mpr htime) _ List.mem_cons_self
      obtain ⟨deed, hcycle, hnow, hfair⟩ := poll_cycle hpublisher hpast
      rcases hrun : p.poll env (change world) with ⟨result, p', world'⟩
      rw [hrun] at hcycle hclock htimes hcross
      have hpoller := hcycle.poller_eq
      have hnext : (p'.lastAttempt.toList ++
          (p'.pollAll env world' changes).1.map Prod.fst).Pairwise (· ≤ ·) := by
        rw [hpoller] at htimes hcross ⊢
        obtain hnone | hsome := deed.attempt?_cases
        · simp only [hnone, Option.none_or] at htimes hcross ⊢
          refine List.pairwise_append.mpr ⟨hlast, htimes.of_cons, ?_⟩
          intro time htime later hlater
          exact hcross time htime later (List.mem_cons_of_mem _ hlater)
        · simp only [hsome, hnow, Option.some_or] at htimes ⊢
          exact htimes
      obtain ⟨deeds, hcycles, hkeeping⟩ := ih (by rw [hpoller]; exact hpublisher) hnext
      refine ⟨deed :: deeds, ?_, ?_⟩
      · have hcons := Cycles.cons hcycle hcycles
        rw [hnow] at hcons
        exact hcons
      · rw [hpoller] at hkeeping
        exact ⟨hfair, hkeeping⟩

theorem latest_cons (deed : Deed) (deeds : List Deed) :
    latest (deed :: deeds) = (latest deeds).or deed.attempt? := by
  unfold latest
  cases hattempt : deed.attempt? with
  | none => rw [List.filterMap_cons_none hattempt, Option.or_none]
  | some now =>
      rw [List.filterMap_cons_some hattempt, List.getLast?_cons]
      cases (deeds.filterMap Deed.attempt?).getLast? <;> rfl

theorem Keeping.behind {interval : Nat} {last : Option Nat} {before deeds : List Deed}
    (h : Keeping interval last (before ++ deeds)) :
    Keeping interval ((latest before).or last) deeds := by
  induction before generalizing last with
  | nil => exact h
  | cons deed before ih =>
      rw [latest_cons, Option.or_assoc]
      exact ih h.2

theorem Keeping.spaced {interval : Nat} {last : Option Nat} {deeds : List Deed}
    (h : Keeping interval last deeds) :
    (last.toList ++ deeds.filterMap Deed.attempt?).Pairwise
      fun earlier later => earlier + interval ≤ later := by
  induction deeds generalizing last with
  | nil => cases last <;> simp
  | cons deed deeds ih =>
      obtain ⟨hfair, hrest⟩ := h
      have hlater := ih hrest
      cases deed with
      | idle now => exact hlater
      | held now => exact hlater
      | tried now accepted =>
          change (last.toList ++ now :: deeds.filterMap Deed.attempt?).Pairwise _
          refine List.pairwise_append.mpr ⟨by cases last <;> simp, hlater, ?_⟩
          intro time htime later hmem
          have hnow : time + interval ≤ now := hfair time (Option.mem_toList.mp htime)
          obtain rfl | hmem := List.mem_cons.mp hmem
          · exact hnow
          · have hnext : now + interval ≤ later := (List.pairwise_cons.mp hlater).1 later hmem
            omega

theorem Keeping.paced {interval : Nat} {deeds : List Deed} (h : Keeping interval none deeds) :
    Paced interval deeds where
  spaced := h.spaced
  fair before deed after hsplit := by
    subst hsplit
    have hbehind := h.behind
    rw [Option.or_none] at hbehind
    exact hbehind.1

-- Whatever the link gives, whatever becomes of the messages, and whatever changes between cycles:
-- on a clock that does not go back, each reading is offered exactly if the interval has passed since
-- the last attempt or there was none, and results tell truly whether something was published.
theorem pollAll_paced (labels : List String) (settings : PublisherSettings) (interval : Nat)
    (env : PollSurroundings σ) (world : σ) (changes : List (σ → σ))
    (hclock : (((Poller.publishing labels settings interval).pollAll env world changes).1.map
      Prod.fst).Pairwise (· ≤ ·)) :
    let p := Poller.publishing labels settings interval
    ∃ deeds, Cycles env settings p world changes deeds (p.pollAll env world changes) ∧
      Paced interval deeds ∧ List.Forall₂ Reports deeds (p.pollAll env world changes).1 := by
  intro p
  obtain ⟨deeds, hcycles, hkeeping⟩ := Poller.pollAll_keeping (p := p) rfl hclock
  exact ⟨deeds, hcycles, hkeeping.paced, hcycles.reports⟩

def threeFrames : Bench.Polling where
  station :=
    { transport :=
        { settings := ⟨"sim0", 9600, .ofMillis 10⟩, retry := ⟨1, .ofMillis 0⟩, state := .connected,
          isOpen := true }
      wire :=
        { ports := ["sim0"]
          unread := (List.replicate 3 [0xFF, 0xFE, 14, 0, 0, 0, 0xAC, 0x41, 0, 0, 0, 0, 0, 0, 0, 0,
            0, 0, 0xFD, 0xFC]).flatten.map .byte } }
  store := .new 1
  port := {}

def moved (ms : Nat) (connected : Bool) (b : Bench.Polling) : Bench.Polling :=
  { b with
    clock := ⟨ms⟩
    port := { b.port with broker := { b.port.broker with connected } } }

-- The first attempt is refused, and yet nothing more is tried until the interval has passed to the
-- millisecond.
theorem pollAll_paced_refusedFirst :
    let p := Poller.publishing ["pump"] ⟨true, "t", {}, false⟩ 5000
    let changes := [moved 7 false, moved 5006 true, moved 5007 true, moved 5008 true]
    let run := p.pollAll Bench.Polling.surroundings threeFrames changes
    (run.1.map Prod.fst).Pairwise (· ≤ ·) ∧
      run.1 = [(7, .telemetry false), (5006, .telemetry false), (5007, .telemetry true),
        (5008, .silent)] ∧
      ∃ deeds, Cycles Bench.Polling.surroundings ⟨true, "t", {}, false⟩ p threeFrames changes deeds
          run ∧ Paced 5000 deeds ∧ List.Forall₂ Reports deeds run.1 := by
  intro p changes run
  have hrun : run.1 = [(7, .telemetry false), (5006, .telemetry false), (5007, .telemetry true),
      (5008, .silent)] := by decide +kernel
  have hclock : (run.1.map Prod.fst).Pairwise (· ≤ ·) := by
    rw [hrun]
    decide
  exact ⟨hclock, hrun,
    pollAll_paced ["pump"] ⟨true, "t", {}, false⟩ 5000 Bench.Polling.surroundings threeFrames
      changes hclock⟩

end RelayGateway.Telemetry
