import RelayGateway.Text.Utf8
import RelayGateway.Proofs.Shadow.Course

namespace RelayGateway.Shadow

@[simp] def Query.isEffect : Query → Bool
  | .submit _ => true
  | .sleep _ => true
  | .publish _ _ => true
  | .read _ => false
  | .uptime => false
  | .say _ => false

def effects (exchanges : List Exchange) : List Query :=
  (exchanges.map (·.query)).filter Query.isEffect

@[simp] theorem effects_nil : effects [] = [] := rfl

@[simp] theorem effects_cons (x : Exchange) (rest : List Exchange) :
    effects (x :: rest) = if x.query.isEffect then x.query :: effects rest else effects rest := by
  simp only [effects, List.map_cons, List.filter_cons]

@[simp] theorem effects_append (xs ys : List Exchange) :
    effects (xs ++ ys) = effects xs ++ effects ys := by
  simp only [effects, List.map_append, List.filter_append]

theorem effects_flatten (blocks : List (List Exchange)) :
    effects blocks.flatten = blocks.flatMap effects := by
  induction blocks with
  | nil => rfl
  | cons xs blocks ih => rw [List.flatten_cons, effects_append, ih, List.flatMap_cons]

theorem mem_effects_of_published {topic text : String} {accepted : Bool} {xs : List Exchange}
    (h : .published topic text accepted ∈ xs) : .publish topic text ∈ effects xs :=
  List.mem_filter.mpr ⟨List.mem_map_of_mem h, rfl⟩

theorem published_notMem {topic text : String} {accepted : Bool} {xs : List Exchange}
    (h : .publish topic text ∉ effects xs) : .published topic text accepted ∉ xs :=
  fun hmem => h (mem_effects_of_published hmem)

@[simp] theorem effects_spoken (notices : List Notice) : effects (spoken notices) = [] := by
  induction notices with
  | nil => rfl
  | cons notice notices ih => exact ih

-- Every report is of one of the targets, which the store was just seen to hold and for which a
-- command was taken.
def Honest (e : Engine) (targets : Targets) (xs : List Exchange) : Prop :=
  ∀ before topic text accepted after, xs = before ++ .published topic text accepted :: after →
    ∃ index target front, (index, target) ∈ targets ∧ topic = e.topics.update ∧
      text = relayReport index target ∧ before = front ++ [.saw index target] ∧
      .submitted (.setRelay index target) (.ok ()) ∈ front

namespace Honest

variable {e : Engine} {targets : Targets} {xs ys : List Exchange}

theorem of_silent (h : ∀ topic text, .publish topic text ∉ effects xs) : Honest e targets xs := by
  rintro before topic text accepted after rfl
  have hmem : .published topic text accepted ∈ before ++ .published topic text accepted :: after :=
    List.mem_append_right before List.mem_cons_self
  exact absurd hmem (published_notMem (h topic text))

theorem append (hxs : Honest e targets xs) (hys : Honest e targets ys) :
    Honest e targets (xs ++ ys) := by
  intro before topic text accepted after hsplit
  obtain ⟨middle, rfl, hys'⟩ | ⟨middle, hxs', hmiddle⟩ := List.append_eq_append_iff.mp hsplit
  · obtain ⟨index, target, front, hmem, htopic, htext, rfl, hsubmit⟩ := hys _ _ _ _ _ hys'
    refine ⟨index, target, xs ++ front, hmem, htopic, htext, (List.append_assoc ..).symm, ?_⟩
    exact List.mem_append_right xs hsubmit
  · cases middle with
    | nil => simpa using hys [] topic text accepted after hmiddle.symm
    | cons first middle =>
        obtain ⟨rfl, -⟩ := List.cons.inj hmiddle
        exact hxs _ _ _ _ _ hxs'

theorem mono {more : Targets} (h : Honest e targets xs) (hsubset : targets ⊆ more) :
    Honest e more xs := by
  intro before topic text accepted after hsplit
  obtain ⟨index, target, front, hmem, hrest⟩ := h _ _ _ _ _ hsplit
  exact ⟨index, target, front, hsubset hmem, hrest⟩

end Honest

namespace Engine

variable {e : Engine}

def pause (e : Engine) (issued : Bool) : List Query :=
  if issued then [.sleep e.settings.gap] else []

@[simp] theorem effects_paused (e : Engine) (issued : Bool) :
    effects (e.paused issued) = e.pause issued := by
  cases issued <;> rfl

-- What may follow the submit of a command: nothing if it was refused; else the settle time,
-- pauses, and one report or none.
def Aftermath (e : Engine) (index : Nat) (target : Bool) :
    Except Dispatch.Error Unit → List Query → Prop
  | .error _, later => later = []
  | .ok (), later => ∃ waits reports,
    later = .sleep e.settings.settle :: List.replicate waits (.sleep pollInterval) ++ reports ∧
      (reports = [] ∨ reports = [.publish e.topics.update (relayReport index target)])

-- What is exchanged once a command is submitted. A wait that has no outcome has made all of its
-- pauses.
structure Attempt (e : Engine) (polls index : Nat) (target : Bool) (xs : List Exchange)
    (outcome : Option Applied) : Prop where
  course : ∃ result later, .submitted (.setRelay index target) result ∈ xs ∧
    effects xs = .submit (.setRelay index target) :: later ∧ e.Aftermath index target result later
  honest : Honest e [(index, target)] xs
  cut : outcome = none → List.replicate polls (.sleep pollInterval) <:+ effects xs

structure Block (e : Engine) (issued : Bool) (index : Nat) (target : Bool) (xs : List Exchange) :
    Prop where
  looked : ∃ state, xs.head? = some (.saw index state) ∧ (effects xs = [] ↔ state = target)
  course : effects xs ≠ [] → ∃ result later, .submitted (.setRelay index target) result ∈ xs ∧
    effects xs = e.pause issued ++ .submit (.setRelay index target) :: later ∧
      e.Aftermath index target result later
  honest : Honest e [(index, target)] xs

-- One block for each of the first targets. A command has been issued once a block has effects.
def Blocks (e : Engine) : (issued : Bool) → List (List Exchange) → Targets → Prop
  | _, [], _ => True
  | _, _ :: _, [] => False
  | issued, xs :: blocks, (index, target) :: rest =>
    e.Block issued index target xs ∧ e.Blocks (issued || !(effects xs).isEmpty) blocks rest

-- There is a block for every target, or a wait has made all of its pauses.
def Complete (polls : Nat) (targets : Targets) (blocks : List (List Exchange)) :
    Option Sync → Prop
  | some _ => blocks.length = targets.length
  | none => ∃ xs ∈ blocks, List.replicate polls (.sleep pollInterval) <:+ effects xs

theorem Complete.cons {polls : Nat} {targets : Targets} {blocks : List (List Exchange)}
    {result : Option Sync} (h : Complete polls targets blocks result) (entry : Nat × Bool)
    (xs : List Exchange) : Complete polls (entry :: targets) (xs :: blocks) result := by
  cases result with
  | some sync => exact congrArg (· + 1) h
  | none =>
      obtain ⟨ys, hmem, hsuffix⟩ := h
      exact ⟨ys, List.mem_cons_of_mem xs hmem, hsuffix⟩

@[simp] theorem effects_missedLook (index : Nat) (target : Bool) (now : Nat) :
    effects (missedLook index target now) = [] := rfl

@[simp] theorem effects_missedTurns (index : Nat) (target : Bool) (nows : List Nat) :
    effects (nows.flatMap (missedTurn index target)) =
      List.replicate nows.length (.sleep pollInterval) := by
  induction nows with
  | nil => rfl
  | cons now nows ih => simp [missedTurn, ih, List.replicate_succ]

theorem LastLook.effects_eq {index deadline : Nat} {target : Bool} {last : List Exchange}
    {final : Verdict} (h : LastLook index target deadline last final) : effects last = [] := by
  cases h <;> rfl

theorem verify_course {index deadline polls : Nat} {target : Bool} {xs : List Exchange}
    {verdict : Option Verdict}
    (h : Dialogue.Transcript (verify index target deadline polls) xs verdict) :
    ∃ waits, effects xs = List.replicate waits (.sleep pollInterval) ∧
      (verdict = none → waits = polls) ∧
      (verdict = some .reached → ∃ front, xs = front ++ [.saw index target]) := by
  obtain ⟨nows, last, rfl, -, ⟨final, rfl, hlast⟩ | ⟨rfl, hlength, now, -, rfl⟩⟩ := verify_cases h
  · refine ⟨nows.length, by simp [hlast.effects_eq], by simp, ?_⟩
    intro hreached
    obtain rfl := Option.some.inj hreached
    cases hlast
    exact ⟨_, rfl⟩
  · exact ⟨nows.length, by simp, fun _ => hlength, by simp⟩

theorem honest_report {index : Nat} {target accepted : Bool} {front rest : List Exchange}
    (hsubmit : .submitted (.setRelay index target) (.ok ()) ∈ front)
    (hfront : ∀ topic text, .publish topic text ∉ effects front) (hrest : effects rest = []) :
    Honest e [(index, target)] (front ++ .saw index target ::
      .published e.topics.update (relayReport index target) accepted :: rest) := by
  intro before topic text answer after hsplit
  have hbefore : .published topic text answer ∉ front ++ [.saw index target] :=
    published_notMem (by simpa using hfront topic text)
  have hafter : .published topic text answer ∉ rest := published_notMem (by simp [hrest])
  -- no other report is around, so the one at the split is this one
  rw [← List.singleton_append, ← List.append_assoc] at hsplit
  obtain ⟨rfl, hreport, -⟩ := (List.append_cons_inj_of_notMem hbefore hafter).mp hsplit
  cases hreport
  exact ⟨index, target, front, List.mem_singleton_self _, rfl, rfl, rfl, hsubmit⟩

theorem attempt_unreported {polls index start waits : Nat} {target : Bool} {looks : List Exchange}
    {outcome : Option Applied}
    (hwaits : effects looks = List.replicate waits (.sleep pollInterval))
    (hcut : outcome = none → waits = polls) :
    e.Attempt polls index target (e.begun index target start ++ looks) outcome where
  course := ⟨.ok (), .sleep e.settings.settle :: List.replicate waits (.sleep pollInterval),
    List.mem_cons_self, by simp [begun, hwaits], waits, [], by simp, .inl rfl⟩
  honest := Honest.of_silent (by simp [begun, hwaits])
  cut hnone := ⟨[.submit (.setRelay index target), .sleep e.settings.settle],
    by simp [begun, hwaits, hcut hnone]⟩

theorem attempt_reported {polls index deadline start : Nat} {target accepted : Bool}
    {looks notices : List Exchange} {outcome : Applied}
    (hlooks : Dialogue.Transcript (verify index target deadline polls) looks (some .reached))
    (hnotices : effects notices = []) :
    e.Attempt polls index target (e.begun index target start ++ (looks ++
      .published e.topics.update (relayReport index target) accepted :: notices))
      (some outcome) := by
  obtain ⟨waits, hwaits, -, hreached⟩ := verify_course hlooks
  obtain ⟨front, rfl⟩ := hreached rfl
  have hfront : effects front = List.replicate waits (.sleep pollInterval) := by
    simpa using hwaits
  refine ⟨⟨.ok (), .sleep e.settings.settle :: List.replicate waits (.sleep pollInterval) ++
    [.publish e.topics.update (relayReport index target)], List.mem_cons_self,
    by simp [begun, hfront, hnotices], waits, _, rfl, .inr rfl⟩, ?_, by simp⟩
  rw [List.append_assoc, List.singleton_append, ← List.append_assoc]
  apply honest_report (List.mem_append_left front List.mem_cons_self)
  · simp [hfront]
  · exact hnotices

theorem apply_course {polls index : Nat} {sync : Sync} {target : Bool} {xs : List Exchange}
    {outcome : Option Applied}
    (h : Dialogue.Transcript (e.apply polls sync index target) xs outcome) :
    e.Attempt polls index target xs outcome := by
  cases apply_cases h with
  | refused reason =>
      refine ⟨⟨.error reason, [], List.mem_cons_self, rfl, rfl⟩, Honest.of_silent ?_, ?_⟩
      · simp
      · simp
  | cut hlooks =>
      obtain ⟨waits, hwaits, hcut, -⟩ := verify_course hlooks
      exact attempt_unreported hwaits fun _ => hcut rfl
  | unreadable hlooks =>
      obtain ⟨waits, hwaits, -, -⟩ := verify_course hlooks
      exact attempt_unreported hwaits (by simp)
  | late hlooks =>
      obtain ⟨waits, hwaits, -, -⟩ := verify_course hlooks
      exact attempt_unreported hwaits (by simp)
  | reported hlooks => exact attempt_reported hlooks rfl
  | unreported notice hlooks => exact attempt_reported hlooks rfl

theorem block_idle {issued : Bool} {index : Nat} {state target : Bool} (h : state = target) :
    e.Block issued index target [.saw index state] where
  looked := ⟨state, rfl, iff_of_true rfl h⟩
  course hne := absurd rfl hne
  honest := Honest.of_silent (by simp [Exchange.saw])

theorem block_changed {polls index : Nat} {target : Bool} {applied : List Exchange}
    {outcome : Option Applied} (issued : Bool) (notices : List Notice)
    (hattempt : e.Attempt polls index target applied outcome) :
    let xs := .saw index (!target) :: (e.paused issued ++ (applied ++ spoken notices))
    e.Block issued index target xs ∧ effects xs ≠ [] := by
  intro xs
  obtain ⟨result, later, hsubmit, heffects, hlater⟩ := hattempt.course
  have hblock : effects xs = e.pause issued ++ .submit (.setRelay index target) :: later := by
    simp [xs, heffects]
  have hne : effects xs ≠ [] := by
    simp [hblock]
  refine ⟨⟨⟨!target, rfl, iff_of_false hne (by simp)⟩, ?_, ?_⟩, hne⟩
  · intro _
    refine ⟨result, later, ?_, hblock, hlater⟩
    exact List.mem_cons_of_mem _ (List.mem_append_right _ (List.mem_append_left _ hsubmit))
  · have hpause : ∀ topic text,
        .publish topic text ∉ effects (.saw index (!target) :: e.paused issued) := by
      simp [pause]
    have hnotice : ∀ topic text, .publish topic text ∉ effects (spoken notices) := by simp
    exact (Honest.of_silent hpause).append (hattempt.honest.append (Honest.of_silent hnotice))

theorem reconcile_course {relays polls : Nat} {issued : Bool} {targets : Targets} {sync : Sync}
    {xs : List Exchange} {result : Option Sync}
    (h : Dialogue.Transcript (e.reconcile polls issued targets sync) xs result)
    (hstore : ∀ x ∈ xs, x.FromStore relays) (htargets : ∀ entry ∈ targets, entry.1 < relays) :
    ∃ blocks, xs = blocks.flatten ∧ e.Blocks issued blocks targets ∧
      Complete polls targets blocks result := by
  replace h := reconcile_cases h
  induction h with
  | done issued sync => exact ⟨[], rfl, trivial, rfl⟩
  | @unreadable issued index target targets sync xs result reason notice hrest ih =>
      -- the board has the relay, so it can be looked at
      obtain ⟨hindex, -⟩ := List.forall_mem_cons.mp htargets
      obtain ⟨hlook, -⟩ := List.forall_mem_cons.mp hstore
      obtain ⟨state, hstate⟩ := exists_state_of_fromStore hlook hindex
      cases hstate
  | @shown issued index target targets sync xs result hrest ih =>
      obtain ⟨-, htargets⟩ := List.forall_mem_cons.mp htargets
      obtain ⟨-, hstore⟩ := List.forall_mem_cons.mp hstore
      obtain ⟨blocks, rfl, hblocks, hcomplete⟩ := ih hstore htargets
      exact ⟨[.saw index target] :: blocks, rfl, ⟨block_idle rfl, by simpa using hblocks⟩,
        hcomplete.cons _ _⟩
  | @cut issued index target targets sync applied happly =>
      have hattempt := apply_course happly
      have hblock := (block_changed issued [] hattempt).1
      have hcut := (hattempt.cut rfl).trans (List.suffix_append (e.pause issued) _)
      refine ⟨[_], (List.append_nil _).symm, ⟨?_, trivial⟩, _, List.mem_singleton_self _, ?_⟩
      · simpa [spoken] using hblock
      · simpa using hcut
  | @applied issued index target targets sync sync' applied xs outcome result notices happly hrest
      ih =>
      obtain ⟨-, htargets⟩ := List.forall_mem_cons.mp htargets
      obtain ⟨-, hstore⟩ := List.forall_mem_cons.mp hstore
      obtain ⟨-, hstore⟩ := List.forall_mem_append.mp hstore
      obtain ⟨blocks, rfl, hblocks, hcomplete⟩ := ih hstore htargets
      obtain ⟨hblock, hne⟩ := block_changed issued notices (apply_course happly)
      refine ⟨_ :: blocks, rfl, ⟨hblock, ?_⟩, hcomplete.cons _ _⟩
      -- this block has effects, so a command has been issued before those after it
      rw [List.isEmpty_eq_false_iff.mpr hne, Bool.not_false, Bool.or_true]
      exact hblocks

theorem Blocks.honest {issued : Bool} {blocks : List (List Exchange)} {targets : Targets}
    (h : e.Blocks issued blocks targets) : Honest e targets blocks.flatten := by
  induction blocks generalizing issued targets with
  | nil => exact Honest.of_silent (by simp)
  | cons xs blocks ih =>
      cases targets with
      | nil => exact h.elim
      | cons entry targets =>
          obtain ⟨hblock, hblocks⟩ := h
          have hxs : Honest e (entry :: targets) xs := hblock.honest.mono (by simp)
          have hrest := (ih hblocks).mono (List.subset_cons_self entry targets)
          exact hxs.append hrest

theorem sayAll_silent {notices : List Notice} {xs : List Exchange} {done : Unit}
    (h : Dialogue.Transcript (sayAll notices) xs done) : effects xs = [] := by
  rw [sayAll_cases h, effects_spoken]

theorem handleWithin_effects {polls : Nat} {sync : Sync} {topic : String} {payload : List UInt8}
    {xs : List Exchange} {result : Option Sync}
    (h : Dialogue.Transcript (e.handleWithin polls sync topic payload) xs result)
    (hstore : ∀ x ∈ xs, x.FromStore sync.length) :
    let targets := (e.targets? sync.length topic payload).getD []
    Sorted.Ascending targets ∧ Honest e targets xs ∧
      ∃ notices blocks, xs = notices ++ blocks.flatten ∧ effects notices = [] ∧
        effects xs = blocks.flatMap effects ∧ e.Blocks false blocks targets ∧
        Complete polls targets blocks result := by
  intro targets
  have hlt : ∀ entry ∈ targets, entry.1 < sync.length := by
    intro entry hentry
    exact targets?_lt hentry
  obtain ⟨notices, heq⟩ := e.handleWithin_eq polls sync topic payload
  rw [heq] at h
  obtain ⟨said, done, rest, rfl, hsaid, hrest⟩ := h.of_bind
  have hsilent := sayAll_silent hsaid
  have hafter : ∀ x ∈ rest, Exchange.FromStore sync.length x := by
    intro x hx
    exact hstore x (List.mem_append_right said hx)
  obtain ⟨blocks, rfl, hblocks, hcomplete⟩ := reconcile_course hrest hafter hlt
  refine ⟨e.targets?_ascending _ _ _, ?_, said, blocks, rfl, hsilent, ?_, hblocks, hcomplete⟩
  · exact (Honest.of_silent (by simp [hsilent])).append hblocks.honest
  · rw [effects_append, hsilent, List.nil_append]
    exact effects_flatten blocks

-- Surroundings of three relays, of which the second switches late and the third cannot be
-- commanded.
def lateRelay : (q : Query) → (now : Nat) → Reply q × Nat
  | .read index, now => (Relay.Store.get ⟨[false, 525 ≤ now, false]⟩ index, now)
  | .submit (.toggleRelay 2 _), now => (.error .full, now)
  | .submit _, now => (.ok (), now)
  | .uptime, now => (now, now)
  | .sleep length, now => ((), now + length.millis)
  | .publish _ _, now => (true, now)
  | .say _, now => ((), now)

theorem lateRelay_fromStore (q : Query) (now : Nat) :
    Exchange.FromStore 3 ⟨q, (lateRelay q now).1⟩ := by
  cases q with
  | read index => exact ⟨⟨[false, 525 ≤ now, false]⟩, rfl, rfl⟩
  | _ => trivial

def verdure : Engine := { topics := .ofNames "verdure" "relays" }

def mixedDelta : List UInt8 :=
  Text.toBytes ("\x7b\"state\":\x7b\"relay3\":\x7b\"state\":true\x7d," ++
    "\"relay1\":\x7b\"state\":false\x7d,\"relay2\":\x7b\"state\":true\x7d\x7d\x7d")

def mixedTalk : Talk (Option Sync) :=
  verdure.handleWithin 1 [.waiting, .waiting, .waiting] (verdure.topics.topic .updateDelta)
    mixedDelta

theorem handleWithin_effects_lateRelay :
    let xs := mixedTalk.trace lateRelay 0
    let targets := [(0, false), (1, true), (2, true)]
    Dialogue.Transcript mixedTalk xs (some [.synced, .reported, .waiting]) ∧
      (∀ x ∈ xs, Exchange.FromStore 3 x) ∧
      effects xs = [.submit (.setRelay 1 true), .sleep (.ofMillis 500), .sleep (.ofMillis 25),
        .publish verdure.topics.update (relayReport 1 true), .sleep (.ofMillis 100),
        .submit (.setRelay 2 true)] ∧
      Sorted.Ascending targets ∧ Honest verdure targets xs ∧
      ∃ notices blocks, xs = notices ++ blocks.flatten ∧ effects notices = [] ∧
        effects xs = blocks.flatMap effects ∧ verdure.Blocks false blocks targets ∧
        blocks.length = targets.length := by
  intro xs targets
  have hresult : (mixedTalk.run lateRelay 0).1 = some [.synced, .reported, .waiting] := by
    decide +kernel
  have h : Dialogue.Transcript mixedTalk xs (some [.synced, .reported, .waiting]) := by
    rw [← hresult]
    exact Dialogue.transcript_trace lateRelay mixedTalk 0
  have hstore : ∀ x ∈ xs, Exchange.FromStore 3 x :=
    Dialogue.forall_mem_trace lateRelay_fromStore mixedTalk 0
  have htargets : (verdure.targets? 3 (verdure.topics.topic .updateDelta) mixedDelta).getD [] =
      targets := by decide +kernel
  have heffects : effects (mixedTalk.trace lateRelay 0) = [.submit (.setRelay 1 true),
      .sleep (.ofMillis 500), .sleep (.ofMillis 25),
      .publish verdure.topics.update (relayReport 1 true), .sleep (.ofMillis 100),
      .submit (.setRelay 2 true)] := by decide +kernel
  have hcourse := handleWithin_effects h hstore
  rw [show List.length [SyncState.waiting, .waiting, .waiting] = 3 from rfl, htargets] at hcourse
  exact ⟨h, hstore, heffects, hcourse⟩

end Engine

end RelayGateway.Shadow
