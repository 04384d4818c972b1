import RelayGateway.Proofs.Shadow.Device
import RelayGateway.Proofs.Shadow.Effects

namespace RelayGateway.Shadow

-- What the engine goes by: relays below `low` are behind it, and the last look since the last
-- command showed this relay in this state.
structure Heed where
  low : Nat
  seen : Option (Nat × Bool) := none

def Heed.after (h : Heed) : Exchange → Heed
  | ⟨.read index, reply⟩ => { h with seen := (Except.toOption reply).map (Prod.mk index) }
  | ⟨.submit (.toggleRelay index _), _⟩ => { low := index + 1 }
  | _ => h

-- A command sets a relay that is still ahead and was just seen in the other state.
def Heed.Allows (h : Heed) : Query → Prop
  | .submit command => ∃ index target, command = .setRelay index target ∧ h.low ≤ index ∧
      h.seen = some (index, !target)
  | _ => True

-- Whatever it is answered, the engine submits only what it may, and `post` holds in the end.
def Careful {α : Type} (post : Heed → α → Prop) : Heed → Talk α → Prop
  | h, .done a => post h a
  | h, .ask q next => h.Allows q ∧ ∀ reply, Careful post (h.after ⟨q, reply⟩) (next reply)

namespace Careful

variable {α β : Type} {post : Heed → α → Prop} {h : Heed}

theorem bind {f : α → Talk β} {last : Heed → β → Prop} {d : Talk α}
    (hd : Careful post h d) (hf : ∀ h' a, post h' a → Careful last h' (f a)) :
    Careful last h (d >>= f) := by
  induction d generalizing h with
  | done a => exact hf h a hd
  | ask q next ih => exact ⟨hd.1, fun reply => ih reply (hd.2 reply)⟩

theorem read {index : Nat} {f : Except Relay.StoreError Bool → Talk α}
    (hf : ∀ reply, Careful post { h with seen := reply.toOption.map (Prod.mk index) } (f reply)) :
    Careful post h (read index >>= f) :=
  ⟨trivial, hf⟩

theorem uptime {f : Nat → Talk α} (hf : ∀ now, Careful post h (f now)) :
    Careful post h (uptime >>= f) :=
  ⟨trivial, hf⟩

theorem sleep {length : Duration} {f : Unit → Talk α} (hf : Careful post h (f ())) :
    Careful post h (sleep length >>= f) :=
  ⟨trivial, fun _ => hf⟩

end Careful

def Keeps {α : Type} (low : Nat) (d : Talk α) : Prop :=
  ∀ h : Heed, h.low = low → Careful (fun h' _ => h'.low = low) h d

namespace Engine

variable {e : Engine} {low : Nat}

theorem keeps_look {index deadline : Nat} {target : Bool} {again : Talk (Option Verdict)}
    (hagain : Keeps low again) : Keeps low (look index target deadline again) := by
  intro h hlow
  refine Careful.read fun reply => ?_
  cases reply with
  | error reason => exact hlow
  | ok state =>
      dsimp only
      split
      · exact hlow
      · refine Careful.uptime fun now => ?_
        split
        · exact hlow
        · exact hagain _ hlow

theorem keeps_verify (index deadline polls : Nat) (target : Bool) :
    Keeps low (verify index target deadline polls) := by
  induction polls with
  | zero =>
      apply keeps_look
      intro h hlow
      exact hlow
  | succ polls ih =>
      apply keeps_look
      intro h hlow
      exact Careful.sleep (ih h hlow)

theorem keeps_report (text failure : String) : Keeps low (e.report text failure) := by
  intro h hlow
  refine ⟨trivial, fun accepted => ?_⟩
  cases accepted with
  | true => exact hlow
  | false => exact ⟨trivial, fun _ => hlow⟩

theorem keeps_sayOutcome (index : Nat) (outcome : Except GatewayError Unit) :
    Keeps low (sayOutcome index outcome) := by
  intro h hlow
  cases outcome with
  | ok done => exact hlow
  | error reason => exact ⟨trivial, fun _ => hlow⟩

theorem keeps_sayAll (notices : List Notice) : Keeps low (sayAll notices) := by
  intro h hlow
  induction notices with
  | nil => exact hlow
  | cons notice notices ih => exact ⟨trivial, fun _ => ih⟩

theorem careful_apply {polls index : Nat} {sync : Sync} {target : Bool} {h : Heed}
    (hlow : h.low ≤ index) (hseen : h.seen = some (index, !target)) :
    Careful (fun h' _ => h'.low = index + 1) h (e.apply polls sync index target) := by
  refine ⟨⟨index, target, rfl, hlow, hseen⟩, fun result => ?_⟩
  cases result with
  | error reason => rfl
  | ok taken =>
      refine Careful.uptime fun start => Careful.sleep ?_
      refine (keeps_verify index _ polls target _ rfl).bind fun h' verdict hlow' => ?_
      rcases verdict with _ | (_ | _ | reason)
      · exact hlow'
      · refine (keeps_report _ _ h' hlow').bind fun h' accepted hlow' => ?_
        cases accepted <;> exact hlow'
      · exact hlow'
      · exact hlow'

theorem careful_pause {α : Type} {post : Heed → α → Prop} {issued : Bool} {next : Talk α} {h : Heed}
    (hnext : Careful post h next) :
    Careful post h (if issued then do sleep e.settings.gap; next else next) := by
  split
  · exact Careful.sleep hnext
  · exact hnext

-- The targets are ahead, and so is each of them once those before it are done.
theorem careful_reconcile {polls : Nat} {issued : Bool} {targets : Targets} {sync : Sync} {h : Heed}
    (hascending : Sorted.Ascending targets) (hahead : ∀ entry ∈ targets, h.low ≤ entry.1) :
    Careful (fun _ _ => True) h (e.reconcile polls issued targets sync) := by
  induction targets generalizing issued sync h with
  | nil => trivial
  | cons entry targets ih =>
      obtain ⟨index, target⟩ := entry
      obtain ⟨hfirst, hrest⟩ := List.pairwise_cons.mp hascending
      obtain ⟨hindex, htargets⟩ := List.forall_mem_cons.mp hahead
      refine Careful.read fun reply => ?_
      cases reply with
      | error reason => exact ⟨trivial, fun _ => ih hrest htargets⟩
      | ok state =>
          dsimp only
          split
          · exact ih hrest htargets
          -- what was just seen is what allows the command
          · rename_i hother
            have hstate : state = !target := by
              cases state <;> cases target <;> simp_all
            subst hstate
            let seen : Heed := { h with seen := some (index, !target) }
            have happly : Careful (fun h' _ => h'.low = index + 1) seen
                (e.apply polls sync index target) := careful_apply hindex rfl
            apply careful_pause
            refine happly.bind fun h' outcome hlow => ?_
            cases outcome with
            | none => trivial
            | some applied =>
                refine (keeps_sayOutcome index applied.1 h' hlow).bind fun h'' _ hlow' => ?_
                apply ih hrest
                intro entry hentry
                rw [hlow']
                exact hfirst entry hentry

theorem careful_handleWithin (e : Engine) (polls : Nat) (sync : Sync) (topic : String)
    (payload : List UInt8) :
    Careful (fun _ _ => True) { low := 0 } (e.handleWithin polls sync topic payload) := by
  obtain ⟨notices, heq⟩ := e.handleWithin_eq polls sync topic payload
  rw [heq]
  refine (keeps_sayAll notices _ rfl).bind fun h' _ hlow => ?_
  apply careful_reconcile (e.targets?_ascending _ _ _)
  intro entry _
  rw [hlow]
  exact Nat.zero_le _

end Engine

inductive Move where
  -- A message arrives; it is dropped unless the engine is done with the one before.
  | message (polls : Nat) (topic : String) (payload : List UInt8)
  | speak (now : Nat) (accepted : Bool)
  | work

structure Loop where
  engine : Engine
  talk : Talk (Option Sync)
  rig : Rig
  excess : List Nat := []

namespace Loop

def start (engine : Engine) (relays : Nat) (labels : List String) (station : Link.Station) :
    Loop where
  engine
  talk := .done (some (List.replicate relays .waiting))
  rig := { dispatcher := { board := { store := .new relays, labels } }, station }

def act (l : Loop) : Move → Loop
  | .message polls topic payload =>
    match l.talk with
    | .done (some sync) => { l with talk := l.engine.handleWithin polls sync topic payload }
    | _ => l
  | .speak now accepted =>
    match l.talk with
    | .done _ => l
    | .ask q next =>
      let (reply, rig) := l.rig.answer now accepted q
      { l with talk := next reply, rig }
  | .work => { l with rig := l.rig.work 1, excess := l.rig.idle ++ l.excess }

def run (l : Loop) (moves : List Move) : Loop := moves.foldl act l

-- Whether every message arrives when no command waits or is being written.
def Calm : Loop → List Move → Prop
  | _, [] => True
  | l, .message polls topic payload :: moves =>
    l.rig.Quiet ∧ (l.act (.message polls topic payload)).Calm moves
  | l, move :: moves => (l.act move).Calm moves

theorem act_balanced {relays : Nat} (hrelays : relays ≤ 2 ^ 32) {l : Loop}
    (h : l.rig.Balanced relays l.excess) (move : Move) :
    (l.act move).rig.Balanced relays (l.act move).excess := by
  cases move with
  | message polls topic payload =>
      simp only [act]
      split <;> exact h
  | speak now accepted =>
      simp only [act]
      split
      · exact h
      · exact h.answer now accepted _
  | work => exact h.work hrelays

theorem run_balanced {relays : Nat} (hrelays : relays ≤ 2 ^ 32) {l : Loop}
    (h : l.rig.Balanced relays l.excess) (moves : List Move) :
    (l.run moves).rig.Balanced relays (l.run moves).excess := by
  induction moves generalizing l with
  | nil => exact h
  | cons move moves ih => exact ih (act_balanced hrelays h move)

end Loop

-- The commands that wait are for relays that the engine has behind it, no two for the same, and
-- each has its relay still to change; what the engine has seen of a relay ahead still holds.
structure Pending (h : Heed) (waiting : Targets) (r : Rig) : Prop where
  jobs : r.dispatcher.queue.jobs = waiting.map fun entry => .run (.setRelay entry.1 entry.2)
  ascending : Sorted.Ascending waiting
  behind : ∀ entry ∈ waiting, entry.1 < h.low ∧ r.store.states[entry.1]? = some !entry.2
  seen : ∀ index state, h.seen = some (index, state) → h.low ≤ index →
    r.store.states[index]? = some state

theorem submit_jobs (q : Dispatch.Queue) (command : Command) :
    (q.submit command).2.jobs = q.jobs ∨ (q.submit command).2.jobs = q.jobs ++ [.run command] := by
  cases hclosed : q.closed with
  | true =>
      rw [Dispatch.Queue.submit_of_closed hclosed]
      exact .inl rfl
  | false =>
      obtain hroom | hfull := Nat.lt_or_ge q.jobs.length Dispatch.queueCapacity
      · rw [Dispatch.Queue.submit_of_room hclosed hroom]
        exact .inr rfl
      · rw [Dispatch.Queue.submit_of_full hclosed hfull]
        exact .inl rfl

namespace Pending

variable {h : Heed} {waiting : Targets} {r : Rig}

theorem of_quiet (hquiet : r.Quiet) : Pending { low := 0 } [] r where
  jobs := hquiet.1
  ascending := List.Pairwise.nil
  behind := by simp
  seen := by simp

theorem read (hp : Pending h waiting r) (index : Nat) :
    Pending (h.after ⟨.read index, r.store.get index⟩) waiting r := by
  refine { hp with seen := ?_ }
  intro index' state hseen _
  cases hbit : r.store.states[index]? with
  | none => simp [Heed.after, Relay.Store.get, hbit, Except.toOption] at hseen
  | some bit =>
      simp only [Heed.after, Relay.Store.get, hbit, Except.toOption, Option.map_some,
        Option.some.injEq, Prod.mk.injEq] at hseen
      obtain ⟨rfl, rfl⟩ := hseen
      exact hbit

theorem submit (hp : Pending h waiting r) {index : Nat} {target : Bool} (hlow : h.low ≤ index)
    (hseen : h.seen = some (index, !target)) :
    ∃ waiting', Pending { low := index + 1 } waiting'
      { r with dispatcher := (r.dispatcher.submit (.setRelay index target)).2 } := by
  have hbehind : ∀ entry ∈ waiting,
      entry.1 < index + 1 ∧ r.store.states[entry.1]? = some !entry.2 := by
    intro entry hentry
    obtain ⟨hlow', hstate⟩ := hp.behind entry hentry
    exact ⟨by omega, hstate⟩
  obtain hjobs | hjobs := submit_jobs r.dispatcher.queue (.setRelay index target)
  · exact ⟨waiting, ⟨hjobs.trans hp.jobs, hp.ascending, hbehind, by simp⟩⟩
  · refine ⟨waiting ++ [(index, target)], ⟨?_, ?_, ?_, by simp⟩⟩
    · rw [List.map_append, ← hp.jobs]
      exact hjobs
    · refine List.pairwise_append.mpr ⟨hp.ascending, List.pairwise_singleton _ _, ?_⟩
      intro entry hentry last hlast
      rw [List.mem_singleton.mp hlast]
      exact Nat.lt_of_lt_of_le (hp.behind entry hentry).1 hlow
    · intro entry hentry
      obtain hentry | hentry := List.mem_append.mp hentry
      · exact hbehind entry hentry
      · rw [List.mem_singleton.mp hentry]
        exact ⟨Nat.lt_succ_self index, hp.seen index _ hseen hlow⟩

theorem work (hp : Pending h waiting r) :
    r.idle = [] ∧ ∃ waiting', Pending h waiting' (r.work 1) := by
  cases hwriting : r.dispatcher.writing with
  | some command =>
      refine ⟨by simp only [Rig.idle, hwriting], waiting, ?_⟩
      rw [Rig.work_of_writing hwriting]
      exact { hp with jobs := hp.jobs }
  | none =>
      cases waiting with
      | nil =>
          have hjobs := hp.jobs
          refine ⟨by simp only [Rig.idle, hwriting, hjobs, List.map_nil], [], ?_⟩
          rw [Rig.work_of_quiet ⟨hjobs, hwriting⟩]
          exact hp
      | cons entry waiting =>
          obtain ⟨index, target⟩ := entry
          obtain ⟨hfirst, hrest⟩ := List.pairwise_cons.mp hp.ascending
          obtain ⟨⟨hlow, hstate⟩, hbehind⟩ := List.forall_mem_cons.mp hp.behind
          have hjobs := hp.jobs
          rw [List.map_cons] at hjobs
          have hfits : Command.Fits r.store.count (.setRelay index target) :=
            (List.getElem?_eq_some_iff.mp hstate).1
          -- the relay still shows the opposite of what the command asks for
          have hchange : r.store.after (.setRelay index target) ≠ r.store := by
            intro hsame
            have hset := Relay.Store.state_after_setRelay hfits target
            rw [hsame, hstate] at hset
            cases target <;> cases hset
          refine ⟨by simp only [Rig.idle, hwriting, hjobs, hchange, and_false, if_false], waiting, ?_⟩
          rw [Rig.work_of_fits hwriting hjobs hfits]
          refine ⟨rfl, hrest, ?_, ?_⟩
          · intro entry hentry
            obtain ⟨hlow', hstate'⟩ := hbehind entry hentry
            refine ⟨hlow', ?_⟩
            have hne : index ≠ entry.1 := Nat.ne_of_lt (hfirst entry hentry)
            exact (r.store.state_after_setRelay_of_ne hne target).trans hstate'
          · intro index' state hseen' hlow'
            have hne : index ≠ index' := by
              dsimp only at hlow
              omega
            exact (r.store.state_after_setRelay_of_ne hne target).trans
              (hp.seen index' state hseen' hlow')

end Pending

namespace Loop

structure Fresh (l : Loop) : Prop where
  excess : l.excess = []
  course : ∃ h waiting, Careful (fun _ _ => True) h l.talk ∧ Pending h waiting l.rig

theorem message_fresh {l : Loop} (h : l.Fresh) (hquiet : l.rig.Quiet) (polls : Nat)
    (topic : String) (payload : List UInt8) : (l.act (.message polls topic payload)).Fresh := by
  simp only [act]
  split
  · rename_i sync _
    have hcareful := l.engine.careful_handleWithin polls sync topic payload
    exact ⟨h.excess, _, [], hcareful, .of_quiet hquiet⟩
  · exact h

theorem speak_fresh {l : Loop} (h : l.Fresh) (now : Nat) (accepted : Bool) :
    (l.act (.speak now accepted)).Fresh := by
  simp only [act]
  split
  · exact h
  · rename_i q next htalk
    obtain ⟨hexcess, heed, waiting, hcareful, hpending⟩ := h
    rw [htalk] at hcareful
    obtain ⟨hallows, hnext⟩ := hcareful
    cases q with
    | read index => exact ⟨hexcess, _, waiting, hnext _, hpending.read index⟩
    | submit command =>
        obtain ⟨index, target, rfl, hlow, hseen⟩ := hallows
        obtain ⟨waiting', hpending'⟩ := hpending.submit hlow hseen
        exact ⟨hexcess, _, waiting', hnext _, hpending'⟩
    | _ => exact ⟨hexcess, heed, waiting, hnext _, hpending⟩

theorem work_fresh {l : Loop} (h : l.Fresh) : (l.act .work).Fresh := by
  obtain ⟨hexcess, heed, waiting, hcareful, hpending⟩ := h
  obtain ⟨hidle, waiting', hpending'⟩ := hpending.work
  refine ⟨?_, heed, waiting', hcareful, hpending'⟩
  simp only [act, hidle, hexcess, List.append_nil]

theorem run_fresh {l : Loop} (h : l.Fresh) {moves : List Move} (hcalm : l.Calm moves) :
    (l.run moves).Fresh := by
  induction moves generalizing l with
  | nil => exact h
  | cons move moves ih =>
      cases move with
      | message polls topic payload => exact ih (message_fresh h hcalm.1 polls topic payload) hcalm.2
      | speak now accepted => exact ih (speak_fresh h now accepted) hcalm
      | work => exact ih (work_fresh h) hcalm

-- The device agrees with the store exactly if no relay was flipped in vain an odd number of times.
-- If messages wait for the dispatcher, it always does.
theorem run_device_eq_iff (engine : Engine) {relays : Nat} (hrelays : relays ≤ 2 ^ 32)
    (labels : List String) (station : Link.Station) (moves : List Move) :
    let first := start engine relays labels station
    let l := first.run moves
    l.rig.Quiet → l.rig.AllWritten →
      (l.rig.device = l.rig.store.states ↔
        ∀ index < relays, l.excess.count index % 2 = 0) ∧
      (first.Calm moves → l.rig.device = l.rig.store.states) := by
  intro first l hquiet hwritten
  have hcount : first.rig.store.count = relays := List.length_replicate
  have hbalanced : first.rig.Balanced relays first.excess := by
    refine ⟨hcount, ?_, rfl⟩
    intro command hcommand
    cases hcommand
  have hiff := (run_balanced hrelays hbalanced moves).device_eq_iff hquiet hwritten
  refine ⟨hiff, ?_⟩
  intro hcalm
  have hfresh : first.Fresh :=
    ⟨rfl, { low := 0 }, [], trivial, Pending.of_quiet ⟨rfl, rfl⟩⟩
  apply hiff.mpr
  intro index _
  rw [(run_fresh hfresh hcalm).excess, List.count_nil]

instance instDecidableCalm : (l : Loop) → (moves : List Move) → Decidable (l.Calm moves)
  | _, [] => isTrue trivial
  | l, .message polls topic payload :: moves =>
    have := instDecidableCalm (l.act (.message polls topic payload)) moves
    inferInstanceAs (Decidable (l.rig.Quiet ∧ (l.act (.message polls topic payload)).Calm moves))
  | l, .speak now accepted :: moves => instDecidableCalm (l.act (.speak now accepted)) moves
  | l, .work :: moves => instDecidableCalm (l.act .work) moves

def bothOn : Move :=
  .message 0 (Engine.verdure.topics.topic .updateDelta) (Text.toBytes
    ("\x7b\"state\":\x7b\"relay1\":\x7b\"state\":true\x7d," ++
      "\"relay2\":\x7b\"state\":true\x7d\x7d\x7d"))

def secondOn : Move :=
  .message 0 (Engine.verdure.topics.topic .updateDelta) (Text.toBytes
    "\x7b\"state\":\x7b\"relay2\":\x7b\"state\":true\x7d\x7d\x7d")

-- The worker carries out the first command once it was submitted, and the second once the engine
-- has given up on it.
def promptMoves : List Move :=
  [bothOn, .speak 0 true, .speak 0 true, .work, .work] ++ List.replicate 10 (.speak 0 true) ++
    [.speak 1000 true, .speak 1000 true, .work, .work, secondOn, .speak 2000 true]

theorem run_promptMoves :
    let first := start Engine.verdure 2 [] openStation
    let l := first.run promptMoves
    2 ≤ 2 ^ 32 ∧ l.rig.Quiet ∧ l.rig.AllWritten ∧ first.Calm promptMoves ∧
      l.rig.device = l.rig.store.states ∧ l.rig.store.states = [true, true] := by
  intro first l
  have hquiet : ((start Engine.verdure 2 [] openStation).run promptMoves).rig.Quiet := by decide +kernel
  have hwritten : ((start Engine.verdure 2 [] openStation).run promptMoves).rig.AllWritten := by
    decide +kernel
  have hcalm : (start Engine.verdure 2 [] openStation).Calm promptMoves := by decide +kernel
  have hstates : ((start Engine.verdure 2 [] openStation).run promptMoves).rig.store.states =
      [true, true] := by decide +kernel
  have hagree := run_device_eq_iff Engine.verdure (by decide) [] openStation promptMoves hquiet hwritten
  exact ⟨by decide, hquiet, hwritten, hcalm, hagree.2 hcalm, hstates⟩

-- The worker is held in its first write until the engine has given up on the second relay twice.
-- The second command for that relay finds it on, and the device turns it off again.
def lateMoves : List Move :=
  [bothOn, .speak 0 true, .speak 0 true, .work] ++ List.replicate 10 (.speak 0 true) ++
    [.speak 1000 true, .speak 1000 true, secondOn] ++ List.replicate 5 (.speak 1000 true) ++
    [.speak 2000 true, .speak 2000 true] ++ List.replicate 5 .work

theorem run_lateMoves :
    let l := (start Engine.verdure 2 [] openStation).run lateMoves
    l.rig.Quiet ∧ l.rig.AllWritten ∧ l.rig.store.states = [true, true] ∧
      l.rig.device = [true, false] ∧ l.excess = [1] := by
  decide +kernel

end Loop

end RelayGateway.Shadow
