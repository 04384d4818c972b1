import RelayGateway.PubSub.Broker

namespace RelayGateway.PubSub

variable {Handler Hook σ : Type}

-- What of a port decides how it answers.
structure Standing (Handler : Type) where
  connected : Bool
  refusals : Nat
  subscriptions : List (String × Handler)
  refuseSubscribe : List String

def Port.standing (p : Port Handler) : Standing Handler where
  connected := p.broker.connected
  refusals := p.broker.refusals
  subscriptions := p.broker.subscriptions
  refuseSubscribe := p.refuseSubscribe

def registerAll (live entries : List (String × Handler)) : List (String × Handler) :=
  entries.foldl (fun live entry => Client.register live entry.1 entry.2) live

namespace Standing

def connecting (s : Standing Handler) : Standing Handler :=
  if 0 < s.refusals then { s with refusals := s.refusals - 1 } else { s with connected := true }

-- The standing after so many attempts at a session, or as many as it takes.
def recovering (s : Standing Handler) (attempts : Nat) (registry : List (String × Handler)) :
    Standing Handler :=
  if s.refusals < attempts then
    { s with
      connected := true
      refusals := 0
      subscriptions := registerAll s.subscriptions registry }
  else { s with refusals := s.refusals - attempts }

theorem recovering_of_lt {s : Standing Handler} {attempts : Nat} (h : s.refusals < attempts)
    (registry : List (String × Handler)) :
    s.recovering attempts registry =
      { s with
        connected := true
        refusals := 0
        subscriptions := registerAll s.subscriptions registry } := if_pos h

theorem recovering_of_not_lt {s : Standing Handler} {attempts : Nat} (h : ¬ s.refusals < attempts)
    (registry : List (String × Handler)) :
    s.recovering attempts registry = { s with refusals := s.refusals - attempts } := if_neg h

theorem recovering_succ {s : Standing Handler} (h : 0 < s.refusals) (attempts : Nat)
    (registry : List (String × Handler)) :
    { s with refusals := s.refusals - 1 }.recovering attempts registry =
      s.recovering (attempts + 1) registry := by
  unfold recovering
  by_cases hlt : s.refusals < attempts + 1
  · rw [if_pos hlt, if_pos (by dsimp only; omega)]
  · rw [if_neg hlt, if_neg (by dsimp only; omega), Nat.sub_sub, Nat.add_comm 1]

def dropped (s : Standing Handler) : Standing Handler :=
  { s with connected := false, subscriptions := [] }

end Standing

namespace Port

theorem standing_connect (p : Port Handler) :
    p.connect.2.standing = p.standing.connecting ∧
      ((∃ reason, p.connect.1 = .error reason) ∧ 0 < p.standing.refusals ∨
        p.connect.1 = .ok () ∧ p.standing.refusals = 0) := by
  obtain ⟨⟨connected, refusals, live, published, operations⟩, refusePublish, refuseSubscribe⟩ := p
  cases refusals with
  | zero => exact ⟨rfl, .inr ⟨rfl, rfl⟩⟩
  | succ refusals => exact ⟨rfl, .inl ⟨⟨_, rfl⟩, Nat.succ_pos refusals⟩⟩

theorem standing_disconnect (p : Port Handler) : p.disconnect.standing = p.standing.dropped := rfl

theorem standing_interrupt (p : Port Handler) : p.interrupt.standing = p.standing.dropped := rfl

theorem subscribe_of_connected {p : Port Handler} (hconnected : p.standing.connected = true)
    (hrefuse : p.standing.refuseSubscribe = []) (topic : String) (handler : Handler) :
    (p.subscribe topic handler).1 = .ok () ∧
      (p.subscribe topic handler).2.standing =
        { p.standing with
          subscriptions := Client.register p.standing.subscriptions topic handler } := by
  obtain ⟨⟨connected, refusals, live, published, operations⟩, refusePublish, refuseSubscribe⟩ := p
  cases hconnected
  cases hrefuse
  exact ⟨rfl, rfl⟩

theorem subscribe_of_not_connected {p : Port Handler} (hconnected : p.standing.connected = false)
    (hrefuse : p.standing.refuseSubscribe = []) (topic : String) (handler : Handler) :
    p.subscribe topic handler = (.error .noSession, p) := by
  obtain ⟨⟨connected, refusals, live, published, operations⟩, refusePublish, refuseSubscribe⟩ := p
  cases hconnected
  cases hrefuse
  rfl

theorem standing_deliver (p : Port Handler) (topic : String) :
    (p.deliver topic).2.standing = p.standing := by
  simp only [deliver, Broker.deliver]
  split
  · split <;> rfl
  · rfl

theorem standing_publish (p : Port Handler) (message : Message) :
    (p.publish message).2.standing = p.standing := by
  unfold publish
  split
  · rfl
  · obtain ⟨⟨connected, refusals, live, published, operations⟩, refusePublish, refuseSubscribe⟩ := p
    cases connected with
    | false => rfl
    | true =>
        let b : Broker Handler :=
          { connected := true, refusals, subscriptions := live, published := message :: published,
            operations := .publish message.topic :: operations }
        exact standing_deliver { broker := b, refusePublish, refuseSubscribe } message.topic

end Port

namespace Reactions

variable (r : Reactions Handler Hook σ)

theorem run_say (notice : Notice) (p : Port Handler) (s : σ) :
    (Client.say notice : Talk Handler Hook Unit).run r.answer (p, s) = ((), (p, r.say notice s)) :=
  rfl

-- With a session nothing in the registry is refused.
theorem run_resubscribe {p : Port Handler} (hconnected : p.standing.connected = true)
    (hrefuse : p.standing.refuseSubscribe = []) (entries : List (String × Handler)) (s : σ) :
    ∃ p', (Client.resubscribe entries).run r.answer (p, s) = (true, (p', s)) ∧
      p'.standing =
        { p.standing with subscriptions := registerAll p.standing.subscriptions entries } := by
  induction entries generalizing p with
  | nil => exact ⟨p, rfl, rfl⟩
  | cons entry entries ih =>
      obtain ⟨topic, handler⟩ := entry
      obtain ⟨hok, hstanding⟩ := Port.subscribe_of_connected hconnected hrefuse topic handler
      obtain ⟨p', hrun, hrest⟩ := ih (p := (p.subscribe topic handler).2)
        (by rw [hstanding]; exact hconnected) (by rw [hstanding]; exact hrefuse)
      refine ⟨p', ?_, by rw [hrest, hstanding]; rfl⟩
      simp only [Client.resubscribe, Client.subscribeLive, Dialogue.ask_bind, Dialogue.run_ask, answer,
        hok, Dialogue.done_bind]
      exact hrun

-- An attempt is refused by the broker, or it succeeds.
theorem run_attemptSession (c : Client Handler Hook) (attempt : Nat) {p : Port Handler}
    (hrefuse : p.standing.refuseSubscribe = []) (s : σ) :
    ∃ p' s', (c.attemptSession attempt).run r.answer (p, s) =
        (decide (p.standing.refusals = 0), (p', s')) ∧
      p'.standing = p.standing.recovering 1 c.registry := by
  obtain ⟨hconnect, ⟨⟨reason, hrefused⟩, hpos⟩ | ⟨hok, hzero⟩⟩ := p.standing_connect
  · have hfailed : decide (p.standing.refusals = 0) = false := decide_eq_false (Nat.ne_of_gt hpos)
    obtain ⟨s', hrun⟩ : ∃ s', (c.attemptSession attempt).run r.answer (p, s) =
        (false, (p.connect.2, s')) := by
      simp only [Client.attemptSession, Dialogue.run_ask, answer, hrefused]
      exact ⟨_, rfl⟩
    refine ⟨p.connect.2, s', by rw [hrun, hfailed], ?_⟩
    rw [hconnect, Standing.connecting, if_pos hpos, Standing.recovering_of_not_lt (by omega)]
  · have hnone : ¬ 0 < p.standing.refusals := by omega
    have hconnected : p.connect.2.standing = { p.standing with connected := true } := by
      rw [hconnect, Standing.connecting, if_neg hnone]
    obtain ⟨p', hrun, hstanding⟩ := r.run_resubscribe (p := p.connect.2)
      (by rw [hconnected]) (by rw [hconnected]; exact hrefuse) c.registry s
    refine ⟨p', s, ?_, ?_⟩
    · simp only [Client.attemptSession, Client.resubscribeAll, Dialogue.run_ask, Dialogue.run_bind,
        answer, hok, hrun, decide_eq_true hzero]
      rfl
    · rw [hstanding, hconnected, Standing.recovering_of_lt (by omega)]
      simp only [← hzero]

theorem run_recover (c : Client Handler Hook) (attempt remaining : Nat) {p : Port Handler}
    (hrefuse : p.standing.refuseSubscribe = []) (s : σ) :
    ∃ p' s', (c.recover attempt remaining).run r.answer (p, s) =
        (decide (p.standing.refusals < remaining), (p', s')) ∧
      p'.standing = p.standing.recovering remaining c.registry := by
  induction remaining generalizing attempt p s with
  | zero => exact ⟨p, s, rfl, rfl⟩
  | succ remaining ih =>
      obtain ⟨p', s', hrun, hstanding⟩ := r.run_attemptSession c attempt hrefuse s
      unfold Client.recover
      rw [Dialogue.run_bind, hrun]
      by_cases hzero : p.standing.refusals = 0
      · have hlt : p.standing.refusals < remaining + 1 := by omega
        rw [decide_eq_true hzero, decide_eq_true hlt]
        refine ⟨p', s', rfl, ?_⟩
        rw [hstanding, Standing.recovering_of_lt (by omega), Standing.recovering_of_lt hlt]
      · rw [decide_eq_false hzero, if_neg Bool.false_ne_true]
        by_cases hremaining : 0 < remaining
        · have hrefused : p'.standing = { p.standing with refusals := p.standing.refusals - 1 } := by
            rw [hstanding, Standing.recovering_of_not_lt (by omega)]
          obtain ⟨p'', s'', hrest, hlast⟩ := ih (attempt + 1) (p := p')
            (by rw [hrefused]; exact hrefuse)
            (r.wait (c.policy.delay attempt) (.reconnecting attempt) s')
          refine ⟨p'', s'', ?_, ?_⟩
          · have hfewer : decide (p.standing.refusals - 1 < remaining) =
                decide (p.standing.refusals < remaining + 1) := decide_eq_decide.mpr (by omega)
            rw [if_pos hremaining, Dialogue.run_ask, ← hfewer]
            simp only [answer, hrest, hrefused]
          · rw [hlast, hrefused, Standing.recovering_succ (by omega)]
        · have hlast : ¬ p.standing.refusals < remaining + 1 := by omega
          obtain rfl : remaining = 0 := by omega
          rw [if_neg hremaining, decide_eq_false hlast]
          exact ⟨p', s', rfl, hstanding⟩

theorem run_runHooks
    (hresume : ∀ hook place, (r.resume hook place).1.standing = place.1.standing)
    (hooks : List Hook) (p : Port Handler) (s : σ) :
    ∃ p' s', (Client.runHooks hooks : Talk Handler Hook Unit).run r.answer (p, s) = ((), (p', s')) ∧
      p'.standing = p.standing := by
  induction hooks generalizing p s with
  | nil => exact ⟨p, s, rfl, rfl⟩
  | cons hook hooks ih =>
      obtain ⟨p', s', hrun, hstanding⟩ := ih (r.resume hook (p, s)).1 (r.resume hook (p, s)).2
      exact ⟨p', s', hrun, hstanding.trans (hresume hook (p, s))⟩

theorem run_afterDrop
    (hresume : ∀ hook place, (r.resume hook place).1.standing = place.1.standing)
    {c : Client Handler Hook} (hstate : ∀ attempt, c.state ≠ .reconnecting attempt)
    (reason : String) {p : Port Handler} (hrefuse : p.standing.refuseSubscribe = []) (s : σ) :
    let back := decide (p.standing.refusals < c.policy.maxRetries)
    ∃ p' s', (c.afterDrop reason).run r.answer (p, s) =
        ((back, { c with state := if back then .connected else .failed }), (p', s')) ∧
      p'.standing = p.standing.recovering c.policy.maxRetries c.registry := by
  intro back
  obtain ⟨p', s', hrun, hstanding⟩ := r.run_recover c 0 c.policy.maxRetries hrefuse
    (r.say (.warning s!"PubSub: connection interrupted: {reason}") s)
  unfold Client.afterDrop
  split
  · rename_i attempt hreconnecting
    exact (hstate attempt hreconnecting).elim
  · rw [Dialogue.run_bind, run_say, Dialogue.run_bind, hrun]
    by_cases hback : p.standing.refusals < c.policy.maxRetries
    · obtain ⟨p'', s'', hhooks, hsame⟩ := r.run_runHooks hresume c.hooks p' s'
      simp only [back, decide_eq_true hback, if_true, Dialogue.run_bind, hhooks]
      exact ⟨p'', s'', rfl, hsame.trans hstanding⟩
    · simp only [back, decide_eq_false hback, Bool.false_eq_true, if_false]
      exact ⟨p', _, rfl, hstanding⟩

end Reactions

end RelayGateway.PubSub
