import RelayGateway.Bench.Messaging
import RelayGateway.Proofs.History
import RelayGateway.Proofs.PubSub.Standing
import Mathlib.Data.List.Induction
import Mathlib.Data.List.Nodup

namespace RelayGateway.PubSub

variable {Handler : Type}

theorem register_suffix {live registry : List (String × Handler)} (h : live <:+ registry)
    (topic : String) (handler : Handler) :
    Client.register live topic handler <:+ Client.register registry topic handler := by
  obtain ⟨front, rfl⟩ := h
  unfold Client.register
  rw [List.filter_append, List.append_assoc]
  exact List.suffix_append _ _

theorem mem_register_topics {registry : List (String × Handler)} {topic other : String}
    {handler : Handler} :
    other ∈ (Client.register registry topic handler).map Prod.fst ↔
      other = topic ∨ other ∈ registry.map Prod.fst := by
  by_cases h : other = topic <;> simp [Client.register, h]

theorem register_nodup {registry : List (String × Handler)} (h : (registry.map Prod.fst).Nodup)
    (topic : String) (handler : Handler) :
    ((Client.register registry topic handler).map Prod.fst).Nodup := by
  have hothers : ((registry.filter (·.1 != topic)).map Prod.fst).Nodup :=
    h.sublist (List.filter_sublist.map Prod.fst)
  unfold Client.register
  rw [List.map_append, List.nodup_append]
  refine ⟨hothers, List.nodup_singleton topic, ?_⟩
  intro other hother last hlast
  obtain ⟨entry, hentry, rfl⟩ := List.mem_map.mp hother
  rw [List.map_singleton, List.mem_singleton] at hlast
  simpa [hlast] using (List.mem_filter.mp hentry).2

-- Entries with topics of their own end up in the order in which they are subscribed, behind what has
-- other topics.
theorem registerAll_eq {entries : List (String × Handler)} (h : (entries.map Prod.fst).Nodup)
    (live : List (String × Handler)) :
    registerAll live entries =
      live.filter (fun entry => entry.1 ∉ entries.map Prod.fst) ++ entries := by
  induction entries generalizing live with
  | nil => simp [registerAll]
  | cons entry entries ih =>
      obtain ⟨hentry, hentries⟩ := List.nodup_cons.mp h
      change registerAll (Client.register live entry.1 entry.2) entries = _
      have hlast : List.filter (fun entry => entry.1 ∉ entries.map Prod.fst) [entry] = [entry] := by
        rw [List.filter_singleton, decide_eq_true hentry]
        rfl
      rw [ih hentries, Client.register, List.filter_append, hlast, List.filter_filter,
        List.append_assoc]
      refine congrArg (· ++ _) (List.filter_congr fun other _ => ?_)
      by_cases hsame : other.1 = entry.1
      · simp [hsame]
      · simp only [List.map_cons, List.mem_cons, hsame, false_or, Bool.and_true,
          bne_iff_ne.mpr hsame]

theorem registerAll_eq_self {live entries : List (String × Handler)}
    (h : (entries.map Prod.fst).Nodup) (hlive : live <:+ entries) :
    registerAll live entries = entries := by
  have hothers : live.filter (fun entry => entry.1 ∉ entries.map Prod.fst) = [] := by
    rw [List.filter_eq_nil_iff]
    intro entry hentry
    simpa using ⟨entry.2, hlive.subset hentry⟩
  rw [registerAll_eq h, hothers, List.nil_append]

theorem suffix_topics_eq_iff {live entries : List (String × Handler)} (hlive : live <:+ entries)
    (h : (entries.map Prod.fst).Nodup) :
    live.map Prod.fst = entries.map Prod.fst ↔
      ∀ topic, topic ∈ entries.map Prod.fst → topic ∈ live.map Prod.fst := by
  constructor
  · intro heq topic htopic
    rwa [heq]
  · intro hall
    obtain ⟨front, rfl⟩ := hlive
    cases front with
    | nil => rfl
    | cons entry front =>
        rw [List.cons_append, List.map_cons, List.map_append, List.nodup_cons] at h
        exact (h.1 (List.mem_append_right _ (hall entry.1 (by simp)))).elim

end RelayGateway.PubSub

namespace RelayGateway.Bench

open PubSub (Broker Port Client ConnectionState Message Reactions Standing)

theorem runHandlers_standing {forward : Message → Place → Bool × Place}
    (hforward : ∀ message place, (forward message place).2.1.standing = place.1.standing)
    (message : Message) (handlers : List Handler) (place : Place) :
    (runHandlers forward message handlers place).1.standing = place.1.standing := by
  induction handlers generalizing place with
  | nil => rfl
  | cons handler handlers ih =>
      unfold runHandlers
      split
      · exact ih _
      · exact (ih _).trans (hforward _ _)

theorem publishWith_standing {forward : Message → Place → Bool × Place}
    (hforward : ∀ message place, (forward message place).2.1.standing = place.1.standing)
    (message : Message) (place : Place) :
    (publishWith forward message place).2.1.standing = place.1.standing := by
  have hpublish := place.1.standing_publish message
  unfold publishWith
  split
  · rename_i port hport
    rw [hport] at hpublish
    exact hpublish
  · rename_i handlers port hport
    rw [hport] at hpublish
    exact (runHandlers_standing hforward message handlers _).trans hpublish

theorem publishTimes_standing (forwards : Nat) (message : Message) (place : Place) :
    (publishTimes forwards message place).2.1.standing = place.1.standing := by
  induction forwards generalizing message place with
  | zero => exact publishWith_standing (fun _ _ => rfl) message place
  | succ forwards ih => exact publishWith_standing ih message place

theorem publish_standing (message : Message) (place : Place) :
    (publish message place).2.1.standing = place.1.standing :=
  publishTimes_standing _ message place

theorem deliver_standing (message : Message) (place : Place) :
    (deliver message place).2.1.standing = place.1.standing :=
  (runHandlers_standing (publishTimes_standing _) message _ _).trans
    (place.1.standing_deliver message.topic)

namespace Messaging

theorem resume_standing (client : Client Handler Hook) (hook : Hook) (place : Place) :
    ((reactions client).resume hook place).1.standing = place.1.standing := by
  unfold reactions
  dsimp only
  split
  · rfl
  · exact publish_standing _ _

inductive Act where
  | connect
  | disconnect
  | subscribe (topic : String) (handler : Handler)
  | publish (message : Message)
  | deliver (message : Message)
  | interrupt (reason : String)
  | afterDrop (reason : String)
  | refuse (count : Nat)
  | addHook (hook : Hook)
  | nest (reason : Option String)

def broker (b : Messaging) : Broker Handler := b.place.1.broker

def standing (b : Messaging) : Standing Handler := b.place.1.standing

def perform (b : Messaging) : Act → Messaging
  | .connect => b.connect.2
  | .disconnect => b.disconnect
  | .subscribe topic handler => (b.subscribe topic handler).2
  | .publish message => (b.atPlace (Bench.publish message)).2
  | .deliver message => (b.atPlace (Bench.deliver message)).2
  | .interrupt reason => b.interrupt reason
  | .afterDrop reason => (b.afterDrop reason).2
  | .refuse count =>
    let (port, notes) := b.place
    { b with place := ({ port with broker := { port.broker with refusals := count } }, notes) }
  | .addHook hook => { b with client := b.client.addHook hook }
  | .nest reason => { b with place := (b.place.1, { b.place.2 with nestedReason := reason }) }

def run (b : Messaging) (acts : List Act) : Messaging := acts.foldl perform b

theorem speak_of_run {α : Type} {b : Messaging}
    {talk : PubSub.Talk Handler Hook (α × Client Handler Hook)} {a : α}
    {client : Client Handler Hook} {place : Place}
    (h : talk.run (reactions b.client).answer b.place = ((a, client), place)) :
    b.speak talk = (a, { client, place }) := by
  unfold speak
  rw [h]

theorem connect_spec (b : Messaging) :
    b.connect.2.standing = b.standing.connecting ∧
      b.connect.2.client =
        { b.client with
          state := if b.standing.refusals = 0 then .connected else .disconnected } := by
  obtain ⟨client, port, notes⟩ := b
  obtain ⟨hstanding, hreply⟩ := port.standing_connect
  change _ = port.standing.connecting ∧
    _ = { client with state := if port.standing.refusals = 0 then .connected else .disconnected }
  rw [← hstanding]
  obtain ⟨⟨reason, hrefused⟩, hpos⟩ | ⟨hok, hzero⟩ := hreply
  · rw [if_neg (Nat.ne_of_gt hpos)]
    simp only [connect, speak, Client.connect, Dialogue.run_ask, Reactions.answer, hrefused]
    exact ⟨rfl, rfl⟩
  · rw [if_pos hzero]
    simp only [connect, speak, Client.connect, Dialogue.run_ask, Reactions.answer, hok]
    exact ⟨rfl, rfl⟩

theorem disconnect_spec (b : Messaging) :
    b.disconnect.standing = b.standing.dropped ∧
      b.disconnect.client = { b.client with state := .disconnected } :=
  ⟨b.place.1.standing_disconnect, rfl⟩

theorem subscribe_of_connected {b : Messaging} (hconnected : b.standing.connected = true)
    (hrefuse : b.standing.refuseSubscribe = []) (topic : String) (handler : Handler) :
    (b.subscribe topic handler).2.standing =
        { b.standing with
          subscriptions := Client.register b.standing.subscriptions topic handler } ∧
      (b.subscribe topic handler).2.client =
        { b.client with registry := Client.register b.client.registry topic handler } := by
  obtain ⟨client, port, notes⟩ := b
  obtain ⟨hok, hstanding⟩ := Port.subscribe_of_connected hconnected hrefuse topic handler
  change _ = { port.standing with
    subscriptions := Client.register port.standing.subscriptions topic handler } ∧ _
  rw [← hstanding]
  simp only [subscribe, speak, Client.subscribe, Client.subscribeLive, Dialogue.ask_bind,
    Dialogue.run_ask, Reactions.answer, hok]
  exact ⟨rfl, rfl⟩

theorem subscribe_of_not_connected {b : Messaging} (hconnected : b.standing.connected = false)
    (hrefuse : b.standing.refuseSubscribe = []) (topic : String) (handler : Handler) :
    (b.subscribe topic handler).2 = b := by
  obtain ⟨client, port, notes⟩ := b
  have hrefused := Port.subscribe_of_not_connected hconnected hrefuse topic handler
  simp only [subscribe, speak, Client.subscribe, Client.subscribeLive, Dialogue.ask_bind,
    Dialogue.run_ask, Reactions.answer, hrefused]
  rfl

theorem afterDrop_spec {b : Messaging} (hstate : ∀ attempt, b.client.state ≠ .reconnecting attempt)
    (hrefuse : b.standing.refuseSubscribe = []) (reason : String) :
    (b.afterDrop reason).2.standing =
        b.standing.recovering b.client.policy.maxRetries b.client.registry ∧
      (b.afterDrop reason).2.client =
        { b.client with
          state := if b.standing.refusals < b.client.policy.maxRetries then .connected
            else .failed } := by
  obtain ⟨port, notes, hrun, hstanding⟩ := (reactions b.client).run_afterDrop
    (resume_standing b.client) hstate reason hrefuse b.place.2
  unfold afterDrop
  rw [speak_of_run hrun]
  exact ⟨hstanding, by simp only [decide_eq_true_eq]; rfl⟩

theorem interrupt_spec {b : Messaging} (hstate : ∀ attempt, b.client.state ≠ .reconnecting attempt)
    (hrefuse : b.standing.refuseSubscribe = []) (reason : String) :
    (b.interrupt reason).standing =
        b.standing.dropped.recovering b.client.policy.maxRetries b.client.registry ∧
      (b.interrupt reason).client =
        { b.client with
          state := if b.standing.refusals < b.client.policy.maxRetries then .connected
            else .failed } := by
  let place : Place := (b.place.1.interrupt, b.place.2.say (PubSub.droppedNotice reason))
  have hdropped : Messaging.standing { b with place } = b.standing.dropped :=
    b.place.1.standing_interrupt
  obtain ⟨hstanding, hclient⟩ := afterDrop_spec (b := { b with place }) hstate hrefuse reason
  rw [hdropped] at hstanding
  exact ⟨hstanding, hclient⟩

-- What holds between two acts.
structure Sound (b : Messaging) : Prop where
  settled : ∀ attempt, b.client.state ≠ .reconnecting attempt
  unrefused : b.standing.refuseSubscribe = []
  session : b.client.state = .connected → b.broker.connected = true
  nodup : b.client.subscriptions.Nodup
  suffix : b.broker.subscriptions <:+ b.client.registry

def Recovers (b : Messaging) : Prop := b.broker.refusals < b.client.policy.maxRetries

instance (b : Messaging) : Decidable b.Recovers := by unfold Recovers; infer_instance

def liveAfter (b : Messaging) : Act → List (String × Handler)
  | .disconnect => []
  | .subscribe topic handler =>
    if b.broker.connected then Client.register b.broker.subscriptions topic handler
    else b.broker.subscriptions
  | .interrupt _ => if b.Recovers then b.client.registry else []
  | .afterDrop _ => if b.Recovers then b.client.registry else b.broker.subscriptions
  | _ => b.broker.subscriptions

def registryAfter (b : Messaging) : Act → List (String × Handler)
  | .subscribe topic handler =>
    if b.broker.connected then Client.register b.client.registry topic handler
    else b.client.registry
  | _ => b.client.registry

-- What an act comes to: what was registered and what was live decide both, and nothing else counts.
structure Leads (b : Messaging) (act : Act) (b' : Messaging) : Prop where
  sound : b'.Sound
  live : b'.broker.subscriptions = b.liveAfter act
  registry : b'.client.registry = b.registryAfter act

theorem Sound.of_standing {b b' : Messaging} (h : b.Sound) (hstanding : b'.standing = b.standing)
    (hstate : b'.client.state = b.client.state)
    (hregistry : b'.client.registry = b.client.registry) :
    b'.Sound ∧ b'.broker.subscriptions = b.broker.subscriptions := by
  have hlive : b'.broker.subscriptions = b.broker.subscriptions :=
    congrArg Standing.subscriptions hstanding
  have hconnected : b'.broker.connected = b.broker.connected :=
    congrArg Standing.connected hstanding
  refine ⟨⟨?_, ?_, ?_, ?_, ?_⟩, hlive⟩
  · rw [hstate]
    exact h.settled
  · rw [hstanding]
    exact h.unrefused
  · rw [hstate, hconnected]
    exact h.session
  · rw [Client.subscriptions, hregistry]
    exact h.nodup
  · rw [hlive, hregistry]
    exact h.suffix

theorem Sound.connect_leads {b : Messaging} (h : b.Sound) : b.Leads .connect b.connect.2 := by
  obtain ⟨hstanding, hclient⟩ := b.connect_spec
  have hlive : b.connect.2.broker.subscriptions = b.broker.subscriptions := by
    change b.connect.2.standing.subscriptions = _
    rw [hstanding, Standing.connecting]
    split <;> rfl
  refine ⟨⟨?_, ?_, ?_, ?_, ?_⟩, hlive, ?_⟩
  · intro attempt
    rw [hclient]
    dsimp only
    split <;> simp
  · rw [hstanding, Standing.connecting]
    split <;> exact h.unrefused
  · intro hconnected
    rw [hclient] at hconnected
    have hzero : b.standing.refusals = 0 := by
      by_contra hne
      rw [if_neg hne] at hconnected
      cases hconnected
    change b.connect.2.standing.connected = true
    rw [hstanding, Standing.connecting, if_neg (by omega)]
  · rw [hclient]
    exact h.nodup
  · rw [hlive, hclient]
    exact h.suffix
  · rw [hclient]
    rfl

theorem Sound.subscribe_leads {b : Messaging} (h : b.Sound) (topic : String) (handler : Handler) :
    b.Leads (.subscribe topic handler) (b.subscribe topic handler).2 := by
  cases hconnected : b.broker.connected with
  | false =>
      rw [subscribe_of_not_connected hconnected h.unrefused]
      exact ⟨h, by simp [liveAfter, hconnected], by simp [registryAfter, hconnected]⟩
  | true =>
      obtain ⟨hstanding, hclient⟩ := subscribe_of_connected hconnected h.unrefused topic handler
      have hlive : (b.subscribe topic handler).2.broker.subscriptions =
          Client.register b.broker.subscriptions topic handler :=
        congrArg Standing.subscriptions hstanding
      refine ⟨⟨?_, ?_, ?_, ?_, ?_⟩, ?_, ?_⟩
      · rw [hclient]
        exact h.settled
      · rw [hstanding]
        exact h.unrefused
      · intro _
        exact (congrArg Standing.connected hstanding).trans hconnected
      · rw [hclient]
        exact PubSub.register_nodup h.nodup topic handler
      · rw [hlive, hclient]
        exact PubSub.register_suffix h.suffix topic handler
      · simp only [liveAfter, hconnected, if_true, hlive]
      · simp only [registryAfter, hconnected, if_true, hclient]

theorem Sound.recovery {b b' : Messaging} (h : b.Sound) {s : Standing Handler}
    (hrefusals : s.refusals = b.broker.refusals) (hrefuse : s.refuseSubscribe = [])
    (hsuffix : s.subscriptions <:+ b.client.registry)
    (hstanding : b'.standing = s.recovering b.client.policy.maxRetries b.client.registry)
    (hclient : b'.client = { b.client with
      state := if s.refusals < b.client.policy.maxRetries then .connected else .failed }) :
    b'.Sound ∧
      b'.broker.subscriptions = (if b.Recovers then b.client.registry else s.subscriptions) ∧
      b'.client.registry = b.client.registry := by
  have hregistry : b'.client.registry = b.client.registry := by rw [hclient]
  by_cases hlt : s.refusals < b.client.policy.maxRetries
  · have hrecovers : b.Recovers := by
      unfold Recovers
      omega
    rw [Standing.recovering_of_lt hlt, PubSub.registerAll_eq_self h.nodup hsuffix] at hstanding
    have hlive : b'.broker.subscriptions = b.client.registry :=
      congrArg Standing.subscriptions hstanding
    rw [if_pos hlt] at hclient
    rw [if_pos hrecovers]
    refine ⟨⟨by simp [hclient], by rw [hstanding]; exact hrefuse, ?_, ?_, ?_⟩, hlive, hregistry⟩
    · intro _
      exact congrArg Standing.connected hstanding
    · rw [Client.subscriptions, hregistry]
      exact h.nodup
    · exact (hlive.trans hregistry.symm) ▸ List.suffix_rfl
  · have hrecovers : ¬ b.Recovers := by
      unfold Recovers
      omega
    rw [Standing.recovering_of_not_lt hlt] at hstanding
    have hlive : b'.broker.subscriptions = s.subscriptions :=
      congrArg Standing.subscriptions hstanding
    rw [if_neg hlt] at hclient
    rw [if_neg hrecovers]
    refine ⟨⟨by simp [hclient], by rw [hstanding]; exact hrefuse, by simp [hclient], ?_, ?_⟩, hlive,
      hregistry⟩
    · rw [Client.subscriptions, hregistry]
      exact h.nodup
    · rw [hlive, hregistry]
      exact hsuffix

theorem Sound.perform_leads {b : Messaging} (h : b.Sound) (act : Act) :
    b.Leads act (b.perform act) := by
  cases act with
  | connect => exact h.connect_leads
  | disconnect =>
      exact ⟨⟨by simp [perform, disconnect_spec], h.unrefused, by simp [perform, disconnect_spec],
        h.nodup, List.nil_suffix⟩, rfl, rfl⟩
  | subscribe topic handler => exact h.subscribe_leads topic handler
  | publish message =>
      have hstanding : (b.perform (.publish message)).standing = b.standing :=
        publish_standing message b.place
      obtain ⟨hsound, hlive⟩ := h.of_standing hstanding rfl rfl
      exact ⟨hsound, hlive, rfl⟩
  | deliver message =>
      have hstanding : (b.perform (.deliver message)).standing = b.standing :=
        deliver_standing message b.place
      obtain ⟨hsound, hlive⟩ := h.of_standing hstanding rfl rfl
      exact ⟨hsound, hlive, rfl⟩
  | interrupt reason =>
      obtain ⟨hstanding, hclient⟩ := interrupt_spec h.settled h.unrefused reason
      obtain ⟨hsound, hlive, hregistry⟩ :=
        h.recovery (s := b.standing.dropped) rfl h.unrefused List.nil_suffix hstanding hclient
      exact ⟨hsound, hlive, hregistry⟩
  | afterDrop reason =>
      obtain ⟨hstanding, hclient⟩ := afterDrop_spec h.settled h.unrefused reason
      obtain ⟨hsound, hlive, hregistry⟩ :=
        h.recovery (s := b.standing) rfl h.unrefused h.suffix hstanding hclient
      exact ⟨hsound, hlive, hregistry⟩
  | refuse count => exact ⟨⟨h.settled, h.unrefused, h.session, h.nodup, h.suffix⟩, rfl, rfl⟩
  | addHook hook => exact ⟨⟨h.settled, h.unrefused, h.session, h.nodup, h.suffix⟩, rfl, rfl⟩
  | nest reason => exact ⟨⟨h.settled, h.unrefused, h.session, h.nodup, h.suffix⟩, rfl, rfl⟩

theorem Sound.run {b : Messaging} (h : b.Sound) (acts : List Act) : (b.run acts).Sound := by
  induction acts generalizing b with
  | nil => exact h
  | cons act acts ih => exact ih (h.perform_leads act).sound

-- A topic is registered, and nothing that arrives on it is heard.
def Deaf (b : Messaging) (topic : String) : Prop :=
  topic ∈ b.client.subscriptions ∧ topic ∉ b.broker.topics

def Closes (b : Messaging) : Act → Prop
  | .disconnect => True
  | .interrupt _ => ¬ b.Recovers
  | _ => False

def Revives (b : Messaging) (topic : String) : Act → Prop
  | .subscribe subscribed _ => subscribed = topic ∧ b.broker.connected = true
  | .interrupt _ => b.Recovers
  | .afterDrop _ => b.Recovers
  | _ => False

theorem Sound.deaf_perform_iff {b : Messaging} (h : b.Sound) (act : Act) (topic : String) :
    (b.perform act).Deaf topic ↔
      (b.Closes act ∧ topic ∈ b.client.subscriptions) ∨ (b.Deaf topic ∧ ¬ b.Revives topic act) := by
  have hleads := h.perform_leads act
  have hafter : (b.perform act).Deaf topic ↔
      topic ∈ (b.registryAfter act).map Prod.fst ∧ topic ∉ (b.liveAfter act).map Prod.fst := by
    rw [← hleads.live, ← hleads.registry]
    rfl
  have hregistered : b.Deaf topic → topic ∈ b.client.subscriptions := And.left
  have hkept : b.Deaf topic ↔
      (False ∧ topic ∈ b.client.subscriptions) ∨ (b.Deaf topic ∧ ¬ False) := by simp
  have hrecovered : ¬ (topic ∈ b.client.subscriptions ∧ topic ∉ b.client.subscriptions) :=
    fun both => both.2 both.1
  rw [hafter]
  cases act with
  | disconnect =>
      simp only [registryAfter, liveAfter, Closes, Revives, List.map_nil, List.not_mem_nil,
        not_false_eq_true, and_true, true_and]
      exact ⟨.inl, fun h => h.elim id hregistered⟩
  | subscribe subscribed handler =>
      by_cases hconnected : b.broker.connected = true
      · simp only [registryAfter, liveAfter, Closes, Revives, hconnected, if_true, false_and,
          false_or, and_true, PubSub.mem_register_topics, not_or]
        constructor
        · rintro ⟨hother | hmem, hne, hdeaf⟩
          · exact (hne hother).elim
          · exact ⟨⟨hmem, hdeaf⟩, fun hsame => hne hsame.symm⟩
        · rintro ⟨⟨hmem, hdeaf⟩, hne⟩
          exact ⟨.inr hmem, fun hsame => hne hsame.symm, hdeaf⟩
      · simp only [registryAfter, liveAfter, Closes, Revives, hconnected, Bool.false_eq_true, if_false,
          and_false]
        exact hkept
  | interrupt reason =>
      by_cases hrecovers : b.Recovers
      · simp only [registryAfter, liveAfter, Closes, Revives, hrecovers, if_true, not_true_eq_false,
          false_and, and_false, or_false, iff_false]
        exact hrecovered
      · simp only [registryAfter, liveAfter, Closes, Revives, hrecovers, if_false, List.map_nil,
          List.not_mem_nil, not_false_eq_true, and_true, true_and]
        exact ⟨.inl, fun h => h.elim id hregistered⟩
  | afterDrop reason =>
      by_cases hrecovers : b.Recovers
      · simp only [registryAfter, liveAfter, Closes, Revives, hrecovers, if_true, not_true_eq_false,
          false_and, and_false, or_false, iff_false]
        exact hrecovered
      · simp only [registryAfter, liveAfter, Closes, Revives, hrecovers, if_false]
        exact hkept
  | connect => exact hkept
  | publish message => exact hkept
  | deliver message => exact hkept
  | refuse count => exact hkept
  | addHook hook => exact hkept
  | nest reason => exact hkept

-- A topic was registered when an act closed the session, and no act since has revived it.
def LeftBehind (b : Messaging) (acts : List Act) (topic : String) : Prop :=
  ∃ before act after, acts = before ++ act :: after ∧
    (b.run before).Closes act ∧ topic ∈ (b.run before).client.subscriptions ∧
    ∀ between later rest, after = between ++ later :: rest →
      ¬ (b.run (before ++ act :: between)).Revives topic later

theorem run_concat (b : Messaging) (acts : List Act) (act : Act) :
    b.run (acts ++ [act]) = (b.run acts).perform act := List.foldl_concat ..

theorem leftBehind_iff_lasting (b : Messaging) (acts : List Act) (topic : String) :
    b.LeftBehind acts topic ↔
      Lasting (fun before act => (b.run before).Closes act ∧
          topic ∈ (b.run before).client.subscriptions)
        (fun before act => (b.run before).Revives topic act) acts := by
  simp only [LeftBehind, Lasting, and_assoc]

theorem LeftBehind.concat_iff (b : Messaging) (acts : List Act) (last : Act) (topic : String) :
    b.LeftBehind (acts ++ [last]) topic ↔
      ((b.run acts).Closes last ∧ topic ∈ (b.run acts).client.subscriptions) ∨
        (b.LeftBehind acts topic ∧ ¬ (b.run acts).Revives topic last) := by
  rw [leftBehind_iff_lasting, leftBehind_iff_lasting, Lasting.concat_iff]

theorem start_sound (policy : PubSub.ReconnectPolicy) :
    Sound { client := { policy } } :=
  ⟨by simp, rfl, by simp, List.nodup_nil, List.suffix_rfl⟩

theorem run_deaf_iff (policy : PubSub.ReconnectPolicy) (acts : List Act) (topic : String) :
    let first : Messaging := { client := { policy } }
    (first.run acts).Deaf topic ↔ first.LeftBehind acts topic := by
  intro first
  induction acts using List.reverseRecOn with
  | nil =>
      rw [leftBehind_iff_lasting]
      exact iff_of_false (fun hdeaf => List.not_mem_nil hdeaf.1) not_lasting_nil
  | append_singleton acts act ih =>
      rw [run_concat, ((start_sound policy).run acts).deaf_perform_iff, LeftBehind.concat_iff, ih]

-- A connected client hears everything that it has registered.
def InStep (b : Messaging) : Prop :=
  b.client.state = .connected →
    b.broker.connected = true ∧ b.broker.topics = b.client.subscriptions

theorem run_topics_iff (policy : PubSub.ReconnectPolicy) (acts : List Act) :
    let first : Messaging := { client := { policy } }
    let last := first.run acts
    (last.client.state = .connected → last.broker.connected = true) ∧
      last.broker.subscriptions <:+ last.client.registry ∧
      (last.broker.topics = last.client.subscriptions ↔
        ∀ topic, ¬ first.LeftBehind acts topic) := by
  intro first last
  have hsound : last.Sound := (start_sound policy).run acts
  refine ⟨hsound.session, hsound.suffix, ?_⟩
  refine (PubSub.suffix_topics_eq_iff hsound.suffix hsound.nodup).trans (forall_congr' fun topic => ?_)
  have hdeaf : last.Deaf topic ↔ first.LeftBehind acts topic := run_deaf_iff policy acts topic
  rw [← hdeaf]
  exact not_and_not_right.symm

def connectAgain : List Act :=
  [.connect, .subscribe "t" { tag := "x" }, .disconnect, .connect]

theorem connectAgain_not_inStep :
    ¬ (run { client := { policy := .standard } } connectAgain).InStep := by
  intro hstep
  have htopics := (hstep rfl).2
  revert htopics
  decide

end Messaging

end RelayGateway.Bench
