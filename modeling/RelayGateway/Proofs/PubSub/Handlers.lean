import RelayGateway.Proofs.History
import RelayGateway.Proofs.PubSub.Liveness

namespace RelayGateway.PubSub

variable {Handler Hook : Type}

theorem mem_register {registry : List (String × Handler)} {topic other : String}
    {handler last : Handler} :
    (other, last) ∈ Client.register registry topic handler ↔
      (other = topic ∧ last = handler) ∨ (other ≠ topic ∧ (other, last) ∈ registry) := by
  simp only [Client.register, List.mem_append, List.mem_filter, List.mem_singleton, Prod.mk.injEq,
    bne_iff_ne]
  rw [or_comm, and_comm (a := (other, last) ∈ registry)]

theorem handlers_of_nodup {live : List (String × Handler)} (h : (live.map Prod.fst).Nodup)
    (topic : String) :
    (live.filter (·.1 == topic)).map Prod.snd = [] ∨
      ∃ handler, (live.filter (·.1 == topic)).map Prod.snd = [handler] ∧
        (topic, handler) ∈ live := by
  induction live with
  | nil => exact .inl rfl
  | cons entry live ih =>
      obtain ⟨hentry, hlive⟩ := List.nodup_cons.mp h
      by_cases htopic : entry.1 = topic
      · have hothers : live.filter (·.1 == topic) = [] := by
          rw [List.filter_eq_nil_iff]
          intro other hother hsame
          have hother := List.mem_map_of_mem (f := Prod.fst) hother
          rw [beq_iff_eq.mp hsame, ← htopic] at hother
          exact hentry hother
        refine .inr ⟨entry.2, ?_, ?_⟩
        · rw [List.filter_cons, if_pos (beq_iff_eq.mpr htopic), hothers]
          rfl
        · rw [← htopic]
          exact List.mem_cons_self
      · rw [List.filter_cons_of_neg (by simpa using htopic)]
        obtain hnone | ⟨handler, hone, hmem⟩ := ih hlive
        · exact .inl hnone
        · exact .inr ⟨handler, hone, List.mem_cons_of_mem entry hmem⟩

def KeepsTo {α : Type} (registry : List (String × Handler)) (post : α → Prop) :
    Talk Handler Hook α → Prop
  | .done a => post a
  | .ask q next =>
    (∀ topic handler, q = .subscribe topic handler → (topic, handler) ∈ registry) ∧
      ∀ reply, KeepsTo registry post (next reply)

namespace KeepsTo

variable {α β : Type} {registry : List (String × Handler)} {post : α → Prop} {last : β → Prop}

theorem bind {d : Talk Handler Hook α} {f : α → Talk Handler Hook β}
    (hd : KeepsTo registry post d) (hf : ∀ a, post a → KeepsTo registry last (f a)) :
    KeepsTo registry last (d >>= f) := by
  induction d with
  | done a => exact hf a hd
  | ask q next ih => exact ⟨hd.1, fun reply => ih reply (hd.2 reply)⟩

theorem ask {q : Query Handler Hook} {next : Reply q → Talk Handler Hook α}
    (hq : ∀ topic handler, q ≠ .subscribe topic handler)
    (hnext : ∀ reply, KeepsTo registry post (next reply)) : KeepsTo registry post (.ask q next) :=
  ⟨fun topic handler hsubscribe => (hq topic handler hsubscribe).elim, hnext⟩

end KeepsTo

namespace Client

variable {registry : List (String × Handler)}

theorem keepsTo_connect (c : Client Handler Hook) :
    KeepsTo registry (fun result => result.2.registry = c.registry) c.connect := by
  refine .ask nofun fun reply => ?_
  cases reply with
  | ok done => rfl
  | error e => exact .ask nofun fun _ => rfl

theorem keepsTo_disconnect (c : Client Handler Hook) :
    KeepsTo registry (fun client => client.registry = c.registry) c.disconnect :=
  .ask nofun fun _ => rfl

theorem keepsTo_resubscribe {entries : List (String × Handler)} (h : entries ⊆ registry) :
    KeepsTo registry (fun _ => True) (resubscribe entries : Talk Handler Hook Bool) := by
  induction entries with
  | nil => trivial
  | cons entry entries ih =>
      obtain ⟨hentry, hentries⟩ := List.cons_subset.mp h
      refine ⟨?_, fun reply => ?_⟩
      · rintro topic handler ⟨rfl, rfl⟩
        exact hentry
      · cases reply with
        | ok done => exact ih hentries
        | error e => exact .ask nofun fun _ => trivial

theorem keepsTo_attemptSession (c : Client Handler Hook) (attempt : Nat) :
    KeepsTo c.registry (fun _ => True) (c.attemptSession attempt) := by
  refine .ask nofun fun reply => ?_
  cases reply with
  | ok done =>
      have hreplay : KeepsTo c.registry (fun _ => True)
          (resubscribe c.registry : Talk Handler Hook Bool) :=
        keepsTo_resubscribe (List.Subset.refl c.registry)
      exact .ask nofun fun _ => hreplay.bind fun complete _ => .ask nofun fun _ => trivial
  | error e => exact .ask nofun fun _ => trivial

theorem keepsTo_recover (c : Client Handler Hook) (attempt remaining : Nat) :
    KeepsTo c.registry (fun _ => True) (c.recover attempt remaining) := by
  induction remaining generalizing attempt with
  | zero => trivial
  | succ remaining ih =>
      refine (c.keepsTo_attemptSession attempt).bind fun back _ => ?_
      split
      · trivial
      split
      · exact .ask nofun fun _ => ih (attempt + 1)
      · trivial

theorem keepsTo_runHooks (hooks : List Hook) :
    KeepsTo registry (fun _ => True) (runHooks hooks : Talk Handler Hook Unit) := by
  induction hooks with
  | nil => trivial
  | cons hook hooks ih => exact .ask nofun fun _ => ih

theorem keepsTo_afterDrop (c : Client Handler Hook) (reason : String) :
    KeepsTo c.registry (fun result => result.2.registry = c.registry) (c.afterDrop reason) := by
  unfold afterDrop
  split
  · rfl
  · refine .ask nofun fun _ => (c.keepsTo_recover 0 c.policy.maxRetries).bind fun back _ => ?_
    split
    · exact (keepsTo_runHooks c.hooks).bind fun _ _ => rfl
    · exact .ask nofun fun _ => rfl

end Client

end RelayGateway.PubSub

namespace RelayGateway.Bench

open PubSub (Broker Port Client ConnectionState Message Query Reactions KeepsTo)

def delivered (place : Place) : List String :=
  place.1.broker.operations.filterMap fun
    | .deliver topic => some topic
    | _ => none

def handled (place : Place) : List (String × String) :=
  place.2.notes.filterMap fun
    | .handled tag topic _ => some (topic, tag)
    | _ => none

-- What is live is registered, with one handler for a topic.
structure Faithful (registry : List (String × Handler)) (place : Place) : Prop where
  nodup : place.1.broker.topics.Nodup
  registered : place.1.broker.subscriptions ⊆ registry

structure Hears (registry : List (String × Handler)) (place last : Place) : Prop where
  faithful : Faithful registry last
  runs : ∃ runs : List (String × Handler), runs ⊆ registry ∧
    delivered last = runs.map Prod.fst ++ delivered place ∧
    handled last = (runs.map fun run => (run.1, run.2.tag)) ++ handled place

variable {registry : List (String × Handler)} {place middle last : Place}

theorem Faithful.of_live (h : Faithful registry place)
    (hlive : last.1.broker.subscriptions = place.1.broker.subscriptions) :
    Faithful registry last := by
  refine ⟨?_, hlive ▸ h.registered⟩
  rw [Broker.topics, hlive]
  exact h.nodup

namespace Hears

theorem of_silent (hfaithful : Faithful registry last)
    (hdelivered : delivered last = delivered place) (hhandled : handled last = handled place) :
    Hears registry place last :=
  ⟨hfaithful, [], List.nil_subset registry, hdelivered, hhandled⟩

theorem trans (h : Hears registry place middle) (hlast : Hears registry middle last) :
    Hears registry place last := by
  obtain ⟨runs, hruns, hdelivered, hhandled⟩ := h.runs
  obtain ⟨later, hlater, hdelivered', hhandled'⟩ := hlast.runs
  refine ⟨hlast.faithful, later ++ runs, List.append_subset.mpr ⟨hlater, hruns⟩, ?_, ?_⟩
  · rw [hdelivered', hdelivered, List.map_append, List.append_assoc]
  · rw [hhandled', hhandled, List.map_append, List.append_assoc]

end Hears

def Forwards (registry : List (String × Handler)) (forward : Message → Place → Bool × Place) :
    Prop :=
  ∀ message place, Faithful registry place → Hears registry place (forward message place).2

theorem deliver_cases (hplace : Faithful registry place) (topic : String) :
    place.1.deliver topic = ([], place.1) ∨
      ∃ handler, (topic, handler) ∈ place.1.broker.subscriptions ∧
        place.1.deliver topic =
          ([handler], { place.1 with broker := place.1.broker.record (.deliver topic) }) := by
  cases hconnected : place.1.broker.connected with
  | false =>
      left
      simp [Port.deliver, Broker.deliver, hconnected]
  | true =>
      obtain hnone | ⟨handler, hone, hmem⟩ := PubSub.handlers_of_nodup hplace.nodup topic
      · left
        simp only [Port.deliver, Broker.deliver, hconnected, if_true, hnone, List.isEmpty_nil]
      · refine .inr ⟨handler, hmem, ?_⟩
        simp only [Port.deliver, Broker.deliver, hconnected, if_true, hone, List.isEmpty_cons,
          Bool.false_eq_true, if_false]

-- A message that arrives runs the handler of its topic, if there is one, and what this one forwards
-- runs others.
theorem arrival_hears {forward : Message → Place → Bool × Place}
    (hforward : Forwards registry forward) (hplace : Faithful registry place) (message : Message) :
    Hears registry place
      (runHandlers forward message (place.1.deliver message.topic).1
        ((place.1.deliver message.topic).2, place.2)) := by
  obtain hnone | ⟨handler, hmem, hone⟩ := deliver_cases hplace message.topic
  · rw [hnone]
    exact .of_silent hplace rfl rfl
  rw [hone]
  let ran : Place := ({ place.1 with broker := place.1.broker.record (.deliver message.topic) },
    place.2.add (.handled handler.tag message.topic message.payload))
  have hran : Hears registry place ran :=
    ⟨hplace.of_live rfl, [(message.topic, handler)],
      List.cons_subset.mpr ⟨hplace.registered hmem, List.nil_subset registry⟩, rfl, rfl⟩
  cases htopic : handler.forward with
  | none =>
      simp only [runHandlers, htopic]
      exact hran
  | some topic =>
      have hsent := hforward { message with topic } ran hran.faithful
      simp only [runHandlers, htopic]
      exact (hran.trans hsent).trans (.of_silent (hsent.faithful.of_live rfl) rfl rfl)

theorem publishWith_hears {forward : Message → Place → Bool × Place}
    (hforward : Forwards registry forward) : Forwards registry (publishWith forward) := by
  intro message place hplace
  by_cases hrefused : place.1.refusePublish.contains message.topic = true
  · have hnone : place.1.publish message = (none, place.1) := by
      rw [Port.publish, if_pos hrefused]
    simp only [publishWith, hnone]
    exact .of_silent hplace rfl rfl
  cases hconnected : place.1.broker.connected with
  | false =>
      have hnone : place.1.publish message = (none, place.1) := by
        rw [Port.publish, if_neg hrefused]
        simp [Broker.publish, hconnected]
      simp only [publishWith, hnone]
      exact .of_silent hplace rfl rfl
  | true =>
      let broker : Broker Handler :=
        { place.1.broker with published := message :: place.1.broker.published }
      let accepted : Place :=
        ({ place.1 with broker := broker.record (.publish message.topic) }, place.2)
      have hpublish : place.1.publish message =
          (some (accepted.1.deliver message.topic).1, (accepted.1.deliver message.topic).2) := by
        rw [Port.publish, if_neg hrefused]
        simp [Broker.publish, hconnected, Port.deliver, accepted, broker]
      have haccepted : Hears registry place accepted := .of_silent (hplace.of_live rfl) rfl rfl
      simp only [publishWith, hpublish]
      exact haccepted.trans (arrival_hears hforward haccepted.faithful message)

theorem publishTimes_hears (forwards : Nat) : Forwards registry (publishTimes forwards) := by
  induction forwards with
  | zero =>
      exact publishWith_hears fun message place hplace => .of_silent hplace rfl rfl
  | succ forwards ih => exact publishWith_hears ih

theorem publish_hears (hplace : Faithful registry place) (message : Message) :
    Hears registry place (publish message place).2 :=
  publishTimes_hears _ message place hplace

theorem deliver_hears (hplace : Faithful registry place) (message : Message) :
    Hears registry place (deliver message place).2 :=
  arrival_hears (publishTimes_hears _) hplace message

theorem subscribe_cases (port : Port Handler) (topic : String) (handler : Handler) :
    (∃ reason, port.subscribe topic handler = (.error reason, port)) ∨
      ∃ broker, port.subscribe topic handler = (.ok (), { port with broker }) ∧
        broker.subscriptions = Client.register port.broker.subscriptions topic handler ∧
        broker.operations = .subscribe topic :: port.broker.operations := by
  by_cases hrefused : port.refuseSubscribe.contains topic = true
  · exact .inl ⟨_, by rw [Port.subscribe, if_pos hrefused]⟩
  cases hconnected : port.broker.connected with
  | false =>
      left
      rw [Port.subscribe, if_neg hrefused]
      exact ⟨.noSession, by simp [Broker.subscribe, hconnected]⟩
  | true =>
      right
      rw [Port.subscribe, if_neg hrefused]
      simp only [Broker.subscribe, hconnected, if_true]
      exact ⟨_, rfl, rfl, rfl⟩

theorem Faithful.subscribe (hplace : Faithful registry place) {kept : List (String × Handler)}
    {topic : String} {handler : Handler} (hmem : (topic, handler) ∈ kept)
    (hothers : ∀ entry ∈ registry, entry.1 ≠ topic → entry ∈ kept)
    (hlive : last.1.broker.subscriptions =
      Client.register place.1.broker.subscriptions topic handler) : Faithful kept last := by
  constructor
  · rw [Broker.topics, hlive]
    exact PubSub.register_nodup hplace.nodup topic handler
  · rw [hlive]
    rintro ⟨other, another⟩ hother
    obtain ⟨rfl, rfl⟩ | ⟨hne, hlive⟩ := PubSub.mem_register.mp hother
    · exact hmem
    · exact hothers _ (hplace.registered hlive) hne

theorem subscribe_hears (hplace : Faithful registry place) {topic : String} {handler : Handler}
    (hmem : (topic, handler) ∈ registry) :
    Hears registry place ((place.1.subscribe topic handler).2, place.2) := by
  obtain ⟨reason, hrefused⟩ | ⟨broker, hok, hlive, hoperations⟩ :=
    subscribe_cases place.1 topic handler
  · rw [hrefused]
    exact .of_silent hplace rfl rfl
  · rw [hok]
    refine .of_silent (hplace.subscribe hmem (fun entry hentry _ => hentry) hlive) ?_ rfl
    simp only [delivered, hoperations]
    rfl

namespace Messaging

theorem answer_hears (client : Client Handler Hook) (hplace : Faithful registry place)
    {q : Query Handler Hook}
    (hq : ∀ topic handler, q = .subscribe topic handler → (topic, handler) ∈ registry) :
    Hears registry place ((reactions client).answer q place).2 := by
  cases q with
  | connect =>
      simp only [Reactions.answer, Port.connect, Broker.connect]
      split
      · exact .of_silent (hplace.of_live rfl) rfl rfl
      · exact .of_silent (hplace.of_live rfl) rfl rfl
  | disconnect => exact .of_silent ⟨List.nodup_nil, List.nil_subset registry⟩ rfl rfl
  | subscribe topic handler => exact subscribe_hears hplace (hq topic handler rfl)
  | gate shut => exact .of_silent hplace rfl rfl
  | wait length state => exact .of_silent (hplace.of_live rfl) rfl rfl
  | resume hook =>
      have hnoted : Hears registry place (place.1, place.2.add (.resumed hook.tag .connected)) :=
        .of_silent (hplace.of_live rfl) rfl rfl
      simp only [Reactions.answer, reactions]
      split
      · exact hnoted
      · exact hnoted.trans (publish_hears hnoted.faithful _)
  | say notice => exact .of_silent (hplace.of_live rfl) rfl rfl

-- Whatever is replied in between, a talk that only subscribes to what is registered keeps to it.
theorem run_hears {α : Type} {post : α → Prop} (client : Client Handler Hook)
    {talk : PubSub.Talk Handler Hook α} (h : KeepsTo registry post talk)
    (hplace : Faithful registry place) :
    post (talk.run (reactions client).answer place).1 ∧
      Hears registry place (talk.run (reactions client).answer place).2 := by
  induction talk generalizing place with
  | done a => exact ⟨h, .of_silent hplace rfl rfl⟩
  | ask q next ih =>
      have hanswer := answer_hears client hplace h.1
      obtain ⟨hpost, hrest⟩ := ih _ (h.2 _) hanswer.faithful
      exact ⟨hpost, hanswer.trans hrest⟩

structure Keeps (b last : Messaging) : Prop where
  registry : last.client.registry = b.client.registry
  hears : Hears b.client.registry b.place last.place

theorem speak_keeps {α : Type} {b : Messaging}
    {talk : PubSub.Talk Handler Hook (α × Client Handler Hook)}
    (h : KeepsTo b.client.registry (fun result => result.2.registry = b.client.registry) talk)
    (hplace : Faithful b.client.registry b.place) : Keeps b (b.speak talk).2 := by
  obtain ⟨hregistry, hhears⟩ := run_hears b.client h hplace
  exact ⟨hregistry, hhears⟩

theorem afterDrop_keeps {b : Messaging} (hplace : Faithful b.client.registry b.place)
    (reason : String) : Keeps b (b.afterDrop reason).2 :=
  speak_keeps (b.client.keepsTo_afterDrop reason) hplace

theorem interrupt_keeps (b : Messaging) (reason : String) : Keeps b (b.interrupt reason) := by
  let place : Place := (b.place.1.interrupt, b.place.2.say (PubSub.droppedNotice reason))
  have hdropped : Hears b.client.registry b.place place :=
    .of_silent ⟨List.nodup_nil, List.nil_subset _⟩ rfl rfl
  obtain ⟨hregistry, hhears⟩ := afterDrop_keeps (b := { b with place }) hdropped.faithful reason
  exact ⟨hregistry, hdropped.trans hhears⟩

theorem perform_keeps {b : Messaging} (hplace : Faithful b.client.registry b.place) {act : Act}
    (hact : ∀ topic handler, act ≠ .subscribe topic handler) : Keeps b (b.perform act) := by
  cases act with
  | connect => exact speak_keeps b.client.keepsTo_connect hplace
  | disconnect =>
      exact speak_keeps (b.client.keepsTo_disconnect.bind fun client hclient => hclient) hplace
  | subscribe topic handler => exact (hact topic handler rfl).elim
  | publish message => exact ⟨rfl, publish_hears hplace message⟩
  | deliver message => exact ⟨rfl, deliver_hears hplace message⟩
  | interrupt reason => exact b.interrupt_keeps reason
  | afterDrop reason => exact afterDrop_keeps hplace reason
  | refuse count => exact ⟨rfl, .of_silent (hplace.of_live rfl) rfl rfl⟩
  | addHook hook => exact ⟨rfl, .of_silent hplace rfl rfl⟩
  | nest reason => exact ⟨rfl, .of_silent (hplace.of_live rfl) rfl rfl⟩

-- A subscription fails and changes nothing, or puts the handler in the place of any other on its
-- topic.
theorem subscribe_result (b : Messaging) (topic : String) (handler : Handler) :
    (∃ reason, b.subscribe topic handler = (.error reason, b)) ∨
      (b.subscribe topic handler).1 = .ok () ∧
        (b.subscribe topic handler).2.client =
          { b.client with registry := Client.register b.client.registry topic handler } ∧
        (b.subscribe topic handler).2.place.1.broker.subscriptions =
          Client.register b.broker.subscriptions topic handler ∧
        delivered (b.subscribe topic handler).2.place = delivered b.place ∧
        handled (b.subscribe topic handler).2.place = handled b.place := by
  obtain ⟨reason, hrefused⟩ | ⟨broker, hok, hlive, hoperations⟩ :=
    subscribe_cases b.place.1 topic handler
  · refine .inl ⟨.subscribeRefused topic reason.message, ?_⟩
    simp only [subscribe, speak, Client.subscribe, Client.subscribeLive, Dialogue.ask_bind,
      Dialogue.run_ask, Reactions.answer, hrefused]
    rfl
  · right
    have hspeak : b.subscribe topic handler = (.ok (),
        { client := { b.client with registry := Client.register b.client.registry topic handler }
          place := ({ b.place.1 with broker }, b.place.2) }) := by
      simp only [subscribe, speak, Client.subscribe, Client.subscribeLive, Dialogue.ask_bind,
        Dialogue.run_ask, Reactions.answer, hok]
      rfl
    rw [hspeak]
    refine ⟨rfl, rfl, hlive, ?_, rfl⟩
    simp only [delivered, hoperations]
    rfl

def refusing (b : Messaging) (refused : List String) : Messaging :=
  { b with place := ({ b.place.1 with refuseSubscribe := refused }, b.place.2) }

structure Request where
  refused : List String
  act : Act

def performAt (b : Messaging) (request : Request) : Messaging :=
  (b.refusing request.refused).perform request.act

def runAt (b : Messaging) (requests : List Request) : Messaging := requests.foldl performAt b

theorem runAt_concat (b : Messaging) (requests : List Request) (request : Request) :
    b.runAt (requests ++ [request]) = (b.runAt requests).performAt request := List.foldl_concat ..

def Subscribes (b : Messaging) (topic : String) (handler : Handler) (request : Request) : Prop :=
  request.act = .subscribe topic handler ∧
    ((b.refusing request.refused).subscribe topic handler).1 = .ok ()

-- A handler was subscribed to a topic, and since then no other was.
def Latest (b : Messaging) (requests : List Request) (topic : String) (handler : Handler) : Prop :=
  Lasting (fun before => (b.runAt before).Subscribes topic handler)
    (fun before request => ∃ other, (b.runAt before).Subscribes topic other request) requests

theorem Latest.concat_iff (b : Messaging) (requests : List Request) (last : Request)
    (topic : String) (handler : Handler) :
    b.Latest (requests ++ [last]) topic handler ↔
      (b.runAt requests).Subscribes topic handler last ∨
        (b.Latest requests topic handler ∧
          ¬ ∃ other, (b.runAt requests).Subscribes topic other last) := by
  unfold Latest
  exact Lasting.concat_iff requests last

structure Kept (b : Messaging) : Prop where
  nodup : b.client.subscriptions.Nodup
  faithful : Faithful b.client.registry b.place

theorem Keeps.kept {b last : Messaging} (h : Keeps b last) (hb : b.Kept) : last.Kept := by
  constructor
  · rw [Client.subscriptions, h.registry]
    exact hb.nodup
  · rw [h.registry]
    exact h.hears.faithful

theorem Kept.refusing {b : Messaging} (h : b.Kept) (refused : List String) :
    (b.refusing refused).Kept := ⟨h.nodup, h.faithful.of_live rfl⟩

structure Turns (b : Messaging) (request : Request) (last : Messaging) : Prop where
  kept : last.Kept
  mem_iff : ∀ topic handler, (topic, handler) ∈ last.client.registry ↔
    b.Subscribes topic handler request ∨
      ((topic, handler) ∈ b.client.registry ∧ ¬ ∃ other, b.Subscribes topic other request)
  runs : ∃ runs : List (String × Handler), runs ⊆ b.client.registry ∧
    delivered last.place = runs.map Prod.fst ++ delivered b.place ∧
    handled last.place = (runs.map fun run => (run.1, run.2.tag)) ++ handled b.place

theorem Turns.of_keeps {b last : Messaging} {request : Request} (hb : b.Kept)
    (h : Keeps (b.refusing request.refused) last)
    (hnone : ∀ topic handler, ¬ b.Subscribes topic handler request) : Turns b request last := by
  refine ⟨h.kept (hb.refusing request.refused), fun topic handler => ?_, h.hears.runs⟩
  have hothers : ¬ ∃ other, b.Subscribes topic other request :=
    fun ⟨other, hother⟩ => hnone topic other hother
  rw [h.registry]
  exact ⟨fun hmem => .inr ⟨hmem, hothers⟩, fun h => (h.resolve_left (hnone topic handler)).1⟩

theorem subscribes_iff {b : Messaging} {refused : List String} {topic other : String}
    {handler another : Handler} :
    b.Subscribes other another ⟨refused, .subscribe topic handler⟩ ↔
      (other = topic ∧ another = handler) ∧
        ((b.refusing refused).subscribe topic handler).1 = .ok () := by
  constructor
  · rintro ⟨hact, hok⟩
    obtain ⟨rfl, rfl⟩ := Act.subscribe.inj hact
    exact ⟨⟨rfl, rfl⟩, hok⟩
  · rintro ⟨⟨rfl, rfl⟩, hok⟩
    exact ⟨rfl, hok⟩

theorem Turns.of_subscribe {b : Messaging} (hb : b.Kept) (refused : List String) (topic : String)
    (handler : Handler) :
    Turns b ⟨refused, .subscribe topic handler⟩
      ((b.refusing refused).subscribe topic handler).2 := by
  have hrefusing := hb.refusing refused
  obtain ⟨reason, hfailed⟩ | ⟨hok, hclient, hlive, hdelivered, hhandled⟩ :=
    (b.refusing refused).subscribe_result topic handler
  · rw [hfailed]
    refine .of_keeps hb ⟨rfl, .of_silent hrefusing.faithful rfl rfl⟩ fun other another h => ?_
    have hok := (subscribes_iff.mp h).2
    rw [hfailed] at hok
    cases hok
  have hregistry : ((b.refusing refused).subscribe topic handler).2.client.registry =
      Client.register b.client.registry topic handler := by
    rw [hclient]
    rfl
  refine ⟨⟨?_, ?_⟩, fun other another => ?_, [], List.nil_subset _, hdelivered, hhandled⟩
  · rw [Client.subscriptions, hregistry]
    exact PubSub.register_nodup hb.nodup topic handler
  · rw [hregistry]
    refine hrefusing.faithful.subscribe (PubSub.mem_register.mpr (.inl ⟨rfl, rfl⟩)) ?_ hlive
    exact fun entry hentry hne => PubSub.mem_register.mpr (.inr ⟨hne, hentry⟩)
  · have hothers : (∃ last, b.Subscribes other last ⟨refused, .subscribe topic handler⟩) ↔
        other = topic := by
      simp only [subscribes_iff, hok, and_true, exists_and_left, exists_eq, and_true]
    rw [hregistry, PubSub.mem_register, subscribes_iff, hothers, and_iff_left hok,
      and_comm (a := other ≠ topic)]

theorem performAt_turns {b : Messaging} (hb : b.Kept) (request : Request) :
    Turns b request (b.performAt request) := by
  obtain ⟨refused, act⟩ := request
  by_cases hact : ∃ topic handler, act = .subscribe topic handler
  · obtain ⟨topic, handler, rfl⟩ := hact
    exact .of_subscribe hb refused topic handler
  · have hnone (topic : String) (handler : Handler) : act ≠ .subscribe topic handler :=
      fun h => hact ⟨topic, handler, h⟩
    exact .of_keeps hb (perform_keeps (hb.refusing refused).faithful hnone)
      fun topic handler h => hnone topic handler h.1

theorem start_kept (policy : PubSub.ReconnectPolicy) : Kept { client := { policy } } :=
  ⟨List.nodup_nil, List.nodup_nil, List.nil_subset _⟩

theorem runAt_mem_iff (policy : PubSub.ReconnectPolicy) (requests : List Request) :
    let first : Messaging := { client := { policy } }
    (first.runAt requests).Kept ∧ ∀ topic handler,
      (topic, handler) ∈ (first.runAt requests).client.registry ↔
        first.Latest requests topic handler := by
  intro first
  induction requests using List.reverseRecOn with
  | nil =>
      refine ⟨start_kept policy, fun topic handler => ?_⟩
      exact iff_of_false List.not_mem_nil not_lasting_nil
  | append_singleton requests request ih =>
      obtain ⟨hkept, hlatest⟩ := ih
      have hturns := performAt_turns hkept request
      rw [runAt_concat]
      refine ⟨hturns.kept, fun topic handler => ?_⟩
      rw [hturns.mem_iff, hlatest, Latest.concat_iff]

-- Whatever was asked before, with whatever refused, a topic is registered once, what is delivered
-- runs the one handler that was subscribed last, and a subscription that fails changes nothing.
theorem runAt_runs_latest (policy : PubSub.ReconnectPolicy) (requests : List Request) :
    let first : Messaging := { client := { policy } }
    let last := first.runAt requests
    last.client.subscriptions.Nodup ∧
      (∀ topic, (last.broker.deliver topic).1 = [] ∨
        ∃ handler, (last.broker.deliver topic).1 = [handler] ∧
          first.Latest requests topic handler) ∧
      (∀ request, ∃ runs : List (String × Handler),
        (∀ run ∈ runs, first.Latest requests run.1 run.2) ∧
          delivered (last.performAt request).place = runs.map Prod.fst ++ delivered last.place ∧
          handled (last.performAt request).place =
            (runs.map fun run => (run.1, run.2.tag)) ++ handled last.place) ∧
      ∀ refused topic handler reason,
        ((last.refusing refused).subscribe topic handler).1 = .error reason →
          ((last.refusing refused).subscribe topic handler).2 = last.refusing refused := by
  intro first last
  obtain ⟨hkept, hlatest⟩ := runAt_mem_iff policy requests
  refine ⟨hkept.nodup, fun topic => ?_, fun request => ?_, ?_⟩
  · obtain hnone | ⟨handler, hmem, hone⟩ := deliver_cases hkept.faithful topic
    · exact .inl (congrArg Prod.fst hnone)
    · refine .inr ⟨handler, congrArg Prod.fst hone, ?_⟩
      exact (hlatest topic handler).mp (hkept.faithful.registered hmem)
  · obtain ⟨runs, hruns, hdelivered, hhandled⟩ := (performAt_turns hkept request).runs
    exact ⟨runs, fun run hrun => (hlatest run.1 run.2).mp (hruns hrun), hdelivered, hhandled⟩
  · intro refused topic handler reason hfailed
    obtain ⟨other, hresult⟩ | ⟨hok, -⟩ := (last.refusing refused).subscribe_result topic handler
    · rw [hresult]
    · rw [hok] at hfailed
      cases hfailed

-- A handler that is replaced, one that is refused in its place, a recovery that is refused its
-- topic to the end, and one that is not.
def replaced : List Request :=
  [⟨[], .connect⟩, ⟨[], .subscribe "t" { tag := "x" }⟩, ⟨[], .subscribe "t" { tag := "y" }⟩,
    ⟨["t"], .subscribe "t" { tag := "z" }⟩, ⟨["t"], .interrupt "gone"⟩, ⟨[], .afterDrop "gone"⟩]

theorem runAt_runs_latest_replaced :
    let first : Messaging := { client := { policy := .standard } }
    let last := (first.runAt replaced).performAt ⟨[], .deliver ⟨"t", []⟩⟩
    first.Latest replaced "t" { tag := "y" } ∧
      delivered last.place = ["t"] ∧ handled last.place = [("t", "y")] := by
  intro first last
  obtain ⟨-, hdeliver, -, -⟩ := runAt_runs_latest .standard replaced
  obtain hnone | ⟨handler, hone, hlatest⟩ := hdeliver "t"
  · exact absurd hnone (by decide)
  · have hlive : ((first.runAt replaced).broker.deliver "t").1 = [{ tag := "y" }] := by decide
    obtain rfl := List.singleton_inj.mp (hone.symm.trans hlive)
    exact ⟨hlatest, by decide, by decide⟩

end Messaging

end RelayGateway.Bench
