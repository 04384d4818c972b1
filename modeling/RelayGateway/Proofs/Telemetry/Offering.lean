import RelayGateway.Bench.Polling
import Mathlib.Data.List.Forall2

namespace RelayGateway.Telemetry

open PubSub (Message)

namespace Outlet

variable {σ : Type} {outlet : Outlet σ} {refusal : Message → Notice}

-- A run of attempts from one state to another: each message with whether it was accepted. What is
-- refused is told, and the run goes on.
inductive Offers (outlet : Outlet σ) (refusal : Message → Notice) :
    σ → List (Message × Bool) → σ → Prop where
  | done (world : σ) : Offers outlet refusal world [] world
  | accepted {message : Message} {world next last : σ} {rest : List (Message × Bool)}
      (hpost : outlet.post message world = (true, next))
      (hrest : Offers outlet refusal next rest last) :
      Offers outlet refusal world ((message, true) :: rest) last
  | refused {message : Message} {world next last : σ} {rest : List (Message × Bool)}
      (hpost : outlet.post message world = (false, next))
      (hrest : Offers outlet refusal (outlet.say (refusal message) next) rest last) :
      Offers outlet refusal world ((message, false) :: rest) last

theorem exists_offers (outlet : Outlet σ) (refusal : Message → Notice) (messages : List Message)
    (world : σ) :
    ∃ attempts, attempts.map Prod.fst = messages ∧
      outlet.Offers refusal world attempts (outlet.offer refusal messages world).2 ∧
      (outlet.offer refusal messages world).1 = attempts.countP Prod.snd := by
  induction messages generalizing world with
  | nil => exact ⟨[], rfl, .done world, rfl⟩
  | cons message messages ih =>
      rcases hpost : outlet.post message world with ⟨verdict, next⟩
      rw [offer, hpost]
      cases verdict with
      | true =>
          obtain ⟨attempts, hmessages, hoffers, hcount⟩ := ih next
          refine ⟨(message, true) :: attempts, ?_, .accepted hpost hoffers, ?_⟩
          · rw [List.map_cons, hmessages]
          · rw [List.countP_cons_of_pos rfl, ← hcount]
      | false =>
          obtain ⟨attempts, hmessages, hoffers, hcount⟩ := ih (outlet.say (refusal message) next)
          refine ⟨(message, false) :: attempts, ?_, .refused hpost hoffers, ?_⟩
          · rw [List.map_cons, hmessages]
          · rw [List.countP_cons_of_neg Bool.false_ne_true, ← hcount]

-- Whether an outlet goes by the topics alone: of states that are the same up to the payloads, it
-- accepts the same topics, and leaves such states.
structure Blind (outlet : Outlet σ) (same : σ → σ → Prop) : Prop where
  post : ∀ {message other : Message} {world next : σ}, message.topic = other.topic →
    same world next → (outlet.post message world).1 = (outlet.post other next).1 ∧
      same (outlet.post message world).2 (outlet.post other next).2
  say : ∀ (notice : Notice) {world next : σ}, same world next →
    same (outlet.say notice world) (outlet.say notice next)

theorem Blind.offer {same : σ → σ → Prop} (h : outlet.Blind same)
    (hrefusal : ∀ {message other : Message}, message.topic = other.topic →
      refusal message = refusal other) {messages others : List Message}
    (htopics : List.Forall₂ (fun message other : Message => message.topic = other.topic)
      messages others) {world next : σ} (hworld : same world next) :
    (outlet.offer refusal messages world).1 = (outlet.offer refusal others next).1 ∧
      same (outlet.offer refusal messages world).2 (outlet.offer refusal others next).2 := by
  induction htopics generalizing world next with
  | nil => exact ⟨rfl, hworld⟩
  | @cons message other messages others htopic htopics ih =>
      obtain ⟨hverdict, hnext⟩ := h.post htopic hworld
      rcases hpost : outlet.post message world with ⟨verdict, after⟩
      rcases hother : outlet.post other next with ⟨verdict', after'⟩
      rw [hpost, hother] at hverdict hnext
      change verdict = verdict' at hverdict
      subst hverdict
      rw [Outlet.offer, Outlet.offer, hpost, hother]
      cases verdict with
      | true =>
          obtain ⟨hcount, hsame⟩ := ih hnext
          exact ⟨congrArg (· + 1) hcount, hsame⟩
      | false =>
          rw [hrefusal htopic]
          exact ih (h.say _ hnext)

end Outlet

end RelayGateway.Telemetry

namespace RelayGateway

namespace PubSub

variable {Handler : Type}

def Message.bare (message : Message) : Message := { message with payload := [] }

def Broker.unread (b : Broker Handler) : Broker Handler :=
  { b with published := b.published.map Message.bare }

@[simp] theorem Broker.unread_connected (b : Broker Handler) : b.unread.connected = b.connected := rfl

theorem Broker.deliver_unread (b : Broker Handler) (topic : String) :
    b.unread.deliver topic = ((b.deliver topic).1, (b.deliver topic).2.unread) := by
  unfold deliver
  cases hconnected : b.connected with
  | false =>
      rw [unread_connected, hconnected]
      rfl
  | true =>
      simp only [unread_connected, hconnected, if_true, apply_ite unread]
      rfl

theorem Broker.publish_unread (b : Broker Handler) (message : Message) :
    b.unread.publish message.bare = ((b.publish message).1, (b.publish message).2.unread) := by
  unfold publish
  cases hconnected : b.connected with
  | false =>
      rw [unread_connected, hconnected]
      rfl
  | true =>
      have hdeliver := ({ b with connected := true, published := message :: b.published }.record
        (.publish message.topic)).deliver_unread message.topic
      simp only [unread_connected, hconnected, if_true]
      exact congrArg (fun delivered => (some delivered.1, delivered.2)) hdeliver

def Port.unread (p : Port Handler) : Port Handler := { p with broker := p.broker.unread }

theorem Port.publish_unread (p : Port Handler) (message : Message) :
    p.unread.publish message.bare = ((p.publish message).1, (p.publish message).2.unread) := by
  unfold publish
  cases hrefused : p.refusePublish.contains message.topic with
  | true =>
      have hsame : p.unread.refusePublish.contains message.bare.topic = true := hrefused
      rw [if_pos hsame, if_pos rfl]
  | false =>
      have hsame : ¬ p.unread.refusePublish.contains message.bare.topic = true := by
        change ¬ p.refusePublish.contains message.topic = true
        rw [hrefused]
        exact Bool.false_ne_true
      rw [if_neg hsame, if_neg Bool.false_ne_true]
      exact congrArg (fun published => (published.1, { p with broker := published.2 }))
        (p.broker.publish_unread message)

end PubSub

namespace Bench.Polling

def unread (b : Polling) : Polling := { b with port := b.port.unread }

theorem post_unread (message : PubSub.Message) (b : Polling) :
    surroundings.outlet.post message.bare b.unread =
      ((surroundings.outlet.post message b).1, (surroundings.outlet.post message b).2.unread) :=
  congrArg (fun published => (published.1.isSome, { b with port := published.2 }))
    (b.port.publish_unread message)

-- The broker on the bench goes by the topics alone.
theorem blind_outlet : surroundings.outlet.Blind fun b other => b.unread = other.unread where
  post {message other b next} htopic hsame := by
    have hbare : message.bare = other.bare := by
      rw [PubSub.Message.bare, PubSub.Message.bare, htopic]
    have hboth := post_unread message b
    rw [hbare, hsame, post_unread other next] at hboth
    obtain ⟨hverdict, hnext⟩ := Prod.mk.inj hboth
    exact ⟨hverdict.symm, hnext.symm⟩
  say notice b next hsame := by
    have hsay (b : Polling) : (surroundings.outlet.say notice b).unread =
        surroundings.outlet.say notice b.unread := rfl
    rw [hsay, hsay, hsame]

end Bench.Polling

end RelayGateway
