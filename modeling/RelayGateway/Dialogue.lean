namespace RelayGateway

-- A program that ends in an `α` after asking finitely many queries along every path of
-- replies.
inductive Dialogue (Query : Type) (Reply : Query → Type) (α : Type) where
  | done (result : α)
  | ask (query : Query) (next : Reply query → Dialogue Query Reply α)

namespace Dialogue

variable {Query : Type} {Reply : Query → Type} {α β σ : Type}

def bind : Dialogue Query Reply α → (α → Dialogue Query Reply β) → Dialogue Query Reply β
  | done a, f => f a
  | ask q next, f => ask q fun reply => (next reply).bind f

instance : Monad (Dialogue Query Reply) where
  pure := done
  bind := bind

def query (q : Query) : Dialogue Query Reply (Reply q) :=
  ask q done

def run (answer : (q : Query) → σ → Reply q × σ) : Dialogue Query Reply α → σ → α × σ
  | done a, s => (a, s)
  | ask q next, s => (next (answer q s).1).run answer (answer q s).2

-- A query together with the reply it was given.
structure Exchange (Query : Type) (Reply : Query → Type) where
  query : Query
  reply : Reply query

-- One possible course of a dialogue: the exchanges in order and the result. No assumption is made
-- on the replies, so a statement about every transcript holds in all surroundings.
inductive Transcript : Dialogue Query Reply α → List (Exchange Query Reply) → α → Prop
  | done (a : α) : Transcript (done a) [] a
  | ask {q : Query} {next : Reply q → Dialogue Query Reply α} (reply : Reply q)
      {rest : List (Exchange Query Reply)} {a : α} :
      Transcript (next reply) rest a → Transcript (ask q next) (⟨q, reply⟩ :: rest) a

def trace (answer : (q : Query) → σ → Reply q × σ) :
    Dialogue Query Reply α → σ → List (Exchange Query Reply)
  | done _, _ => []
  | ask q next, s => ⟨q, (answer q s).1⟩ :: (next (answer q s).1).trace answer (answer q s).2

@[simp] theorem pure_eq_done (a : α) : (pure a : Dialogue Query Reply α) = done a := rfl

@[simp] theorem done_bind (a : α) (f : α → Dialogue Query Reply β) :
    (done a >>= f) = f a := rfl

@[simp] theorem ask_bind (q : Query) (next : Reply q → Dialogue Query Reply α)
    (f : α → Dialogue Query Reply β) :
    (ask q next >>= f) = ask q fun reply => next reply >>= f := rfl

@[simp] theorem query_bind (q : Query) (f : Reply q → Dialogue Query Reply β) :
    (query q >>= f) = ask q f := rfl

@[simp] theorem run_done (answer : (q : Query) → σ → Reply q × σ) (a : α) (s : σ) :
    (done a : Dialogue Query Reply α).run answer s = (a, s) := rfl

@[simp] theorem run_ask (answer : (q : Query) → σ → Reply q × σ) (q : Query)
    (next : Reply q → Dialogue Query Reply α) (s : σ) :
    (ask q next).run answer s = (next (answer q s).1).run answer (answer q s).2 := rfl

theorem run_bind (answer : (q : Query) → σ → Reply q × σ) (d : Dialogue Query Reply α)
    (f : α → Dialogue Query Reply β) (s : σ) :
    (d >>= f).run answer s = (f (d.run answer s).1).run answer (d.run answer s).2 := by
  induction d generalizing s with
  | done a => rfl
  | ask q next ih => exact ih (answer q s).1 (answer q s).2

@[simp] theorem trace_done (answer : (q : Query) → σ → Reply q × σ) (a : α) (s : σ) :
    (done a : Dialogue Query Reply α).trace answer s = [] := rfl

@[simp] theorem trace_ask (answer : (q : Query) → σ → Reply q × σ) (q : Query)
    (next : Reply q → Dialogue Query Reply α) (s : σ) :
    (ask q next).trace answer s =
      ⟨q, (answer q s).1⟩ :: (next (answer q s).1).trace answer (answer q s).2 := rfl

theorem trace_bind (answer : (q : Query) → σ → Reply q × σ) (d : Dialogue Query Reply α)
    (f : α → Dialogue Query Reply β) (s : σ) :
    (d >>= f).trace answer s =
      d.trace answer s ++ (f (d.run answer s).1).trace answer (d.run answer s).2 := by
  induction d generalizing s with
  | done a => rfl
  | ask q next ih => exact congrArg (⟨q, (answer q s).1⟩ :: ·) (ih (answer q s).1 (answer q s).2)

theorem transcript_trace (answer : (q : Query) → σ → Reply q × σ) (d : Dialogue Query Reply α)
    (s : σ) : Transcript d (d.trace answer s) (d.run answer s).1 := by
  induction d generalizing s with
  | done a => exact .done a
  | ask q next ih => exact .ask (answer q s).1 (ih (answer q s).1 (answer q s).2)

theorem forall_mem_trace {answer : (q : Query) → σ → Reply q × σ}
    {P : Exchange Query Reply → Prop} (h : ∀ q s, P ⟨q, (answer q s).1⟩)
    (d : Dialogue Query Reply α) (s : σ) : ∀ x ∈ d.trace answer s, P x := by
  induction d generalizing s with
  | done a => simp
  | ask q next ih => exact List.forall_mem_cons.mpr ⟨h q s, ih (answer q s).1 (answer q s).2⟩

theorem Transcript.of_done {a b : α} {exchanges : List (Exchange Query Reply)}
    (h : Transcript (.done a) exchanges b) : exchanges = [] ∧ b = a := by
  cases h
  exact ⟨rfl, rfl⟩

theorem Transcript.of_ask {q : Query} {next : Reply q → Dialogue Query Reply α}
    {exchanges : List (Exchange Query Reply)} {a : α} (h : Transcript (.ask q next) exchanges a) :
    ∃ reply rest, exchanges = ⟨q, reply⟩ :: rest ∧ Transcript (next reply) rest a := by
  cases h with
  | ask reply hrest => exact ⟨reply, _, rfl, hrest⟩

theorem Transcript.of_query_bind {q : Query} {f : Reply q → Dialogue Query Reply α}
    {exchanges : List (Exchange Query Reply)} {a : α}
    (h : Transcript (Dialogue.query q >>= f) exchanges a) :
    ∃ reply rest, exchanges = ⟨q, reply⟩ :: rest ∧ Transcript (f reply) rest a :=
  of_ask h

theorem Transcript.of_bind {d : Dialogue Query Reply α} {f : α → Dialogue Query Reply β}
    {exchanges : List (Exchange Query Reply)} {b : β} (h : Transcript (d >>= f) exchanges b) :
    ∃ front a rest, exchanges = front ++ rest ∧ Transcript d front a ∧ Transcript (f a) rest b := by
  induction d generalizing exchanges with
  | done a => exact ⟨[], a, exchanges, rfl, .done a, h⟩
  | ask q next ih =>
      obtain ⟨reply, exchanges, rfl, hnext⟩ := h.of_ask
      obtain ⟨front, a, rest, rfl, hfront, hrest⟩ := ih reply hnext
      exact ⟨⟨q, reply⟩ :: front, a, rest, rfl, .ask reply hfront, hrest⟩

end Dialogue

end RelayGateway
