import RelayGateway.Link.Retry
import Mathlib.Data.List.Basic

namespace RelayGateway.RetryPolicy

variable {ε α σ : Type}

abbrev Exchange (ε α : Type) := Dialogue.Exchange Query (Reply ε α)

namespace Exchange

def attempted (number : Nat) (reply : Except ε (Attempt α)) : Exchange ε α := ⟨.attempt number, reply⟩

def slept (length : Duration) : Exchange ε α := ⟨.sleep length, ()⟩

def number? (x : Exchange ε α) : Option Nat :=
  match x.query with
  | .attempt number => some number
  | .sleep _ => none

def sleep? (x : Exchange ε α) : Option Duration :=
  match x.query with
  | .attempt _ => none
  | .sleep length => some length

end Exchange

def numbers (xs : List (Exchange ε α)) : List Nat := xs.filterMap Exchange.number?

def sleeps (xs : List (Exchange ε α)) : List Duration := xs.filterMap Exchange.sleep?

def interval (pause : Duration) : List (Exchange ε α) := if pause.isZero then [] else [.slept pause]

def course (pause : Duration) : (number : Nat) → List (Except ε (Attempt α)) → List (Exchange ε α)
  | _, [] => []
  | number, [reply] => [.attempted number reply]
  | number, reply :: next :: rest =>
    .attempted number reply :: (interval pause ++ course pause (number + 1) (next :: rest))

-- As many requests for another attempt as are allowed, or fewer and then something else.
def Replies (allowed : Nat) (replies : List (Except ε (Attempt α))) : Prop :=
  replies = List.replicate allowed (.ok .retry) ∨
    ∃ retries < allowed, ∃ last ≠ .ok .retry, replies = List.replicate retries (.ok .retry) ++ [last]

def conclusion : Option (Except ε (Attempt α)) → Except ε (Option α)
  | none => .ok none
  | some (.ok .retry) => .ok none
  | some (.ok (.done value)) => .ok (some value)
  | some (.error e) => .error e

namespace Replies

variable {allowed : Nat} {replies : List (Except ε (Attempt α))}

theorem last {reply : Except ε (Attempt α)} (h : reply ≠ .ok .retry) (allowed : Nat) :
    Replies (allowed + 1) [reply] := .inr ⟨0, Nat.succ_pos allowed, reply, h, rfl⟩

theorem again (h : Replies allowed replies) : Replies (allowed + 1) (.ok .retry :: replies) := by
  obtain rfl | ⟨retries, hlt, last, hlast, rfl⟩ := h
  · exact .inl rfl
  · exact .inr ⟨retries + 1, Nat.succ_lt_succ hlt, last, hlast, rfl⟩

theorem ne_nil_iff (h : Replies allowed replies) : replies ≠ [] ↔ 0 < allowed := by
  obtain rfl | ⟨retries, hlt, last, -, rfl⟩ := h
  · rw [Ne, List.replicate_eq_nil_iff, Nat.pos_iff_ne_zero]
  · exact iff_of_true (by simp) (by omega)

theorem length_le (h : Replies allowed replies) : replies.length ≤ allowed := by
  obtain rfl | ⟨retries, hlt, last, -, rfl⟩ := h
  · exact Nat.le_of_eq List.length_replicate
  · rwa [List.length_append, List.length_replicate]

end Replies

theorem conclusion_again (replies : List (Except ε (Attempt α))) :
    conclusion (.ok .retry :: replies).getLast? = conclusion replies.getLast? := by
  cases replies with
  | nil => rfl
  | cons next rest => rw [List.getLast?_cons_cons]

theorem course_cons {replies : List (Except ε (Attempt α))} (h : replies ≠ []) (pause : Duration)
    (number : Nat) (reply : Except ε (Attempt α)) :
    course pause number (reply :: replies) =
      .attempted number reply :: (interval pause ++ course pause (number + 1) replies) := by
  obtain ⟨next, rest, rfl⟩ := List.exists_cons_of_ne_nil h
  rfl

theorem numbers_interval (pause : Duration) (xs : List (Exchange ε α)) :
    numbers (interval pause ++ xs) = numbers xs := by
  unfold interval
  split <;> rfl

theorem sleeps_interval (pause : Duration) (xs : List (Exchange ε α)) :
    sleeps (interval pause ++ xs) = (if pause.isZero then [] else [pause]) ++ sleeps xs := by
  unfold interval
  split <;> rfl

theorem numbers_course (pause : Duration) (number : Nat) (replies : List (Except ε (Attempt α))) :
    numbers (course pause number replies) = List.range' number replies.length := by
  induction replies generalizing number with
  | nil => rfl
  | cons reply replies ih =>
      cases replies with
      | nil => rfl
      | cons next rest =>
          calc
            numbers (course pause number (reply :: next :: rest)) =
                number :: numbers (interval pause ++ course pause (number + 1) (next :: rest)) := rfl
            _ = number :: List.range' (number + 1) (rest.length + 1) := by
              rw [numbers_interval, ih (number + 1), List.length_cons]

-- There is one pause less than attempts.
theorem sleeps_course (pause : Duration) (number : Nat) (replies : List (Except ε (Attempt α))) :
    sleeps (course pause number replies) =
      if pause.isZero then [] else List.replicate (replies.length - 1) pause := by
  induction replies generalizing number with
  | nil => exact (ite_self _).symm
  | cons reply replies ih =>
      cases replies with
      | nil => exact (ite_self _).symm
      | cons next rest =>
          have hrest : sleeps (course pause number (reply :: next :: rest)) =
              sleeps (interval pause ++ course pause (number + 1) (next :: rest)) := rfl
          rw [hrest, sleeps_interval, ih (number + 1)]
          split <;> rfl

theorem runFrom_course {pause : Duration} {number remaining : Nat} {xs : List (Exchange ε α)}
    {result : Except ε (Option α)}
    (h : Dialogue.Transcript (runFrom pause number remaining) xs result) :
    ∃ replies, Replies remaining replies ∧ xs = course pause number replies ∧
      result = conclusion replies.getLast? := by
  induction remaining generalizing number xs with
  | zero =>
      obtain ⟨rfl, rfl⟩ := h.of_done
      exact ⟨[], .inl rfl, rfl, rfl⟩
  | succ remaining ih =>
      obtain ⟨reply, rest, rfl, hrest⟩ := h.of_ask
      rcases reply with e | value | -
      · obtain ⟨rfl, rfl⟩ := hrest.of_done
        have hlast : (.error e : Except ε (Attempt α)) ≠ .ok .retry := nofun
        exact ⟨[.error e], .last hlast remaining, rfl, rfl⟩
      · obtain ⟨rfl, rfl⟩ := hrest.of_done
        have hlast : (.ok (.done value) : Except ε (Attempt α)) ≠ .ok .retry := nofun
        exact ⟨[.ok (.done value)], .last hlast remaining, rfl, rfl⟩
      · dsimp only at hrest
        split at hrest
        · rename_i hpause
          obtain ⟨slept, rest, rfl, hlater⟩ := hrest.of_ask
          obtain ⟨replies, hreplies, rfl, rfl⟩ := ih hlater
          refine ⟨.ok .retry :: replies, hreplies.again, ?_, (conclusion_again replies).symm⟩
          rw [course_cons (hreplies.ne_nil_iff.mpr hpause.1), interval, hpause.2]
          rfl
        · rename_i hpause
          obtain ⟨replies, hreplies, rfl, rfl⟩ := ih hrest
          refine ⟨.ok .retry :: replies, hreplies.again, ?_, (conclusion_again replies).symm⟩
          -- without a pause, or with no attempt left to pause before
          by_cases hleft : 0 < remaining
          · have hzero : pause.isZero = true := by simpa [hleft] using hpause
            rw [course_cons (hreplies.ne_nil_iff.mpr hleft), interval, hzero]
            rfl
          · have hnil : replies = [] := by
              by_contra hne
              exact hleft (hreplies.ne_nil_iff.mp hne)
            rw [hnil]
            rfl

theorem toNat_succ {number limit : UInt32} (h : number < limit) :
    (number + 1).toNat = number.toNat + 1 := by
  have hlt : number.toNat < limit.toNat := h
  have hlimit := limit.toNat_lt
  rw [UInt32.toNat_add]
  exact Nat.mod_eq_of_lt (by rw [UInt32.toNat_one]; omega)

-- The attempts as a loop counts them in a word of 32 bits, whose sums wrap around.
def runWord (pause : Duration) (limit number : UInt32) :
    Dialogue Query (Reply ε α) (Except ε (Option α)) :=
  if _ : number < limit then
    .ask (.attempt number.toNat) fun reply =>
      match reply with
      | .error e => .done (.error e)
      | .ok (.done value) => .done (.ok (some value))
      | .ok .retry =>
        if number + 1 < limit ∧ pause.isZero = false then
          .ask (.sleep pause) fun _ => runWord pause limit (number + 1)
        else runWord pause limit (number + 1)
  else .done (.ok none)
termination_by limit.toNat - number.toNat
decreasing_by
  all_goals
    have hlt : number < limit := ‹_›
    have hbelow : number.toNat < limit.toNat := hlt
    rw [toNat_succ hlt]
    omega

theorem runWord_eq (pause : Duration) (limit number : UInt32) :
    (runWord pause limit number : Dialogue Query (Reply ε α) (Except ε (Option α))) =
      runFrom pause number.toNat (limit.toNat - number.toNat) := by
  fun_induction runWord pause limit number with
  | case1 number hlt ih =>
      have hbelow : number.toNat < limit.toNat := hlt
      have hnext := toNat_succ hlt
      obtain ⟨remaining, hremaining⟩ : ∃ remaining, limit.toNat - number.toNat = remaining + 1 :=
        ⟨limit.toNat - number.toNat - 1, by omega⟩
      have hrest : limit.toNat - (number.toNat + 1) = remaining := by omega
      have hmore : number + 1 < limit ↔ 0 < remaining := by
        rw [UInt32.lt_iff_toNat_lt, hnext]
        omega
      rw [hnext, hrest] at ih
      rw [hremaining, runFrom]
      refine congrArg (Dialogue.ask _) (funext fun reply => ?_)
      rcases reply with e | value | -
      · rfl
      · rfl
      · simp only [hmore, ih]
  | case2 number hge =>
      have habove : limit.toNat ≤ number.toNat := by simpa [UInt32.lt_iff_toNat_lt] using hge
      rw [Nat.sub_eq_zero_of_le habove]
      rfl

-- Whatever the attempts come to, they are numbered from zero and made up to the first that does not
-- ask for another, or as many as are allowed. Between two of them lies a pause, so there is one less,
-- and the last attempt decides. None is made if none is allowed. If the number allowed fits into 32
-- bits, so does all that is counted, and a loop that counts in such words does the same.
theorem run_course (policy : RetryPolicy) (answer : (q : Query) → σ → Reply ε α q × σ) (s : σ) :
    let xs := policy.run.trace answer s
    ∃ replies, Replies policy.maxAttempts replies ∧ xs = course policy.pause 0 replies ∧
      numbers xs = List.range replies.length ∧
      sleeps xs =
        (if policy.pause.isZero then [] else List.replicate (replies.length - 1) policy.pause) ∧
      (policy.run.run answer s).1 = conclusion replies.getLast? ∧
      (policy.maxAttempts = 0 → xs = [] ∧ (policy.run.run answer s).1 = .ok none) ∧
      ∀ limit : UInt32, limit.toNat = policy.maxAttempts →
        policy.run = (runWord policy.pause limit 0 : Dialogue Query (Reply ε α) _) ∧
          ∀ number ∈ numbers xs, number + 1 < 2 ^ 32 := by
  intro xs
  obtain ⟨replies, hreplies, hxs, hresult⟩ :=
    runFrom_course (Dialogue.transcript_trace answer policy.run s)
  have hnumbers : numbers xs = List.range replies.length := by
    rw [show xs = _ from hxs, numbers_course, List.range_eq_range']
  refine ⟨replies, hreplies, hxs, hnumbers, ?_, hresult, ?_, ?_⟩
  · rw [show xs = _ from hxs, sleeps_course]
  · intro hnone
    have hnil : replies = [] := List.length_eq_zero_iff.mp (by have := hreplies.length_le; omega)
    rw [hresult, show xs = _ from hxs, hnil]
    exact ⟨rfl, rfl⟩
  · intro limit hlimit
    refine ⟨?_, fun number hnumber => ?_⟩
    · rw [runWord_eq, hlimit]
      rfl
    · rw [hnumbers, List.mem_range] at hnumber
      have hle := hreplies.length_le
      have hword := limit.toNat_lt
      omega

end RelayGateway.RetryPolicy
