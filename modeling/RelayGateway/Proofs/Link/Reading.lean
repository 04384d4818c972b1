import RelayGateway.Link.Transport
import RelayGateway.Proofs.Frame.Reader
import Mathlib.Data.List.ReduceOption

namespace RelayGateway.Link.Station

open RelayGateway.Frame (Decoder Outcome)

structure Took (s t : Station) (taken : List ReadResult) : Prop where
  unread : s.wire.unread = taken ++ t.wire.unread
  transport : t.transport =
    { s.transport with decoder := s.transport.decoder.feed (bytesOf taken) }
  wire : t.wire = { s.wire with unread := t.wire.unread }

def delivered? : Except Error (Option (List UInt8)) → Option (List UInt8)
  | .ok frame => frame
  | .error _ => none

def reply : Except StreamFailure Outcome → Except Error (Attempt (List UInt8))
  | .ok (.frame payload) => .ok (.done payload)
  | .ok .incomplete => .ok .retry
  | .ok (.invalid _) => .ok .retry
  | .error failure => .error (.io failure.message)

-- What a retried read comes to, if its attempts have these outcomes: the first frame or failure.
def settle : List (Except StreamFailure Outcome) → Except Error (Option (List UInt8))
  | [] => .ok none
  | outcome :: rest =>
    match reply outcome with
    | .ok (.done payload) => .ok (some payload)
    | .ok .retry => settle rest
    | .error e => .error e

theorem payload?_of_reply (pulled : Frame.Pulled) :
    pulled.payload? =
      match reply pulled.outcome with
      | .ok (.done payload) => some payload
      | _ => none := by
  rcases pulled with ⟨failure | (payload | - | fault), decoder, unread⟩ <;> rfl

theorem Took.refl (s : Station) : Took s s [] := ⟨rfl, rfl, rfl⟩

theorem Took.decoder {s t : Station} {taken : List ReadResult} (h : Took s t taken) :
    t.transport.decoder = s.transport.decoder.feed (bytesOf taken) := by
  rw [h.transport]

theorem Took.isOpen {s t : Station} {taken : List ReadResult} (h : Took s t taken) :
    t.transport.isOpen = s.transport.isOpen := by
  rw [h.transport]

theorem Took.trans {s t u : Station} {front back : List ReadResult} (hfront : Took s t front)
    (hback : Took t u back) : Took s u (front ++ back) := by
  refine ⟨?_, ?_, ?_⟩
  · rw [hfront.unread, hback.unread, List.append_assoc]
  · rw [hback.transport, hfront.transport, bytesOf_append, Decoder.feed_append]
  · rw [hback.wire, hfront.wire]

theorem attemptFrame_spec (s : Station) (number : Nat) :
    (s.attemptFrame number).1 = reply (s.transport.decoder.pull s.wire.unread).outcome ∧
      (s.attemptFrame number).2.transport.decoder =
        (s.transport.decoder.pull s.wire.unread).decoder ∧
      (s.attemptFrame number).2.wire.unread =
        (s.transport.decoder.pull s.wire.unread).unread ∧
      ∃ taken, Took s (s.attemptFrame number).2 taken ∧
        s.transport.decoder.payloads (bytesOf taken) =
          (s.transport.decoder.pull s.wire.unread).payload?.toList := by
  obtain ⟨taken, hunread, hdecoder, hpayloads⟩ :=
    s.transport.decoder.pull_spec s.wire.unread
  have htransport := congrArg (fun decoder => { s.transport with decoder }) hdecoder
  rcases houtcome : (s.transport.decoder.pull s.wire.unread).outcome with
      failure | (payload | - | fault) <;>
    simp only [attemptFrame, houtcome] <;>
    exact ⟨rfl, by trivial, by trivial, taken, ⟨hunread, htransport, rfl⟩, hpayloads⟩

def attemptAll (s : Station) (pause : Duration) (number remaining : Nat) :
    Except Error (Option (List UInt8)) × Station :=
  (RetryPolicy.runFrom pause number remaining).run answerRetry s

def paused (s : Station) (pause : Duration) (remaining : Nat) : Station :=
  if 0 < remaining ∧ pause.isZero = false then s.sleep pause else s

@[simp] theorem paused_transport (s : Station) (pause : Duration) (remaining : Nat) :
    (s.paused pause remaining).transport = s.transport := by
  unfold paused
  split <;> rfl

@[simp] theorem paused_wire (s : Station) (pause : Duration) (remaining : Nat) :
    (s.paused pause remaining).wire = s.wire := by
  unfold paused
  split <;> rfl

theorem Took.paused {s t : Station} {taken : List ReadResult} (h : Took s t taken)
    (pause : Duration) (remaining : Nat) : Took s (t.paused pause remaining) taken := by
  refine ⟨?_, ?_, ?_⟩
  · rw [paused_wire, h.unread]
  · rw [paused_transport, h.transport]
  · rw [paused_wire, h.wire]

theorem attemptAll_succ (s : Station) (pause : Duration) (number remaining : Nat) :
    s.attemptAll pause number (remaining + 1) =
      match s.attemptFrame number with
      | (.error e, t) => (.error e, t)
      | (.ok (.done payload), t) => (.ok (some payload), t)
      | (.ok .retry, t) => (t.paused pause remaining).attemptAll pause (number + 1) remaining := by
  simp only [attemptAll, RetryPolicy.runFrom, Dialogue.run, answerRetry]
  rcases s.attemptFrame number with ⟨result, t⟩
  rcases result with e | payload | -
  · rfl
  · rfl
  · simp only [paused]
    split <;> rfl

-- A retried read comes to what its attempts do. It takes reads up to where it stops, and among
-- their bytes is the frame that it brings and no other.
theorem attemptAll_spec (s : Station) (pause : Duration) (number remaining : Nat) :
    (s.attemptAll pause number remaining).1 =
        settle (s.transport.decoder.attempts s.wire.unread remaining) ∧
      ∃ taken, Took s (s.attemptAll pause number remaining).2 taken ∧
        s.transport.decoder.payloads (bytesOf taken) =
          (delivered? (s.attemptAll pause number remaining).1).toList := by
  induction remaining generalizing s number with
  | zero => exact ⟨rfl, [], .refl s, rfl⟩
  | succ remaining ih =>
      obtain ⟨hresult, hdecoder, hunread, taken, htook, hpayloads⟩ := s.attemptFrame_spec number
      rw [attemptAll_succ, Decoder.attempts, settle, ← hresult]
      rw [payload?_of_reply, ← hresult] at hpayloads
      rw [← hdecoder, ← hunread]
      generalize s.attemptFrame number = attempt at htook hpayloads ⊢
      rcases attempt with ⟨e | payload | -, t⟩
      · exact ⟨rfl, taken, htook, hpayloads⟩
      · exact ⟨rfl, taken, htook, hpayloads⟩
      · obtain ⟨hrest, more, hmore, hfound⟩ := ih (t.paused pause remaining) (number + 1)
        rw [paused_transport, paused_wire] at hrest
        rw [paused_transport] at hfound
        refine ⟨hrest, taken ++ more, (htook.paused pause remaining).trans hmore, ?_⟩
        rw [bytesOf_append, Decoder.payloads_append, ← htook.decoder, hfound, hpayloads]
        rfl

theorem settle_ok {outcomes : List (Except StreamFailure Outcome)}
    (hok : ∀ outcome ∈ outcomes, ∃ value, outcome = .ok value) :
    ∃ frame, settle outcomes = .ok frame := by
  induction outcomes with
  | nil => exact ⟨none, rfl⟩
  | cons outcome rest ih =>
      obtain ⟨⟨value, rfl⟩, hrest⟩ := List.forall_mem_cons.mp hok
      cases value with
      | frame payload => exact ⟨some payload, rfl⟩
      | incomplete => exact ih hrest
      | invalid fault => exact ih hrest

theorem readWithin_of_open {s : Station} (hopen : s.transport.isOpen) (policy : RetryPolicy) :
    s.readWithin policy =
      match (s.enter .reading).attemptAll policy.pause 0 policy.maxAttempts with
      | (.ok frame, t) => (.ok frame, t.enter .connected)
      | (.error e, t) =>
        (.error e, (t.say (.error s!"Serial: read failed: {e.message}")).close) :=
  if_pos hopen

-- A read of an open link without hard failures: it succeeds, takes some of the reads into the
-- decoder, and leaves the link open.
theorem readWithin_spec {s : Station} (hopen : s.transport.isOpen)
    (hsoft : ∀ read ∈ s.wire.unread, read.isSoft) (policy : RetryPolicy) :
    ∃ frame taken, (s.readWithin policy).1 = .ok frame ∧
      s.wire.unread = taken ++ (s.readWithin policy).2.wire.unread ∧
      (s.readWithin policy).2.transport.decoder = s.transport.decoder.feed (bytesOf taken) ∧
      (s.readWithin policy).2.transport.isOpen ∧
      s.transport.decoder.payloads (bytesOf taken) = frame.toList := by
  obtain ⟨hresult, taken, htook, hpayloads⟩ :=
    (s.enter .reading).attemptAll_spec policy.pause 0 policy.maxAttempts
  obtain ⟨frame, hframe⟩ :=
    settle_ok (s.transport.decoder.attempts_ok_of_soft policy.maxAttempts hsoft)
  have hok := hresult.trans hframe
  rw [readWithin_of_open hopen]
  generalize (s.enter .reading).attemptAll policy.pause 0 policy.maxAttempts = run
    at htook hpayloads hok ⊢
  rcases run with ⟨result, t⟩
  obtain rfl : result = .ok frame := hok
  exact ⟨frame, taken, rfl, htook.unread, htook.decoder, htook.isOpen.trans hopen, hpayloads⟩

theorem attemptAll_unread_length_le (s : Station) (pause : Duration) (number remaining : Nat) :
    (s.attemptAll pause number (remaining + 1)).2.wire.unread.length ≤
      s.wire.unread.length - 1 := by
  obtain ⟨-, -, hunread, -⟩ := s.attemptFrame_spec number
  have hle := s.transport.decoder.pull_unread_length_le_pred s.wire.unread
  rw [← hunread] at hle
  rw [attemptAll_succ]
  generalize s.attemptFrame number = attempt at hle ⊢
  rcases attempt with ⟨e | payload | -, t⟩
  · exact hle
  · exact hle
  · obtain ⟨-, taken, htook, -⟩ :=
      (t.paused pause remaining).attemptAll_spec pause (number + 1) remaining
    have hlength := congrArg List.length htook.unread
    rw [paused_wire, List.length_append] at hlength
    dsimp only at hle ⊢
    omega

theorem readWithin_unread_length_le {s : Station} (hopen : s.transport.isOpen)
    {policy : RetryPolicy} (hbudget : 0 < policy.maxAttempts) :
    (s.readWithin policy).2.wire.unread.length ≤ s.wire.unread.length - 1 := by
  obtain ⟨remaining, hremaining⟩ := Nat.exists_eq_succ_of_ne_zero (Nat.pos_iff_ne_zero.mp hbudget)
  have hle := (s.enter .reading).attemptAll_unread_length_le policy.pause 0 remaining
  rw [readWithin_of_open hopen, hremaining]
  generalize (s.enter .reading).attemptAll policy.pause 0 (remaining + 1) = run at hle ⊢
  rcases run with ⟨e | frame, t⟩
  · exact hle
  · exact hle

theorem readWithin_retry (s : Station) (policy : RetryPolicy) :
    (s.readWithin policy).2.transport.retry = s.transport.retry := by
  by_cases hopen : s.transport.isOpen
  · obtain ⟨-, taken, htook, -⟩ :=
      (s.enter .reading).attemptAll_spec policy.pause 0 policy.maxAttempts
    have hretry := congrArg Transport.retry htook.transport
    rw [readWithin_of_open hopen]
    generalize (s.enter .reading).attemptAll policy.pause 0 policy.maxAttempts = run at hretry ⊢
    rcases run with ⟨e | frame, t⟩
    · exact hretry
    · exact hretry
  · rw [readWithin, if_neg hopen]

end RelayGateway.Link.Station
