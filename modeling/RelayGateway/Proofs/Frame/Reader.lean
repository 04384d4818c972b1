import RelayGateway.Frame.Reader
import RelayGateway.Proofs.Frame.Decoder

namespace RelayGateway

-- Whether a read brings a byte or only says that nothing has arrived yet.
def ReadResult.isSoft : ReadResult → Bool
  | .byte _ => true
  | .nothing => true
  | .failed failure => failure.isDry

def bytesOf (reads : List ReadResult) : List UInt8 :=
  reads.filterMap fun
    | .byte value => some value
    | _ => none

@[simp] theorem bytesOf_nil : bytesOf [] = [] := rfl

@[simp] theorem bytesOf_append (front back : List ReadResult) :
    bytesOf (front ++ back) = bytesOf front ++ bytesOf back :=
  List.filterMap_append

@[simp] theorem bytesOf_byte (value : UInt8) (rest : List ReadResult) :
    bytesOf (.byte value :: rest) = value :: bytesOf rest := rfl

namespace Frame

def Step.payload? : Step → Option (List UInt8)
  | .frame payload => some payload
  | _ => none

def Pulled.payload? (pulled : Pulled) : Option (List UInt8) :=
  match pulled.outcome with
  | .ok (.frame payload) => some payload
  | _ => none

namespace Decoder

-- The payloads of the frames that some bytes complete, in order.
def payloads (d : Decoder) (bytes : List UInt8) : List (List UInt8) :=
  (d.events bytes).1.filterMap fun event => event.2.payload?

def feed (d : Decoder) (bytes : List UInt8) : Decoder := (d.events bytes).2

def attempts (d : Decoder) (unread : List ReadResult) : Nat → List (Except StreamFailure Outcome)
  | 0 => []
  | count + 1 =>
    (d.pull unread).outcome :: (d.pull unread).decoder.attempts (d.pull unread).unread count

theorem eventsFrom_offset (d : Decoder) (first second : Nat) (bytes : List UInt8) :
    ((d.eventsFrom first bytes).1.map Prod.snd, (d.eventsFrom first bytes).2) =
      ((d.eventsFrom second bytes).1.map Prod.snd, (d.eventsFrom second bytes).2) := by
  induction bytes generalizing d first second with
  | nil => rfl
  | cons byte rest ih =>
      have hrest := Prod.mk.inj (ih (d.push byte).2 (first + 1) (second + 1))
      by_cases hpending : (d.push byte).1 = .pending
      · simp only [eventsFrom_of_pending hpending, hrest]
      · simp only [eventsFrom_of_ne_pending hpending, List.map_cons, hrest]

theorem payloads_eq_eventsFrom (d : Decoder) (offset : Nat) (bytes : List UInt8) :
    d.payloads bytes = ((d.eventsFrom offset bytes).1.map Prod.snd).filterMap Step.payload? := by
  rw [(Prod.mk.inj (d.eventsFrom_offset offset 0 bytes)).1, List.filterMap_map]
  rfl

theorem feed_eq_eventsFrom (d : Decoder) (offset : Nat) (bytes : List UInt8) :
    d.feed bytes = (d.eventsFrom offset bytes).2 :=
  (Prod.mk.inj (d.eventsFrom_offset 0 offset bytes)).2

@[simp] theorem payloads_nil (d : Decoder) : d.payloads [] = [] := rfl

@[simp] theorem feed_nil (d : Decoder) : d.feed [] = d := rfl

theorem feed_cons (d : Decoder) (byte : UInt8) (rest : List UInt8) :
    d.feed (byte :: rest) = (d.push byte).2.feed rest := by
  rw [feed_eq_eventsFrom (d.push byte).2 1 rest, feed, events]
  by_cases hpending : (d.push byte).1 = .pending
  · rw [eventsFrom_of_pending hpending]
  · rw [eventsFrom_of_ne_pending hpending]

@[simp] theorem feed_lengthBytes_length (d : Decoder) (bytes : List UInt8) :
    (d.feed bytes).lengthBytes.length = d.lengthBytes.length := by
  induction bytes generalizing d with
  | nil => rfl
  | cons byte rest ih => rw [feed_cons, ih, push_lengthBytes_length]

theorem payloads_cons (d : Decoder) (byte : UInt8) (rest : List UInt8) :
    d.payloads (byte :: rest) =
      (d.push byte).1.payload?.toList ++ (d.push byte).2.payloads rest := by
  rw [payloads_eq_eventsFrom d 0, payloads_eq_eventsFrom (d.push byte).2 1 rest]
  by_cases hpending : (d.push byte).1 = .pending
  · rw [eventsFrom_of_pending hpending, hpending]
    rfl
  · rw [eventsFrom_of_ne_pending hpending, List.map_cons]
    cases hstep : (d.push byte).1.payload? with
    | none => rw [List.filterMap_cons_none hstep]; rfl
    | some payload => rw [List.filterMap_cons_some hstep]; rfl

theorem feed_append (d : Decoder) (front back : List UInt8) :
    d.feed (front ++ back) = (d.feed front).feed back := by
  rw [feed, events, eventsFrom_append, ← feed_eq_eventsFrom]
  rfl

theorem payloads_append (d : Decoder) (front back : List UInt8) :
    d.payloads (front ++ back) = d.payloads front ++ (d.feed front).payloads back := by
  rw [payloads_eq_eventsFrom d 0, eventsFrom_append, List.map_append, List.filterMap_append,
    ← payloads_eq_eventsFrom, ← payloads_eq_eventsFrom]
  rfl

-- An attempt takes the reads up to the one that ends it. Its decoder and its frame, if there is
-- one, are those of the bytes that it took.
theorem pull_spec (d : Decoder) (unread : List ReadResult) :
    ∃ taken, unread = taken ++ (d.pull unread).unread ∧
      (d.pull unread).decoder = d.feed (bytesOf taken) ∧
      d.payloads (bytesOf taken) = (d.pull unread).payload?.toList := by
  induction unread generalizing d with
  | nil => exact ⟨[], rfl, rfl, rfl⟩
  | cons read rest ih =>
      cases read with
      | nothing => exact ⟨[.nothing], rfl, rfl, rfl⟩
      | failed failure =>
          refine ⟨[.failed failure], rfl, rfl, ?_⟩
          simp only [pull, Pulled.payload?]
          by_cases hdry : failure.isDry
          · rw [if_pos hdry]
            rfl
          · rw [if_neg hdry]
            rfl
      | byte value =>
          rcases hpush : d.push value with ⟨step, next⟩
          have hfeed : d.feed (bytesOf [.byte value]) = next := by
            rw [bytesOf_byte, feed_cons, hpush]
            rfl
          have hpayloads : d.payloads (bytesOf [.byte value]) = step.payload?.toList := by
            rw [bytesOf_byte, payloads_cons, hpush, bytesOf_nil, payloads_nil, List.append_nil]
          simp only [pull, hpush]
          cases step with
          | pending =>
              obtain ⟨taken, hunread, hdecoder, hpayload⟩ := ih next
              refine ⟨.byte value :: taken, congrArg (.byte value :: ·) hunread, ?_, ?_⟩
              · rw [bytesOf_byte, feed_cons, hpush]
                exact hdecoder
              · rw [bytesOf_byte, payloads_cons, hpush]
                exact hpayload
          | frame payload => exact ⟨[.byte value], rfl, hfeed.symm, hpayloads⟩
          | invalid fault => exact ⟨[.byte value], rfl, hfeed.symm, hpayloads⟩

theorem pull_unread_length_le (d : Decoder) (unread : List ReadResult) :
    (d.pull unread).unread.length ≤ unread.length := by
  obtain ⟨taken, hunread, -⟩ := d.pull_spec unread
  have hlength := congrArg List.length hunread
  rw [List.length_append] at hlength
  omega

theorem pull_unread_length_le_pred (d : Decoder) (unread : List ReadResult) :
    (d.pull unread).unread.length ≤ unread.length - 1 := by
  cases unread with
  | nil => exact Nat.le_refl 0
  | cons read rest =>
      rw [List.length_cons, Nat.add_sub_cancel]
      cases read with
      | nothing => exact Nat.le_refl _
      | failed failure => exact Nat.le_refl _
      | byte value =>
          rcases hpush : d.push value with ⟨step, next⟩
          simp only [pull, hpush]
          cases step with
          | pending => exact next.pull_unread_length_le rest
          | frame payload => exact Nat.le_refl _
          | invalid fault => exact Nat.le_refl _

theorem pull_ok_of_soft (d : Decoder) {unread : List ReadResult}
    (hsoft : ∀ read ∈ unread, read.isSoft) : ∃ outcome, (d.pull unread).outcome = .ok outcome := by
  induction unread generalizing d with
  | nil => exact ⟨.incomplete, rfl⟩
  | cons read rest ih =>
      obtain ⟨hread, hrest⟩ := List.forall_mem_cons.mp hsoft
      cases read with
      | nothing => exact ⟨.incomplete, rfl⟩
      | failed failure => exact ⟨.incomplete, if_pos hread⟩
      | byte value =>
          rcases hpush : d.push value with ⟨step, next⟩
          simp only [pull, hpush]
          cases step with
          | pending => exact ih next hrest
          | frame payload => exact ⟨_, rfl⟩
          | invalid fault => exact ⟨_, rfl⟩

theorem attempts_ok_of_soft (d : Decoder) {unread : List ReadResult} (count : Nat)
    (hsoft : ∀ read ∈ unread, read.isSoft) :
    ∀ outcome ∈ d.attempts unread count, ∃ value, outcome = .ok value := by
  induction count generalizing d unread with
  | zero => simp [attempts]
  | succ count ih =>
      obtain ⟨taken, hunread, -⟩ := d.pull_spec unread
      have hrest : ∀ read ∈ (d.pull unread).unread, read.isSoft := fun read hread =>
        hsoft read (hunread ▸ List.mem_append_right taken hread)
      exact List.forall_mem_cons.mpr ⟨d.pull_ok_of_soft hsoft, ih _ hrest⟩

end Decoder

end Frame

end RelayGateway
