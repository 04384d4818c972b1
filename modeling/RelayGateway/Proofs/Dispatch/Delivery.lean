import Mathlib.Data.List.Forall2
import RelayGateway.Proofs.Dispatch.Execution
import RelayGateway.Proofs.Frame.Grammar
import RelayGateway.Proofs.Link.Writing
import RelayGateway.Proofs.Packed.Varint

namespace RelayGateway

open RelayGateway.Frame (encode lengthField lengthValue payloadLimit)

namespace Packed

theorem writeVarint_length {limit n : Nat} (h : n < 128 ^ limit) :
    0 < (writeVarint n).length ∧ (limit ≠ 0 → (writeVarint n).length ≤ limit) := by
  induction limit generalizing n with
  | zero =>
      obtain rfl : n = 0 := by omega
      exact ⟨by decide +kernel, fun hne => (hne rfl).elim⟩
  | succ limit ih =>
      rw [writeVarint]
      split
      · simp
      · rename_i hlarge
        have hhigh : n / 128 < 128 ^ limit := by
          apply Nat.div_lt_of_lt_mul
          rw [← Nat.pow_succ']
          exact h
        have hlimit : limit ≠ 0 := by
          rintro rfl
          omega
        have hrest := (ih hhigh).2 hlimit
        simp only [List.length_cons]
        omega

theorem writeVarint_word_length (n : UInt32) :
    0 < (writeVarint n.toNat).length ∧ (writeVarint n.toNat).length ≤ 5 := by
  have hlimit : n.toNat < 128 ^ 5 := Nat.lt_trans n.toNat_lt (by decide)
  exact ⟨(writeVarint_length hlimit).1, (writeVarint_length hlimit).2 (by decide)⟩

end Packed

-- Whether a command that the device reads is the one that was asked for. Whatever state was
-- desired, the device is told the relay alone.
inductive Command.Conveyed : Command → DeviceCommand → Prop
  | relay {index : Nat} {desired : Option Bool} {relay : UInt32} (h : relay.toNat = index) :
      Conveyed (.toggleRelay index desired) (.toggleRelay relay)
  | probe (sensor : UInt32) (value : Binary32) :
      Conveyed (.calibrateProbe sensor value) (.calibrateProbe sensor value)

-- No index of a board with so few relays loses anything to the low 32 bits.
theorem Command.Tells.conveyed {relays : Nat} {command : Command} {device : DeviceCommand}
    (h : command.Tells device) (hcount : relays ≤ 2 ^ 32) (hfits : command.Fits relays) :
    command.Conveyed device := by
  cases h with
  | @relay index desired relay h =>
      have hindex : index < relays := hfits
      exact .relay (h.trans (Nat.mod_eq_of_lt (Nat.lt_of_lt_of_le hindex hcount)))
  | probe sensor value => exact .probe sensor value

namespace DeviceCommand

theorem toBytes_length (command : DeviceCommand) :
    0 < command.toBytes.length ∧ command.toBytes.length ≤ payloadLimit := by
  have hvariant := Packed.writeVarint_word_length
  cases command with
  | toggleRelay relay =>
      have hzero := hvariant 0
      have hrelay := hvariant relay
      simp only [toBytes, List.length_append, payloadLimit]
      simp only [UInt32.toNat_zero] at hzero
      omega
  | calibrateProbe sensor value =>
      have hone := hvariant 1
      have hsensor := hvariant sensor
      simp only [toBytes, List.length_append, payloadLimit, Packed.writeBits, List.length_cons,
        List.length_nil]
      simp only [UInt32.toNat_one] at hone
      omega

-- The commands in bytes that were sent: one after the other, each in as many bytes as the length
-- in front of it says.
def ofStream? : List UInt8 → Option (List DeviceCommand)
  | [] => some []
  | [_] => none
  | low :: high :: rest =>
    let size := lengthValue [low, high]
    if size ≤ rest.length then do
      let command ← (ofBytes (rest.take size)).toOption
      let commands ← ofStream? (rest.drop size)
      return command :: commands
    else none
termination_by bytes => bytes.length
decreasing_by
  rw [List.length_drop, List.length_cons, List.length_cons]
  omega

theorem ofStream?_frame (command : DeviceCommand) (rest : List UInt8) :
    ofStream? (lengthField command.toBytes.length ++ command.toBytes ++ rest) =
      (ofStream? rest).map (command :: ·) := by
  have hlimit := command.toBytes_length.2
  have hsize := Frame.lengthValue_lengthField
    (Nat.lt_of_le_of_lt hlimit (show payloadLimit < 2 ^ 16 by decide))
  have htake : (command.toBytes ++ rest).take command.toBytes.length = command.toBytes :=
    List.take_left
  have hdrop : (command.toBytes ++ rest).drop command.toBytes.length = rest := List.drop_left
  rw [lengthField] at hsize ⊢
  simp only [List.cons_append, List.nil_append]
  rw [ofStream?.eq_3]
  simp only [hsize, htake, hdrop, ofBytes_toBytes, List.length_append, Nat.le_add_right, if_true]
  cases ofStream? rest <;> rfl

theorem ofStream?_frames (commands : List DeviceCommand) :
    ofStream? (commands.map fun command =>
      lengthField command.toBytes.length ++ command.toBytes).flatten = some commands := by
  induction commands with
  | nil => rw [List.map_nil, List.flatten_nil, ofStream?]
  | cons command commands ih =>
      rw [List.map_cons, List.flatten_cons, ofStream?_frame, ih, Option.map_some]

end DeviceCommand

theorem Command.conveyed_filter {relays : Nat} (commands : List Command)
    (hcount : relays ≤ 2 ^ 32) :
    List.Forall₂ Conveyed (commands.filter fun command => command.Fits relays)
      ((commands.filter fun command => command.Fits relays).map toDevice) := by
  rw [List.forall₂_map_right_iff, List.forall₂_same]
  intro command hmem
  exact command.tells_toDevice.conveyed hcount (of_decide_eq_true (List.mem_filter.mp hmem).2)

namespace Dispatch

open Telemetry (Snapshot)
open Link (Station)

variable {σ : Type}

-- Whether the stream took a write in full, if it came as far as the stream. A link that is closed
-- takes nothing.
def Write.Taken (w : Write) : Prop :=
  w.result = .ok () ∨ ∃ reason, w.result = .error (.encode reason)

namespace Board

theorem encode_payload (command : Command) :
    encode (payload command) = .ok (lengthField (payload command).length ++ payload command) :=
  Frame.encode_of_length command.toDevice.toBytes_length.1 command.toDevice.toBytes_length.2

def Writer.writeAll (write : Writer σ) : List (List UInt8) → σ → List Write × σ
  | [], world => ([], world)
  | payload :: payloads, world =>
    let (result, world) := write payload world
    let (writes, world) := writeAll write payloads world
    (⟨payload, result⟩ :: writes, world)

-- Of all that carrying out commands does, only the writes reach the writer's world.
theorem executeAll_writeAll (write : Writer σ) (jobs : List (Command × Snapshot)) (b : Board)
    (world : σ) :
    let run := executeAll write jobs b world
    (run.1.flatMap (·.writes), run.2.2) =
      write.writeAll (((jobs.map Prod.fst).filter fun command =>
        command.Fits b.store.count).map payload) world := by
  induction jobs generalizing b world with
  | nil => rfl
  | cons job jobs ih =>
      obtain ⟨command, snapshot⟩ := job
      by_cases hfits : command.Fits b.store.count
      · have hrest := ih { b with snapshot, store := b.store.after command }
          (write (payload command) world).2
        -- a command leaves the number of relays as it is, and so which commands fit
        rw [Relay.Store.count_after] at hrest
        have hchange := change_of_fits (b := { b with snapshot }) hfits
        simp only [List.map_cons, List.filter_cons, hfits, decide_true, if_true, executeAll,
          execute, hchange, Writer.noting, List.nil_append, List.flatMap_cons, Writer.writeAll,
          ← hrest]
        rfl
      · obtain ⟨index, desired, rfl, -, hchange⟩ :=
          exists_of_not_fits (b := { b with snapshot }) hfits
        have hrest := ih { b with snapshot } world
        simp only [List.map_cons, List.filter_cons, hfits, decide_false, Bool.false_eq_true,
          if_false, executeAll, execute, hchange, List.flatMap_cons, List.nil_append]
        exact hrest

theorem writeAll_sent {payloads : List (List UInt8)} {s s' : Station} {writes : List Write}
    (hrun : Writer.writeAll (fun payload station => station.writeFrame payload) payloads s =
      (writes, s'))
    (hframed : ∀ payload ∈ payloads, ∃ frame, encode payload = .ok frame)
    (htaken : ∀ w ∈ writes, w.Taken) :
    (∀ w ∈ writes, w.result = .ok ()) ∧
      s'.wire.sent =
        s.wire.sent ++ payloads.map fun payload => lengthField payload.length ++ payload := by
  induction payloads generalizing s writes with
  | nil =>
      obtain ⟨rfl, rfl⟩ := Prod.mk.inj hrun
      exact ⟨fun w hw => (List.not_mem_nil hw).elim, (List.append_nil _).symm⟩
  | cons payload payloads ih =>
      simp only [Writer.writeAll, Prod.mk.injEq] at hrun
      obtain ⟨rfl, rfl⟩ := hrun
      obtain ⟨frame, hframe⟩ := hframed payload List.mem_cons_self
      have hfirst : (s.writeFrame payload).1 = .ok () := by
        obtain hok | ⟨reason, herror⟩ := htaken _ List.mem_cons_self
        · exact hok
        · exact (Station.writeFrame_ne_encode hframe s reason herror).elim
      obtain ⟨hresults, hsent⟩ := ih rfl
        (fun other hmem => hframed other (List.mem_cons_of_mem _ hmem))
        (fun w hw => htaken w (List.mem_cons_of_mem _ hw))
      refine ⟨?_, ?_⟩
      · intro w hw
        obtain rfl | hw := List.mem_cons.mp hw
        · exact hfirst
        · exact hresults w hw
      · rw [hsent, Station.writeFrame_sent hfirst, List.map_cons, List.append_assoc]
        rfl

-- Carried out in a row over a link that takes all that comes to it, no command fails to be framed,
-- and what is sent reads, frame after frame, as the commands that the board can carry out.
theorem executeAll_delivers {b : Board} (hcount : b.store.count ≤ 2 ^ 32)
    {jobs : List (Command × Snapshot)} {s : Station}
    (htaken : let (outcomes, _) :=
        executeAll (fun payload station => station.writeFrame payload) jobs b s
      ∀ outcome ∈ outcomes, ∀ w ∈ outcome.writes, w.Taken) :
    let (outcomes, _, s') := executeAll (fun payload station => station.writeFrame payload) jobs b s
    (∀ command, ∃ frame, encode (payload command) = .ok frame) ∧
      (∀ outcome ∈ outcomes, ∀ w ∈ outcome.writes, w.result = .ok ()) ∧
      ∃ frames received, s'.wire.sent = s.wire.sent ++ frames ∧
        DeviceCommand.ofStream? frames.flatten = some received ∧
        List.Forall₂ Command.Conveyed
          ((jobs.map Prod.fst).filter fun command => command.Fits b.store.count) received := by
  have hall := executeAll_writeAll (fun payload (station : Station) => station.writeFrame payload)
    jobs b s
  dsimp only at hall htaken ⊢
  generalize executeAll (fun payload (station : Station) => station.writeFrame payload) jobs b s
    = run at hall htaken ⊢
  obtain ⟨outcomes, b', s'⟩ := run
  let fitting := (jobs.map Prod.fst).filter fun command => command.Fits b.store.count
  have hframed : ∀ bytes ∈ fitting.map payload, ∃ frame, encode bytes = .ok frame := by
    intro bytes hmem
    obtain ⟨command, -, rfl⟩ := List.mem_map.mp hmem
    exact ⟨_, encode_payload command⟩
  have htaken' : ∀ w ∈ outcomes.flatMap (·.writes), w.Taken := by
    intro w hmem
    obtain ⟨outcome, houtcome, hw⟩ := List.mem_flatMap.mp hmem
    exact htaken outcome houtcome w hw
  obtain ⟨hresults, hsent⟩ := writeAll_sent hall.symm hframed htaken'
  refine ⟨fun command => ⟨_, encode_payload command⟩, ?_, _, fitting.map Command.toDevice, hsent,
    ?_, Command.conveyed_filter _ hcount⟩
  · intro outcome houtcome w hw
    exact hresults w (List.mem_flatMap.mpr ⟨outcome, houtcome, hw⟩)
  · have hstream := DeviceCommand.ofStream?_frames (fitting.map Command.toDevice)
    rw [List.map_map] at hstream ⊢
    exact hstream

theorem executeAll_delivers_of_three :
    let jobs : List (Command × Snapshot) :=
      [(.setRelay 1 true, {}), (.toggleRelay 300 none, {}), (.calibrateProbe 200 ⟨0x40E00000⟩, {})]
    let b : Board := { store := .new 2, labels := [] }
    let s : Station :=
      { transport :=
          { settings := { port := "sim0", baudRate := 9600, timeout := .ofMillis 1000 }
            state := .connected
            isOpen := true }
        wire := { ports := ["sim0"] } }
    let (_, _, s') := executeAll (fun payload station => station.writeFrame payload) jobs b s
    b.store.count ≤ 2 ^ 32 ∧
      ∃ frames received, s'.wire.sent = frames ∧
        DeviceCommand.ofStream? frames.flatten = some received ∧
        List.Forall₂ Command.Conveyed [.setRelay 1 true, .calibrateProbe 200 ⟨0x40E00000⟩]
          received := by
  intro jobs b s
  refine ⟨by decide, ?_⟩
  have hresults : ∀ outcome ∈
      (executeAll (fun payload station => station.writeFrame payload) jobs b s).1,
      ∀ w ∈ outcome.writes, w.result = .ok () := by
    decide +kernel
  have htaken : ∀ outcome ∈
      (executeAll (fun payload station => station.writeFrame payload) jobs b s).1,
      ∀ w ∈ outcome.writes, w.Taken :=
    fun outcome houtcome w hw => .inl (hresults outcome houtcome w hw)
  obtain ⟨-, -, frames, received, hsent, hread, hconveyed⟩ :=
    executeAll_delivers (b := b) (by decide) htaken
  exact ⟨frames, received, hsent, hread, hconveyed⟩

end Board

end Dispatch

end RelayGateway
