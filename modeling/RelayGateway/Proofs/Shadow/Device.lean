import RelayGateway.Proofs.Shadow.Rig
import Mathlib.Data.List.Perm.Basic

namespace RelayGateway

def Command.flips : Command → List Nat
  | toggleRelay index _ => [index]
  | calibrateProbe _ _ => []

namespace Shadow

open Dispatch (Board Write)

def flip (bits : List Bool) (indices : List Nat) : List Bool :=
  indices.foldl (fun bits index => bits.modify index not) bits

def hear (bits : List Bool) (payload : List UInt8) : List Bool :=
  match DeviceCommand.ofBytes payload with
  | .ok (.toggleRelay relay) => flip bits [relay.toNat]
  | _ => bits

@[simp] theorem flip_nil (bits : List Bool) : flip bits [] = bits := rfl

theorem flip_append (bits : List Bool) (front back : List Nat) :
    flip bits (front ++ back) = flip (flip bits front) back :=
  List.foldl_append

@[simp] theorem length_flip (bits : List Bool) (indices : List Nat) :
    (flip bits indices).length = bits.length := by
  induction indices generalizing bits with
  | nil => rfl
  | cons index indices ih => exact (ih _).trans (List.length_modify not bits index)

theorem flip_perm {front back : List Nat} (h : front.Perm back) (bits : List Bool) :
    flip bits front = flip bits back := by
  -- flips of two relays commute, and those of one relay are the same
  have hcomm : RightCommutative fun (bits : List Bool) index => bits.modify index not := by
    refine ⟨fun bits i j => ?_⟩
    by_cases hij : i = j
    · rw [hij]
    · exact List.modify_modify_ne not not bits hij
  exact h.foldl_eq bits

theorem getElem?_flip (bits : List Bool) (indices : List Nat) (index : Nat) :
    (flip bits indices)[index]? =
      bits[index]?.map fun bit => bit ^^ decide (indices.count index % 2 = 1) := by
  induction indices generalizing bits with
  | nil => simp [flip]
  | cons first indices ih =>
      change (flip (bits.modify first not) indices)[index]? = _
      rw [ih, List.getElem?_modify, List.count_cons]
      by_cases hfirst : first = index
      · obtain hparity | hparity := Nat.mod_two_eq_zero_or_one (indices.count index) <;>
          cases bits[index]? <;> simp [hfirst, hparity, Nat.add_mod]
      · cases bits[index]? <;> simp [hfirst]

theorem flip_eq_self_iff (bits : List Bool) (indices : List Nat) :
    flip bits indices = bits ↔ ∀ index < bits.length, indices.count index % 2 = 0 := by
  constructor
  · intro h index hindex
    have hbit := getElem?_flip bits indices index
    rw [h, List.getElem?_eq_getElem hindex] at hbit
    by_contra hodd
    have hone : indices.count index % 2 = 1 := by omega
    simp [hone] at hbit
  · intro h
    apply List.ext_getElem?
    intro index
    rw [getElem?_flip]
    cases hbit : bits[index]? with
    | none => rfl
    | some bit =>
        have heven := h index (List.getElem?_eq_some_iff.mp hbit).1
        simp [heven]

theorem hear_payload {relays : Nat} (hrelays : relays ≤ 2 ^ 32) {command : Command}
    (h : command.Fits relays) (bits : List Bool) :
    hear bits (Board.payload command) = flip bits command.flips := by
  unfold hear Board.payload
  rw [DeviceCommand.ofBytes_toBytes]
  cases command with
  | toggleRelay index desired =>
      have hindex : index.toUInt32.toNat = index := by
        have hlt : index < relays := h
        exact Nat.mod_eq_of_lt (by omega)
      simp only [Command.toDevice, hindex, Command.flips]
  | calibrateProbe sensor value => rfl

-- A command that changes the store flips its relays there too.
theorem after_eq_flip {store : Relay.Store} {command : Command} (h : store.after command ≠ store) :
    (store.after command).states = flip store.states command.flips := by
  rcases command with ⟨index, _ | state⟩ | ⟨sensor, value⟩
  · rfl
  · change store.states.set index state = store.states.modify index not
    rw [List.modify_eq_set]
    have hchange : store.states[index]? ≠ some state := by
      intro hsame
      obtain ⟨hindex, rfl⟩ := List.getElem?_eq_some_iff.mp hsame
      apply h
      simp only [Relay.Store.after, List.set_getElem_self hindex]
    cases hbit : store.states[index]? with
    | none =>
        have hindex := List.getElem?_eq_none_iff.mp hbit
        rw [List.set_eq_of_length_le hindex, List.set_eq_of_length_le hindex]
    | some bit =>
        have hstate : state = !bit := by
          cases bit <;> cases state <;> simp_all
        rw [hstate]
        rfl
  · exact (h rfl).elim

namespace Rig

def heard (relays : Nat) (payloads : List (List UInt8)) : List Bool :=
  payloads.foldl hear (Relay.Store.new relays).states

theorem heard_append (relays : Nat) (front back : List (List UInt8)) :
    heard relays (front ++ back) = back.foldl hear (heard relays front) :=
  List.foldl_append

def device (r : Rig) : List Bool :=
  heard r.store.count
    ((r.writes.filter fun write => write.result = .ok ()).map (·.payload))

-- The relays that the device is about to flip although the store shows them as the command that
-- the worker takes next asks for.
def idle (r : Rig) : List Nat :=
  match r.dispatcher.writing, r.dispatcher.queue.jobs with
  | none, .run command :: _ =>
    if command.Fits r.store.count ∧ r.store.after command = r.store then command.flips else []
  | _, _ => []

-- Device and store differ in what was flipped for nothing, once the command that is being written
-- has reached the device.
structure Balanced (relays : Nat) (excess : List Nat) (r : Rig) : Prop where
  count : r.store.count = relays
  fits : ∀ command, r.dispatcher.writing = some command → command.Fits relays
  agree : flip (heard relays (r.writes.map (·.payload)))
      (r.dispatcher.writing.toList.flatMap Command.flips) = flip r.store.states excess

-- A command that the worker takes is flipped by device and store, or by the device alone.
theorem flip_after_idle {r : Rig} {command : Command} {rest : List Dispatch.Job}
    (hwriting : r.dispatcher.writing = none) (hjobs : r.dispatcher.queue.jobs = .run command :: rest)
    (hfits : command.Fits r.store.count) :
    flip (r.store.after command).states r.idle = flip r.store.states command.flips := by
  by_cases hsame : r.store.after command = r.store
  · have hidle : r.idle = command.flips := by
      simp only [idle, hwriting, hjobs, hfits, hsame, and_self, if_true]
    rw [hidle, hsame]
  · have hidle : r.idle = [] := by simp only [idle, hwriting, hjobs, hsame, and_false, if_false]
    rw [hidle, flip_nil, after_eq_flip hsame]

theorem Balanced.work {relays : Nat} (hrelays : relays ≤ 2 ^ 32) {excess : List Nat} {r : Rig}
    (h : r.Balanced relays excess) : (r.work 1).Balanced relays (r.idle ++ excess) := by
  cases hwriting : r.dispatcher.writing with
  | some command =>
      have hidle : r.idle = [] := by simp only [idle, hwriting]
      have hagree : flip (heard relays (r.writes.map (·.payload))) command.flips =
          flip r.store.states excess := by simpa [hwriting] using h.agree
      rw [hidle, work_of_writing hwriting]
      refine ⟨h.count, by simp, ?_⟩
      simp only [List.map_append, heard_append, List.map_cons, List.map_nil, List.foldl_cons,
        List.foldl_nil, hear_payload hrelays (h.fits command hwriting)]
      exact hagree
  | none =>
      cases hjobs : r.dispatcher.queue.jobs with
      | nil =>
          have hidle : r.idle = [] := by simp only [idle, hwriting, hjobs]
          rw [hidle, work_of_quiet ⟨hjobs, hwriting⟩]
          exact h
      | cons job rest =>
          cases job with
          | stop =>
              have hidle : r.idle = [] := by simp only [idle, hwriting, hjobs]
              rw [hidle, work_of_stop hwriting hjobs]
              exact { h with count := h.count }
          | run command =>
              by_cases hfits : command.Fits r.store.count
              · have hagree : heard relays (r.writes.map (·.payload)) = flip r.store.states excess := by
                  simpa [hwriting] using h.agree
                rw [work_of_fits hwriting hjobs hfits]
                refine ⟨(Relay.Store.count_after _ _).trans h.count, ?_, ?_⟩
                · rintro _ ⟨⟩
                  rw [← h.count]
                  exact hfits
                -- the device flips the relay last and the store after its earlier flips, which
                -- comes to the same
                · calc
                    flip (heard relays (r.writes.map (·.payload)))
                        ([command].flatMap Command.flips) =
                        flip (flip r.store.states excess) command.flips := by
                      rw [hagree, List.flatMap_singleton]
                    _ = flip (flip r.store.states command.flips) excess := by
                      rw [← flip_append, ← flip_append]
                      exact flip_perm List.perm_append_comm _
                    _ = flip (r.store.after command).states (r.idle ++ excess) := by
                      rw [← flip_after_idle hwriting hjobs hfits, flip_append]
              · have hidle : r.idle = [] := by
                  simp only [idle, hwriting, hjobs, hfits, false_and, if_false]
                rw [hidle, work_of_not_fits hwriting hjobs hfits]
                exact { h with count := h.count }

theorem Balanced.answer {relays : Nat} {excess : List Nat} {r : Rig} (h : r.Balanced relays excess)
    (now : Nat) (accepted : Bool) (q : Query) :
    (r.answer now accepted q).2.Balanced relays excess := by
  cases q with
  | submit command => exact { h with count := h.count }
  | _ => exact h

-- Device and store agree exactly if no relay was flipped for nothing an odd number of times.
theorem Balanced.device_eq_iff {relays : Nat} {excess : List Nat} {r : Rig}
    (h : r.Balanced relays excess) (hquiet : r.Quiet) (hwritten : r.AllWritten) :
    r.device = r.store.states ↔ ∀ index < relays, excess.count index % 2 = 0 := by
  have hall : r.writes.filter (fun write => write.result = .ok ()) = r.writes := by
    apply List.filter_eq_self.mpr
    intro write hwrite
    exact decide_eq_true (hwritten write hwrite)
  have hdevice : r.device = flip r.store.states excess := by
    rw [device, hall, h.count, ← h.agree, hquiet.2]
    rfl
  have hlength : r.store.states.length = relays := h.count
  rw [hdevice, flip_eq_self_iff, hlength]

end Rig

end Shadow

end RelayGateway
