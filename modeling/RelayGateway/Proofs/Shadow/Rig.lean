import RelayGateway.Link.Transport
import RelayGateway.Shadow.Engine
import RelayGateway.Proofs.Dispatch.Execution
import RelayGateway.Proofs.Dispatch.Order
import RelayGateway.Proofs.Packed.Varint

namespace RelayGateway.Shadow

open Dispatch (Board Dispatcher Write)
open Link (Station)

structure Rig where
  dispatcher : Dispatcher
  station : Station
  writes : List Write := []

namespace Rig

def store (r : Rig) : Relay.Store := r.dispatcher.board.store

def Quiet (r : Rig) : Prop := r.dispatcher.queue.jobs = [] ∧ r.dispatcher.writing = none

instance : DecidablePred Quiet := fun r =>
  inferInstanceAs (Decidable (r.dispatcher.queue.jobs = [] ∧ r.dispatcher.writing = none))

def AllWritten (r : Rig) : Prop := ∀ write ∈ r.writes, write.result = .ok ()

instance : DecidablePred AllWritten := fun r =>
  inferInstanceAs (Decidable (∀ write ∈ r.writes, write.result = .ok ()))

def writer : Board.Writer (Station × List Write) :=
  Board.Writer.noting fun payload station => station.writeFrame payload

def work (steps : Nat) (r : Rig) : Rig :=
  let (_, dispatcher, station, writes) :=
    r.dispatcher.drainJobs writer steps (r.station, r.writes)
  { dispatcher, station, writes }

-- Let the worker go on until no command waits or is being written.
def drain (r : Rig) : Rig := r.work (2 * r.dispatcher.queue.pending + 1)

def carryOut (r : Rig) (command : Command) : Rig :=
  let written := r.station.writeFrame (Board.payload command)
  { dispatcher := { r.dispatcher with
      board := { r.dispatcher.board with store := r.store.after command } }
    station := written.2
    writes := r.writes ++ [⟨Board.payload command, written.1⟩] }

def answer (now : Nat) (accepted : Bool) : (q : Query) → Rig → Reply q × Rig
  | .read index, r => (r.store.get index, r)
  | .submit command, r =>
    let (result, dispatcher) := r.dispatcher.submit command
    (result, { r with dispatcher })
  | .uptime, r => (now, r)
  | .sleep _, r => ((), r)
  | .publish _ _, r => (accepted, r)
  | .say _, r => ((), r)

theorem work_add (steps more : Nat) (r : Rig) : r.work (steps + more) = (r.work steps).work more := by
  unfold work
  rw [Dispatcher.drainJobs_add]

theorem work_of_quiet {r : Rig} (h : r.Quiet) (steps : Nat) : r.work steps = r := by
  unfold work
  rw [Dispatcher.drainJobs_of_quiet writer h.2 h.1]

theorem work_of_writing {r : Rig} {command : Command} (h : r.dispatcher.writing = some command) :
    let written := r.station.writeFrame (Board.payload command)
    r.work 1 =
      { dispatcher := { r.dispatcher with writing := none }
        station := written.2
        writes := r.writes ++ [⟨Board.payload command, written.1⟩] } := by
  simp only [work, Dispatcher.drainJobs, h, Dispatcher.complete, writer, Board.Writer.noting]

theorem work_of_fits {r : Rig} {command : Command} {rest : List Dispatch.Job}
    (hidle : r.dispatcher.writing = none) (hjobs : r.dispatcher.queue.jobs = .run command :: rest)
    (hfits : command.Fits r.store.count) :
    r.work 1 =
      { r with dispatcher := { r.dispatcher with
          queue := { r.dispatcher.queue with jobs := rest }
          board := { r.dispatcher.board with store := r.store.after command }
          writing := some command } } := by
  simp only [work, Dispatcher.drainJobs, hidle, Dispatcher.receive, Dispatch.Queue.receive?, hjobs,
    Board.change_of_fits hfits, store]

-- A command that the board cannot carry out is dropped.
theorem work_of_not_fits {r : Rig} {command : Command} {rest : List Dispatch.Job}
    (hidle : r.dispatcher.writing = none) (hjobs : r.dispatcher.queue.jobs = .run command :: rest)
    (hfits : ¬ command.Fits r.store.count) :
    r.work 1 =
      { r with dispatcher := { r.dispatcher with
          queue := { r.dispatcher.queue with jobs := rest } } } := by
  obtain ⟨index, desired, rfl, -, hchange⟩ := Board.exists_of_not_fits hfits
  simp only [work, Dispatcher.drainJobs, hidle, Dispatcher.receive, Dispatch.Queue.receive?, hjobs,
    hchange]

theorem work_of_stop {r : Rig} {rest : List Dispatch.Job} (hidle : r.dispatcher.writing = none)
    (hjobs : r.dispatcher.queue.jobs = .stop :: rest) :
    r.work 1 =
      { r with dispatcher := { r.dispatcher with
          queue := { r.dispatcher.queue with jobs := rest }
          stopped := true } } := by
  simp only [work, Dispatcher.drainJobs, hidle, Dispatcher.receive, Dispatch.Queue.receive?, hjobs]

theorem drain_of_quiet {r : Rig} (h : r.Quiet) : r.drain = r := work_of_quiet h _

def submitted (r : Rig) (command : Command) : Rig :=
  { r with dispatcher := { r.dispatcher with
      queue := { r.dispatcher.queue with jobs := [.run command] } } }

theorem answer_submit {r : Rig} (hquiet : r.Quiet) (hopen : r.dispatcher.queue.closed = false)
    (now : Nat) (accepted : Bool) (command : Command) :
    r.answer now accepted (.submit command) = (.ok (), r.submitted command) := by
  have hroom : r.dispatcher.queue.jobs.length < Dispatch.queueCapacity := by
    rw [hquiet.1]
    decide
  simp only [answer, Dispatcher.submit, Dispatch.Queue.submit_of_room hopen hroom, hquiet.1,
    List.nil_append, submitted]

theorem carryOut_quiet {r : Rig} (hquiet : r.Quiet) (command : Command) :
    (r.carryOut command).Quiet := hquiet

theorem work_submitted {r : Rig} (hquiet : r.Quiet) {command : Command}
    (hfits : command.Fits r.store.count) : (r.submitted command).work 2 = r.carryOut command := by
  have hwriting : (r.submitted command).dispatcher.writing = none := hquiet.2
  have hjobs : (r.submitted command).dispatcher.queue.jobs = [.run command] := rfl
  rw [work_add 1 1, work_of_fits hwriting hjobs hfits, work_of_writing rfl]
  obtain ⟨⟨⟨jobs, closed⟩, board, writing, stopped⟩, station, writes⟩ := r
  obtain ⟨rfl, rfl⟩ := hquiet
  rfl

-- However far the worker has come, it brings a submitted command to its end.
theorem drain_submitted {r : Rig} (hquiet : r.Quiet) {command : Command}
    (hfits : command.Fits r.store.count) (steps : Nat) :
    ((r.submitted command).work steps).drain = r.carryOut command := by
  have htwo : ∀ more, (r.submitted command).work (2 + more) = r.carryOut command := by
    intro more
    rw [work_add, work_submitted hquiet hfits, work_of_quiet (carryOut_quiet hquiet command)]
  unfold drain
  rw [← work_add]
  cases steps with
  | zero => exact htwo 1
  | succ steps =>
      have hmore : ∀ pending, steps + 1 + (2 * pending + 1) = 2 + (steps + 2 * pending) := by
        intro pending
        omega
      rw [hmore, htwo]

end Rig

def openStation : Station where
  transport :=
    { settings := { port := "sim0", baudRate := 9600, timeout := .ofMillis 1000 }
      state := .connected
      isOpen := true
      hasUptime := true }
  wire := { ports := ["sim0"] }

end RelayGateway.Shadow
