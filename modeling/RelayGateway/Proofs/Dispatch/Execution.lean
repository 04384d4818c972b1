import RelayGateway.Dispatch.Dispatcher
import RelayGateway.Proofs.Packed.Varint

namespace RelayGateway

def Command.Fits (relays : Nat) : Command → Prop
  | toggleRelay index _ => index < relays
  | calibrateProbe _ _ => True

instance (relays : Nat) : DecidablePred (Command.Fits relays)
  | .toggleRelay index _ => inferInstanceAs (Decidable (index < relays))
  | .calibrateProbe _ _ => inferInstanceAs (Decidable True)

-- What the device is told by a command: whatever state is desired, it has to flip the relay
-- with the low 32 bits of the index.
inductive Command.Tells : Command → DeviceCommand → Prop
  | relay {index : Nat} {desired : Option Bool} {relay : UInt32}
      (h : relay.toNat = index % 2 ^ 32) :
      Tells (.toggleRelay index desired) (.toggleRelay relay)
  | probe (sensor : UInt32) (value : Binary32) :
      Tells (.calibrateProbe sensor value) (.calibrateProbe sensor value)

theorem Command.tells_toDevice (command : Command) : command.Tells command.toDevice := by
  cases command with
  | toggleRelay index desired => exact .relay (UInt32.toNat_ofNat' ..)
  | calibrateProbe sensor value => exact .probe sensor value

-- The store after a command. Relays that do not exist stay as they are.
def Relay.Store.after (s : Store) : Command → Store
  | .toggleRelay index (some state) => ⟨s.states.set index state⟩
  | .toggleRelay index none => ⟨s.states.modify index not⟩
  | .calibrateProbe _ _ => s

@[simp] theorem Relay.Store.count_after (s : Store) (command : Command) :
    (s.after command).count = s.count := by
  rcases command with ⟨index, _ | state⟩ | ⟨sensor, value⟩ <;> simp [after, count]

theorem Relay.Store.state_after_setRelay {s : Store} {index : Nat} (h : index < s.count)
    (state : Bool) : (s.after (.setRelay index state)).states[index]? = some state :=
  List.getElem?_set_self h

theorem Relay.Store.state_after_setRelay_of_ne (s : Store) {index other : Nat} (h : index ≠ other)
    (state : Bool) : (s.after (.setRelay index state)).states[other]? = s.states[other]? :=
  List.getElem?_set_ne h

theorem Relay.Store.after_of_not_fits {s : Store} {command : Command}
    (h : ¬ command.Fits s.count) : s.after command = s := by
  rcases command with ⟨index, _ | state⟩ | ⟨sensor, value⟩
  · have hindex : s.states.length ≤ index := Nat.le_of_not_lt h
    rw [after, List.modify_eq_set, List.set_eq_of_length_le hindex]
  · have hindex : s.states.length ≤ index := Nat.le_of_not_lt h
    rw [after, List.set_eq_of_length_le hindex]
  · rfl

namespace Dispatch

open Telemetry (Record Snapshot)

variable {σ : Type}

structure Write where
  payload : List UInt8
  result : Except Link.Error Unit

structure Outcome where
  events : List Event
  writes : List Write
  store : Relay.Store

inductive Settled (labels : List String) (snapshot : Snapshot) (store : Relay.Store) :
    Command → Outcome → Prop
  | refused {index : Nat} {desired : Option Bool} (h : store.count ≤ index) :
      Settled labels snapshot store (.toggleRelay index desired)
        { events := [.failure (.toggleRelay index desired)
            (Relay.StoreError.noSuchRelay index store.count).message]
          writes := []
          store }
  | written {command : Command} {record : Record} (h : command.Fits store.count)
      (hrecord : Record.Shows (store.after command).states labels snapshot.reading record) :
      Settled labels snapshot store command
        { events := [.broadcast command record]
          writes := [⟨command.toDevice.toBytes, .ok ()⟩]
          store := store.after command }
  | unwritten {command : Command} {record : Record} {reason : Link.Error}
      (h : command.Fits store.count)
      (hrecord : Record.Shows (store.after command).states labels snapshot.reading record) :
      Settled labels snapshot store command
        { events := [.failure command reason.message, .broadcast command record]
          writes := [⟨command.toDevice.toBytes, .error reason⟩]
          store := store.after command }

-- What may come of commands in a row, each with the snapshot that is current by then, and the
-- store after them.
inductive Course (labels : List String) :
    Relay.Store → List (Command × Snapshot) → List Outcome → Relay.Store → Prop
  | nil (store : Relay.Store) : Course labels store [] [] store
  | cons {store last : Relay.Store} {command : Command} {snapshot : Snapshot} {outcome : Outcome}
      {jobs : List (Command × Snapshot)} {outcomes : List Outcome} :
      Settled labels snapshot store command outcome →
      Course labels outcome.store jobs outcomes last →
        Course labels store ((command, snapshot) :: jobs) (outcome :: outcomes) last

def attempts (outcomes : List Outcome) : List (List UInt8) :=
  outcomes.flatMap fun outcome => outcome.writes.map (·.payload)

namespace Board

def Writer.noting (write : Writer σ) : Writer (σ × List Write) := fun payload (world, writes) =>
  let (result, world) := write payload world
  (result, world, writes ++ [⟨payload, result⟩])

def executeAll (write : Writer σ) :
    List (Command × Snapshot) → Board → σ → List Outcome × Board × σ
  | [], b, world => ([], b, world)
  | (command, snapshot) :: jobs, b, world =>
    let (events, b, world, writes) :=
      { b with snapshot }.execute write.noting command (world, [])
    let (outcomes, last, world) := executeAll write jobs b world
    ({ events, writes, store := b.store } :: outcomes, last, world)

theorem change_of_fits {b : Board} {command : Command} (h : command.Fits b.store.count) :
    b.change command = .ok (b.store.after command) := by
  rcases command with ⟨index, _ | state⟩ | ⟨sensor, value⟩
  · have hindex : index < b.store.states.length := h
    simp [change, Relay.Store.toggle, Relay.Store.after, Except.map, hindex,
      List.modify_eq_set]
  · exact if_pos h
  · rfl

theorem exists_of_not_fits {b : Board} {command : Command} (h : ¬ command.Fits b.store.count) :
    ∃ index desired, command = .toggleRelay index desired ∧ b.store.count ≤ index ∧
      b.change command = .error (.noSuchRelay index b.store.count) := by
  rcases command with ⟨index, _ | state⟩ | ⟨sensor, value⟩
  · have hindex : b.store.states.length ≤ index := Nat.le_of_not_lt h
    refine ⟨index, none, rfl, hindex, ?_⟩
    simp [change, Relay.Store.toggle, Except.map, hindex]
  · have hindex : ¬ index < b.store.count := h
    exact ⟨index, some state, rfl, Nat.le_of_not_lt h, if_neg hindex⟩
  · exact (h trivial).elim

theorem execute_settled (write : Writer σ) (b : Board) (command : Command) (world : σ) :
    let run := b.execute write.noting command (world, [])
    Settled b.labels b.snapshot b.store command
        { events := run.1, writes := run.2.2.2, store := run.2.1.store } ∧
      run.2.1.labels = b.labels := by
  intro run
  by_cases hfits : command.Fits b.store.count
  · have hrecord := Record.shows_merge b.snapshot.reading (b.store.after command).states b.labels
    simp only [run, execute, change_of_fits hfits, Writer.noting, List.nil_append, and_true]
    cases (write (payload command) world).1 with
    | ok done => exact .written hfits hrecord
    | error reason => exact .unwritten hfits hrecord
  · obtain ⟨index, desired, rfl, hindex, hchange⟩ := exists_of_not_fits hfits
    simp only [run, execute, hchange, and_true]
    exact .refused hindex

theorem executeAll_course (write : Writer σ) (jobs : List (Command × Snapshot)) (b : Board)
    (world : σ) :
    Course b.labels b.store jobs (executeAll write jobs b world).1
      (executeAll write jobs b world).2.1.store := by
  induction jobs generalizing b world with
  | nil => exact .nil b.store
  | cons job jobs ih =>
      obtain ⟨command, snapshot⟩ := job
      obtain ⟨hsettled, hlabels⟩ := execute_settled write { b with snapshot } command world
      have hrest := ih ({ b with snapshot }.execute write.noting command (world, [])).2.1
        ({ b with snapshot }.execute write.noting command (world, [])).2.2.1
      -- a board keeps its labels, so the rest is told with those of the start
      rw [hlabels] at hrest
      exact .cons hsettled hrest

end Board

theorem Settled.store_eq {labels : List String} {snapshot : Snapshot} {store : Relay.Store}
    {command : Command} {outcome : Outcome} (h : Settled labels snapshot store command outcome) :
    outcome.store = store.after command := by
  cases h with
  | @refused index desired hindex =>
      have hunfit : ¬ Command.Fits store.count (.toggleRelay index desired) := Nat.not_lt.mpr hindex
      exact (Relay.Store.after_of_not_fits hunfit).symm
  | written => rfl
  | unwritten => rfl

theorem Settled.attempts_eq {labels : List String} {snapshot : Snapshot} {store : Relay.Store}
    {command : Command} {outcome : Outcome} (h : Settled labels snapshot store command outcome) :
    outcome.writes.map (·.payload) =
      if command.Fits store.count then [command.toDevice.toBytes] else [] := by
  cases h with
  | refused hindex => exact (if_neg (Nat.not_lt.mpr hindex)).symm
  | written hfits => exact (if_pos hfits).symm
  | unwritten hfits => exact (if_pos hfits).symm

namespace Course

variable {labels : List String} {store last : Relay.Store} {jobs : List (Command × Snapshot)}
  {outcomes : List Outcome}

theorem last_eq (h : Course labels store jobs outcomes last) :
    last = (jobs.map Prod.fst).foldl Relay.Store.after store := by
  induction h with
  | nil store => rfl
  | cons hsettled hrest ih =>
      rw [ih, hsettled.store_eq]
      rfl

theorem stores_eq (h : Course labels store jobs outcomes last) :
    store :: outcomes.map (·.store) = (jobs.map Prod.fst).scanl Relay.Store.after store := by
  induction h with
  | nil store => rfl
  | cons hsettled hrest ih =>
      rw [List.map_cons, ih, hsettled.store_eq, List.map_cons, List.scanl_cons]

theorem attempts_eq (h : Course labels store jobs outcomes last) :
    attempts outcomes =
      ((jobs.map Prod.fst).filter fun command => command.Fits store.count).map fun command =>
        command.toDevice.toBytes := by
  induction h with
  | nil store => rfl
  | cons hsettled hrest ih =>
      -- no command changes the number of relays, so which commands fit is settled at the start
      have hcount := congrArg Relay.Store.count hsettled.store_eq
      rw [Relay.Store.count_after] at hcount
      rw [hcount] at ih
      rw [attempts, List.flatMap_cons, hsettled.attempts_eq, ← attempts, ih, List.map_cons,
        List.filter_cons]
      split <;> simp_all

end Course

-- Commands are carried out in a row as `Settled` says of each, the store being their left fold and
-- the writes those of the commands that the board can carry out, in bytes that the device reads as
-- what it is told. Of both, the writer decides nothing.
theorem Board.executeAll_spec (write : Writer σ) (jobs : List (Command × Snapshot)) (b : Board)
    (world : σ) :
    let commands := jobs.map Prod.fst
    let (outcomes, b', _) := executeAll write jobs b world
    Course b.labels b.store jobs outcomes b'.store ∧
      b'.store = commands.foldl Relay.Store.after b.store ∧
      b.store :: outcomes.map (·.store) = commands.scanl Relay.Store.after b.store ∧
      attempts outcomes =
        (commands.filter fun command => command.Fits b.store.count).map (fun command =>
          command.toDevice.toBytes) ∧
      (∀ command : Command, command.Tells command.toDevice ∧
        DeviceCommand.ofBytes command.toDevice.toBytes = .ok command.toDevice) ∧
      ∀ (τ : Type) (write' : Writer τ) (world' : τ),
        let (outcomes', _) := executeAll write' jobs b world'
        outcomes'.map (·.store) = outcomes.map (·.store) ∧
          attempts outcomes' = attempts outcomes := by
  have h := executeAll_course write jobs b world
  refine ⟨h, h.last_eq, h.stores_eq, h.attempts_eq, ?_, ?_⟩
  · intro command
    exact ⟨command.tells_toDevice, command.toDevice.ofBytes_toBytes⟩
  · intro τ write' world'
    have h' := executeAll_course write' jobs b world'
    refine ⟨?_, h'.attempts_eq.trans h.attempts_eq.symm⟩
    exact (List.cons.inj (h'.stores_eq.trans h.stores_eq.symm)).2

namespace Dispatcher

theorem drainJobs_of_quiet (write : Board.Writer σ) {d : Dispatcher} (hidle : d.writing = none)
    (hjobs : d.queue.jobs = []) (steps : Nat) (world : σ) :
    drainJobs write steps d world = ([], d, world) := by
  induction steps with
  | zero => rfl
  | succ steps ih =>
      have hreceive : d.receive = ([], d) := by simp only [receive, Queue.receive?, hidle, hjobs]
      simp only [drainJobs, hidle, hreceive, ih, List.append_nil]

theorem drainJobs_add (write : Board.Writer σ) (steps more : Nat) (d : Dispatcher) (world : σ) :
    let front := drainJobs write steps d world
    let back := drainJobs write more front.2.1 front.2.2
    drainJobs write (steps + more) d world = (front.1 ++ back.1, back.2) := by
  induction steps generalizing d world with
  | zero => simp only [Nat.zero_add, drainJobs, List.nil_append]
  | succ steps ih =>
      rw [Nat.succ_add]
      simp only [drainJobs]
      cases d.writing with
      | none => simp only [ih, List.append_assoc]
      | some command => simp only [ih, List.append_assoc]

-- A command takes two steps at most: one to receive it and one to write it.
theorem drainJobs_eq_executeAll (write : Board.Writer σ) {commands : List Command} {steps : Nat}
    (hsteps : 2 * commands.length ≤ steps) {d : Dispatcher} (hidle : d.writing = none)
    (hjobs : d.queue.jobs = commands.map .run) (world : σ) :
    let run := Board.executeAll write (commands.map fun command => (command, d.board.snapshot))
      d.board world
    drainJobs write steps d world =
      (run.1.flatMap (·.events),
        { d with queue := { d.queue with jobs := [] }, board := run.2.1 }, run.2.2) := by
  induction commands generalizing steps d world with
  | nil =>
      obtain ⟨⟨jobs, closed⟩, board, writing, stopped⟩ := d
      subst hjobs
      exact drainJobs_of_quiet write hidle rfl steps world
  | cons command commands ih =>
      obtain ⟨⟨jobs, closed⟩, board, writing, stopped⟩ := d
      subst hidle
      subst hjobs
      rw [List.length_cons] at hsteps
      -- a command that does not fit is done with once it is received
      by_cases hfits : command.Fits board.store.count
      · obtain ⟨steps, rfl⟩ : ∃ fewer, steps = fewer + 2 := ⟨steps - 2, by omega⟩
        have hrest := ih (show 2 * commands.length ≤ steps by omega)
          (d := { queue := ⟨commands.map .run, closed⟩, board := { board with
            store := board.store.after command }, stopped }) rfl rfl
          (write (Board.payload command) world).2
        simp only [drainJobs, receive, Queue.receive?, List.map_cons, complete,
          Board.change_of_fits hfits, hrest, Board.executeAll, Board.execute, Board.Writer.noting,
          List.nil_append, List.flatMap_cons]
      · obtain ⟨index, desired, rfl, -, hchange⟩ := Board.exists_of_not_fits hfits
        obtain ⟨steps, rfl⟩ : ∃ fewer, steps = fewer + 1 := ⟨steps - 1, by omega⟩
        have hrest := ih (show 2 * commands.length ≤ steps by omega)
          (d := { queue := ⟨commands.map .run, closed⟩, board, stopped }) rfl rfl world
        simp only [drainJobs, receive, Queue.receive?, List.map_cons, hchange, hrest,
          Board.executeAll, Board.execute, List.flatMap_cons]

theorem drain_eq_executeAll (write : Board.Writer σ) {commands : List Command} {d : Dispatcher}
    (hidle : d.writing = none) (hjobs : d.queue.jobs = commands.map .run) (world : σ) :
    let run := Board.executeAll write (commands.map fun command => (command, d.board.snapshot))
      d.board world
    d.drain write world =
      (run.1.flatMap (·.events),
        { d with queue := { d.queue with jobs := [] }, board := run.2.1 }, run.2.2) := by
  have hlength : d.queue.pending = commands.length := by
    rw [Queue.pending, hjobs, List.length_map]
  have hsteps : 2 * commands.length ≤ 2 * d.queue.pending + 1 := by omega
  exact drainJobs_eq_executeAll write hsteps hidle hjobs world

end Dispatcher

end Dispatch

end RelayGateway
