import RelayGateway.Proofs.Dispatch.Traffic
import Mathlib.Tactic.Common

namespace RelayGateway.Dispatch

namespace Queue

theorem submit_of_closed {q : Queue} (h : q.closed = true) (command : Command) :
    q.submit command = (.error .stopped, q) :=
  if_pos h

theorem submit_of_room {q : Queue} (h : q.closed = false) (hroom : q.jobs.length < queueCapacity)
    (command : Command) :
    q.submit command = (.ok (), { q with jobs := q.jobs ++ [.run command] }) := by
  simp only [submit, offer?, h, hroom, if_true, Bool.false_eq_true, if_false]

theorem submit_of_full {q : Queue} (h : q.closed = false) (hfull : queueCapacity ≤ q.jobs.length)
    (command : Command) : q.submit command = (.error .full, q) := by
  simp only [submit, offer?, h, Nat.not_lt.mpr hfull, Bool.false_eq_true, if_false]

theorem submit_result (q : Queue) (command : Command) (hcapacity : q.jobs.length ≤ queueCapacity) :
    ((q.submit command).1 = .error .stopped ↔ q.closed = true) ∧
      ((q.submit command).1 = .error .full ↔
        q.closed = false ∧ q.jobs.length = queueCapacity) ∧
      ((q.submit command).1 ≠ .ok () → (q.submit command).2 = q) := by
  cases hclosed : q.closed with
  | true => simp [submit_of_closed hclosed]
  | false =>
      by_cases hroom : q.jobs.length < queueCapacity
      · simp [submit_of_room hclosed hroom, Nat.ne_of_lt hroom]
      · have hfull := Nat.not_lt.mp hroom
        simp [submit_of_full hclosed hfull, Nat.le_antisymm hcapacity hfull]

end Queue

-- While a submit holds the lock nobody can close the gate, so that it is as good as made at once.
theorem Entry.send_eq_submit {entry : Entry} {q : Queue} (h : entry.barred = q.closed) :
    entry.send q = q.submit entry.command := by
  unfold send
  rw [h]
  rfl

namespace Dispatcher

theorem receive_of_run {d : Dispatcher} {command : Command} {rest : List Job}
    (hidle : d.writing = none) (hjobs : d.queue.jobs = .run command :: rest) :
    d.receive.2.queue = { d.queue with jobs := rest } ∧ d.receive.2.stopped = d.stopped ∧
      (d.receive.2.writing = none ∨ d.receive.2.writing = some command) := by
  simp only [receive, hidle, Queue.receive?, hjobs]
  cases d.board.change command with
  | error e => exact ⟨rfl, rfl, .inl rfl⟩
  | ok store => exact ⟨rfl, rfl, .inr rfl⟩

theorem receive_of_stop {d : Dispatcher} {rest : List Job} (hidle : d.writing = none)
    (hjobs : d.queue.jobs = .stop :: rest) :
    d.receive.2 = { d with queue := { d.queue with jobs := rest }, stopped := true } := by
  simp only [receive, hidle, Queue.receive?, hjobs]

theorem receive_of_nil {d : Dispatcher} (hjobs : d.queue.jobs = []) : d.receive.2 = d := by
  simp only [receive, Queue.receive?, hjobs]
  cases d.writing <;> rfl

theorem complete_of_writing {d : Dispatcher} {command : Command} (h : d.writing = some command)
    (written : Except Link.Error Unit) : (d.complete written).2 = { d with writing := none } := by
  simp only [complete, h]

end Dispatcher

namespace Traffic

def stops (t : Traffic) : List Job :=
  if t.stage = .stopping ∧ t.dispatcher.stopped = false then [.stop] else []

structure Orderly (t : Traffic) : Prop where
  order : ∃ commands : List Command,
    t.dispatcher.queue.jobs = commands.map .run ++ t.stops ∧ t.received ++ commands = t.accepted
  capacity : t.dispatcher.queue.jobs.length ≤ queueCapacity
  gate : t.dispatcher.queue.closed = true ↔ t.stage ≠ .running
  entry : ∀ entry, t.entry = some entry → entry.barred = t.dispatcher.queue.closed
  executed : t.executed.map Prod.fst ++ t.dispatcher.writing.toList = t.received
  stopped : t.dispatcher.stopped = true →
    t.dispatcher.writing = none ∧ t.dispatcher.queue.jobs = [] ∧
      (t.stage = .stopping ∨ t.stage = .ended)
  ended : t.stage = .ended → t.dispatcher.stopped = true

theorem Orderly.going_of_jobs {t : Traffic} (h : Orderly t)
    (hjobs : t.dispatcher.queue.jobs ≠ []) : t.dispatcher.stopped = false := by
  by_contra hstopped
  rw [Bool.not_eq_false] at hstopped
  exact hjobs (h.stopped hstopped).2.1

theorem Orderly.going_of_stage {t : Traffic} (h : Orderly t)
    (hstage : t.stage = .running ∨ t.stage = .closing) : t.dispatcher.stopped = false := by
  by_contra hstopped
  rw [Bool.not_eq_false] at hstopped
  obtain hlate | hlate := (h.stopped hstopped).2.2 <;> simp [hlate] at hstage

theorem stops_of_running {t : Traffic} (hstage : t.stage = .running) : t.stops = [] := by
  simp [stops, hstage]

theorem Orderly.refuse {t : Traffic} (h : Orderly t) (entry : Entry) (e : Error) :
    Orderly { t with
      entry := none
      answers := t.answers ++ [⟨entry.producer, entry.command, .error e⟩] } := by
  obtain ⟨commands, hjobs, horder⟩ := h.order
  refine { h with order := ⟨commands, hjobs, ?_⟩, entry := by simp }
  simp only [accepted, List.filterMap_append] at horder ⊢
  rw [horder]
  exact (List.append_nil _).symm

theorem Orderly.accept {t : Traffic} (h : Orderly t) (hstage : t.stage = .running)
    (hroom : t.dispatcher.queue.jobs.length < queueCapacity) (entry : Entry) :
    Orderly { t with
      dispatcher := { t.dispatcher with
        queue := { t.dispatcher.queue with
          jobs := t.dispatcher.queue.jobs ++ [.run entry.command] } }
      entry := none
      answers := t.answers ++ [⟨entry.producer, entry.command, .ok ()⟩] } := by
  obtain ⟨commands, hjobs, horder⟩ := h.order
  have hstops := stops_of_running hstage
  have hgoing := h.going_of_stage (.inl hstage)
  rw [hstops, List.append_nil] at hjobs
  refine { h with
    order := ⟨commands ++ [entry.command], ?_, ?_⟩, capacity := ?_, entry := by simp,
    stopped := by simp [hgoing] }
  · change t.dispatcher.queue.jobs ++ [.run entry.command] = _ ++ t.stops
    rw [hjobs, hstops, List.append_nil, List.map_append]
    rfl
  · simp only [accepted, List.filterMap_append] at horder ⊢
    rw [← List.append_assoc, horder]
    rfl
  · simp only [List.length_append, List.length_singleton]
    omega

theorem answer_orderly {t : Traffic} (h : Orderly t) : Orderly t.answer := by
  unfold answer
  cases hentry : t.entry with
  | none => exact h
  | some entry =>
      simp only [Entry.send_eq_submit (h.entry entry hentry)]
      cases hclosed : t.dispatcher.queue.closed with
      | true =>
          rw [Queue.submit_of_closed hclosed]
          exact h.refuse entry .stopped
      | false =>
          have hstage : t.stage = .running := by
            by_contra hstage
            rw [h.gate.mpr hstage] at hclosed
            cases hclosed
          by_cases hroom : t.dispatcher.queue.jobs.length < queueCapacity
          · rw [Queue.submit_of_room hclosed hroom]
            exact h.accept hstage hroom entry
          · rw [Queue.submit_of_full hclosed (Nat.not_lt.mp hroom)]
            exact h.refuse entry .full

theorem Orderly.take {t : Traffic} (h : Orderly t) (hidle : t.dispatcher.writing = none)
    {command : Command} {rest : List Job} (hjobs : t.dispatcher.queue.jobs = .run command :: rest)
    {d : Dispatcher} (hqueue : d.queue = { t.dispatcher.queue with jobs := rest })
    (hstopped : d.stopped = t.dispatcher.stopped)
    (hwriting : d.writing = none ∨ d.writing = some command) (events : List Event) :
    Orderly { t with
      dispatcher := d
      received := t.received ++ [command]
      executed :=
        if d.writing.isSome then t.executed else t.executed ++ [(command, events)] } := by
  have hgoing : t.dispatcher.stopped = false := h.going_of_jobs (by simp [hjobs])
  obtain ⟨commands, hwaiting, horder⟩ := h.order
  have hcapacity := h.capacity
  have hexecuted := h.executed
  rw [hidle, Option.toList_none, List.append_nil] at hexecuted
  rw [hjobs] at hwaiting hcapacity
  cases commands with
  | nil =>
      simp only [stops] at hwaiting
      split at hwaiting <;> cases hwaiting
  | cons first more =>
      simp only [List.map_cons, List.cons_append, List.cons.injEq, Job.run.injEq] at hwaiting
      obtain ⟨rfl, hrest⟩ := hwaiting
      have hsame : stops { t with dispatcher := d } = t.stops := by
        simp only [stops, hstopped]
      refine { order := ⟨more, ?_, ?_⟩, capacity := ?_, gate := ?_, entry := ?_, executed := ?_,
               stopped := ?_, ended := ?_ }
      · simp only [hqueue]
        exact hrest.trans (congrArg _ hsame.symm)
      · change (t.received ++ [command]) ++ more = t.accepted
        rw [← horder, List.append_assoc]
        rfl
      · simp only [hqueue]
        simp only [List.length_cons] at hcapacity
        omega
      · simp only [hqueue]
        exact h.gate
      · simp only [hqueue]
        exact h.entry
      · obtain hnone | hsome := hwriting
        · simp [hnone, hexecuted]
        · simp [hsome, hexecuted]
      · simp [hstopped, hgoing]
      · intro hended
        rw [hstopped]
        exact h.ended hended

-- The worker takes the stop, behind which nothing waits.
theorem Orderly.takeStop {t : Traffic} (h : Orderly t) (hidle : t.dispatcher.writing = none)
    {rest : List Job} (hjobs : t.dispatcher.queue.jobs = .stop :: rest) :
    Orderly { t with
      dispatcher := { t.dispatcher with
        queue := { t.dispatcher.queue with jobs := rest }
        stopped := true } } := by
  obtain ⟨commands, hwaiting, horder⟩ := h.order
  rw [hjobs] at hwaiting
  cases commands with
  | cons first more => cases hwaiting
  | nil =>
      simp only [stops, List.map_nil, List.nil_append] at hwaiting
      split at hwaiting
      · rename_i hstage
        obtain ⟨-, rfl⟩ := List.cons.inj hwaiting
        refine { h with
          order := ⟨[], ?_, horder⟩, capacity := Nat.zero_le _,
          stopped := fun _ => ⟨hidle, rfl, .inl hstage.1⟩, ended := fun _ => rfl }
        simp [stops]
      · cases hwaiting

theorem receive_orderly {t : Traffic} (h : Orderly t) : Orderly t.receive := by
  unfold receive
  split
  · exact h
  rename_i hfree
  have hidle : t.dispatcher.writing = none := by
    simpa using (not_or.mp hfree).2
  cases hjobs : t.dispatcher.queue.jobs with
  | nil =>
      simp only [Dispatcher.receive_of_nil hjobs]
      exact h
  | cons job rest =>
      cases job with
      | run command =>
          obtain ⟨hqueue, hstopped, hwriting⟩ := Dispatcher.receive_of_run hidle hjobs
          exact h.take hidle hjobs hqueue hstopped hwriting _
      | stop =>
          simp only [Dispatcher.receive_of_stop hidle hjobs]
          exact h.takeStop hidle hjobs

theorem complete_orderly {t : Traffic} (h : Orderly t) (written : Except Link.Error Unit) :
    Orderly (t.complete written) := by
  unfold complete
  cases hwriting : t.dispatcher.writing with
  | none => exact h
  | some command =>
      have hexecuted := h.executed
      rw [hwriting] at hexecuted
      simp only [Dispatcher.complete_of_writing hwriting]
      refine { h with order := ?_, executed := ?_, stopped := ?_ }
      · exact h.order
      · simpa using hexecuted
      · intro hstopped
        exact ⟨rfl, (h.stopped hstopped).2⟩

theorem close_orderly {t : Traffic} (h : Orderly t) : Orderly t.close := by
  unfold close
  split
  · rename_i hfree
    obtain ⟨commands, hjobs, horder⟩ := h.order
    rw [stops_of_running hfree.1] at hjobs
    have hgoing := h.going_of_stage (.inl hfree.1)
    refine { h with
      order := ⟨commands, ?_, horder⟩, gate := ?_, entry := ?_, stopped := ?_, ended := ?_ }
    · change t.dispatcher.queue.jobs = _ ++ stops _
      rw [hjobs]
      rfl
    · simp [Queue.close]
    · simp [hfree.2]
    · simp [hgoing]
    · simp
  · exact h

theorem Orderly.jobs_eq {t : Traffic} (h : Orderly t) :
    t.dispatcher.queue.jobs = t.waiting.map .run ++ t.stops ∧
      t.received ++ t.waiting = t.accepted := by
  obtain ⟨commands, hjobs, horder⟩ := h.order
  have hcommands : (commands.map Job.run).filterMap Job.command? = commands := by
    rw [List.filterMap_map]
    exact List.filterMap_some
  have hstops : t.stops.filterMap Job.command? = [] := by
    unfold stops
    split <;> rfl
  have hwaiting : t.waiting = commands := by
    unfold waiting
    rw [hjobs, List.filterMap_append, hcommands, hstops, List.append_nil]
  rw [hwaiting]
  exact ⟨hjobs, horder⟩

-- What the producers and the one who shuts down may rely on.
structure Kept (t : Traffic) : Prop where
  order : t.received ++ t.waiting = t.accepted
  capacity : t.dispatcher.queue.jobs.length ≤ 64
  stop : ∀ before after, t.dispatcher.queue.jobs = before ++ .stop :: after →
    .stop ∉ before ∧ after = [] ∧ t.dispatcher.stopped = false
  submit : ∀ entry result dispatcher, t.entry = some entry →
    t.dispatcher.submit entry.command = (result, dispatcher) →
    t.answer.answers = t.answers ++ [⟨entry.producer, entry.command, result⟩] ∧
      t.answer.dispatcher = dispatcher ∧
      (result = .error .stopped ↔ t.dispatcher.queue.closed = true) ∧
      (result = .error .full ↔
        t.dispatcher.queue.closed = false ∧ t.dispatcher.queue.jobs.length = 64) ∧
      (result ≠ .ok () → dispatcher.queue = t.dispatcher.queue)
  executed : t.stage = .ended → t.executed.map Prod.fst = t.accepted

-- Only commands stand before the stop, and nothing stands behind it.
theorem stops_split {t : Traffic} {commands : List Command} {before after : List Job}
    (h : commands.map .run ++ t.stops = before ++ .stop :: after) : .stop ∉ before ∧ after = [] := by
  induction commands generalizing before with
  | nil =>
      rw [List.map_nil, List.nil_append] at h
      have hlength := congrArg List.length h
      have hstops : t.stops.length ≤ 1 := by
        unfold stops
        split <;> simp
      simp only [List.length_append, List.length_cons] at hlength
      refine ⟨?_, List.eq_nil_of_length_eq_zero (by omega)⟩
      rw [List.eq_nil_of_length_eq_zero (l := before) (by omega)]
      exact List.not_mem_nil
  | cons command commands ih =>
      cases before with
      | nil => cases h
      | cons job before =>
          obtain ⟨rfl, htail⟩ := List.cons.inj h
          obtain ⟨hbefore, hafter⟩ := ih htail
          refine ⟨?_, hafter⟩
          simpa using hbefore

theorem Orderly.kept {t : Traffic} (h : Orderly t) : Kept t := by
  refine { order := h.jobs_eq.2, capacity := h.capacity, stop := ?_, submit := ?_, executed := ?_ }
  · intro before after hjobs
    obtain ⟨hbefore, hafter⟩ := stops_split (h.jobs_eq.1.symm.trans hjobs)
    exact ⟨hbefore, hafter, h.going_of_jobs (by simp [hjobs])⟩
  · intro entry result dispatcher hentry hsubmit
    have hsend := Entry.send_eq_submit (h.entry entry hentry)
    simp only [Dispatcher.submit, Prod.mk.injEq] at hsubmit
    obtain ⟨rfl, rfl⟩ := hsubmit
    refine ⟨?_, ?_, Queue.submit_result _ entry.command h.capacity⟩ <;>
      simp only [answer, hentry, hsend]
  · intro hended
    obtain ⟨hidle, hjobs, -⟩ := h.stopped (h.ended hended)
    have horder := h.jobs_eq.2
    have hexecuted := h.executed
    rw [waiting, hjobs, List.filterMap_nil, List.append_nil] at horder
    rw [hidle, Option.toList_none, List.append_nil] at hexecuted
    exact hexecuted.trans horder

end Traffic

end RelayGateway.Dispatch
