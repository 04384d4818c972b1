import RelayGateway.Proofs.Dispatch.Order

namespace RelayGateway.Dispatch

namespace Dispatcher

variable {σ : Type}

-- A job takes two steps at most: one to receive it and one to write it.
def work (d : Dispatcher) : Nat := 2 * d.queue.jobs.length + d.writing.toList.length

theorem receive_work {d : Dispatcher} (hidle : d.writing = none) {jobs : Nat}
    (hwork : d.work ≤ jobs + 1) : d.receive.2.work ≤ jobs := by
  simp only [work, hidle, Option.toList_none, List.length_nil] at hwork ⊢
  cases hjobs : d.queue.jobs with
  | nil => simp [receive_of_nil hjobs, hjobs, hidle]
  | cons job rest =>
      rw [hjobs, List.length_cons] at hwork
      cases job with
      | run command =>
          obtain ⟨hqueue, -, hwriting⟩ := receive_of_run hidle hjobs
          rw [hqueue]
          obtain hnone | hsome := hwriting
          · simp only [hnone, Option.toList_none, List.length_nil]
            omega
          · simp only [hsome, Option.toList_some, List.length_singleton]
            omega
      | stop =>
          simp only [receive_of_stop hidle hjobs, hidle, Option.toList_none, List.length_nil]
          omega

theorem drainJobs_quiet (write : Board.Writer σ) (jobs : Nat) (d : Dispatcher) (world : σ)
    (hwork : d.work ≤ jobs) : (drainJobs write jobs d world).2.1.work = 0 := by
  induction jobs generalizing d world with
  | zero => exact Nat.le_zero.mp hwork
  | succ jobs ih =>
      cases hwriting : d.writing with
      | none =>
          simp only [drainJobs, hwriting]
          exact ih _ _ (receive_work hwriting hwork)
      | some command =>
          simp only [drainJobs, hwriting, complete_of_writing hwriting]
          apply ih
          simp only [work, hwriting, Option.toList_some, Option.toList_none, List.length_singleton,
            List.length_nil] at hwork ⊢
          omega

theorem drain_quiet (write : Board.Writer σ) (d : Dispatcher) (world : σ) :
    (d.drain write world).2.1.writing = none ∧ (d.drain write world).2.1.queue.jobs = [] := by
  have hwork : d.work ≤ 2 * d.queue.pending + 1 := by
    unfold work Queue.pending
    cases d.writing <;> simp
  have hquiet := drainJobs_quiet write _ d world hwork
  unfold work at hquiet
  constructor
  · apply Option.toList_eq_nil_iff.mp
    exact List.eq_nil_of_length_eq_zero (by unfold drain; omega)
  · exact List.eq_nil_of_length_eq_zero (by unfold drain; omega)

theorem shutdown_eq (write : Board.Writer σ) (d : Dispatcher) (world : σ) :
    let drained := drain write { d with queue := d.queue.close } world
    d.shutdown write world = (drained.1, { drained.2.1 with stopped := true }, drained.2.2) := by
  have hquiet := drain_quiet write { d with queue := d.queue.close } world
  unfold shutdown
  generalize drain write { d with queue := d.queue.close } world = drained at hquiet ⊢
  obtain ⟨events, ⟨⟨jobs, closed⟩, board, writing, stopped⟩, world'⟩ := drained
  obtain ⟨rfl, rfl⟩ := hquiet
  simp [Queue.requestStop?, Queue.offer?, queueCapacity, receive, Queue.receive?]

end Dispatcher

namespace Traffic

structure Leads (t t' : Traffic) (events : List Event) : Prop where
  reached : ∃ actions, t' = t.run actions
  entry : t'.entry = t.entry
  stage : t'.stage = t.stage
  answers : t'.answers = t.answers
  told : ∃ done, t'.executed = t.executed ++ done ∧ done.flatMap Prod.snd = events

theorem Leads.refl (t : Traffic) : Leads t t [] where
  reached := ⟨[], rfl⟩
  entry := rfl
  stage := rfl
  answers := rfl
  told := ⟨[], (List.append_nil _).symm, rfl⟩

theorem run_append (t : Traffic) (actions more : List Action) :
    t.run (actions ++ more) = (t.run actions).run more :=
  List.foldl_append

theorem Leads.trans {t t' t'' : Traffic} {events more : List Event} (h : Leads t t' events)
    (h' : Leads t' t'' more) : Leads t t'' (events ++ more) := by
  obtain ⟨actions, hrun⟩ := h.reached
  obtain ⟨actions', hrun'⟩ := h'.reached
  obtain ⟨done, hdone, htold⟩ := h.told
  obtain ⟨done', hdone', htold'⟩ := h'.told
  refine { reached := ⟨actions ++ actions', ?_⟩, entry := h'.entry.trans h.entry,
           stage := h'.stage.trans h.stage, answers := h'.answers.trans h.answers,
           told := ⟨done ++ done', ?_, ?_⟩ }
  · rw [run_append, ← hrun, hrun']
  · rw [hdone', hdone, List.append_assoc]
  · rw [List.flatMap_append, htold, htold']

theorem receive_told {t : Traffic} (hgoing : t.dispatcher.stopped = false)
    (hidle : t.dispatcher.writing = none) :
    ∃ done, t.receive.executed = t.executed ++ done ∧
      done.flatMap Prod.snd = t.dispatcher.receive.1 := by
  cases hjobs : t.dispatcher.queue.jobs with
  | nil =>
      refine ⟨[], ?_, ?_⟩
      · simp [receive, hgoing, hidle, hjobs]
      · simp [Dispatcher.receive, Queue.receive?, hidle, hjobs]
  | cons job rest =>
      cases job with
      | stop =>
          refine ⟨[], ?_, ?_⟩
          · simp [receive, hgoing, hidle, hjobs]
          · simp [Dispatcher.receive, Queue.receive?, hidle, hjobs]
      | run command =>
          cases hchange : t.dispatcher.board.change command with
          | error e =>
              refine ⟨[(command, [.failure command e.message])], ?_, ?_⟩ <;>
                simp [receive, Dispatcher.receive, Queue.receive?, hgoing, hidle, hjobs, hchange]
          | ok store =>
              refine ⟨[], ?_, ?_⟩ <;>
                simp [receive, Dispatcher.receive, Queue.receive?, hgoing, hidle, hjobs, hchange]

theorem receive_leads {t : Traffic} (h : Orderly t) (hidle : t.dispatcher.writing = none) :
    Leads t t.receive t.dispatcher.receive.1 ∧
      t.receive.dispatcher = t.dispatcher.receive.2 := by
  cases hgoing : t.dispatcher.stopped with
  | true =>
      have hjobs := (h.stopped hgoing).2.1
      have hsame : t.receive = t := by simp [receive, hgoing]
      have hnothing : t.dispatcher.receive = ([], t.dispatcher) := by
        simp only [Dispatcher.receive, Queue.receive?, hidle, hjobs]
      rw [hsame, hnothing]
      exact ⟨.refl t, rfl⟩
  | false =>
      have hreceive : t.receive.dispatcher = t.dispatcher.receive.2 ∧ t.receive.entry = t.entry ∧
          t.receive.stage = t.stage ∧ t.receive.answers = t.answers := by
        simp only [receive, hgoing, hidle, Bool.false_eq_true, Option.isSome_none, or_self, if_false]
        split <;> exact ⟨rfl, rfl, rfl, rfl⟩
      obtain ⟨hdispatcher, hentry, hstage, hanswers⟩ := hreceive
      exact ⟨{ reached := ⟨[.receive], rfl⟩, entry := hentry, stage := hstage, answers := hanswers,
               told := receive_told hgoing hidle }, hdispatcher⟩

theorem complete_leads {t : Traffic} {command : Command}
    (hwriting : t.dispatcher.writing = some command) (written : Except Link.Error Unit) :
    Leads t (t.complete written) (t.dispatcher.complete written).1 ∧
      (t.complete written).dispatcher = (t.dispatcher.complete written).2 := by
  have hcomplete : t.complete written =
      { t with
        dispatcher := (t.dispatcher.complete written).2
        executed := t.executed ++ [(command, (t.dispatcher.complete written).1)] } := by
    simp only [complete, hwriting]
  refine ⟨{ reached := ⟨[.complete written], rfl⟩, entry := ?_, stage := ?_, answers := ?_,
            told := ⟨[(command, (t.dispatcher.complete written).1)], ?_, List.append_nil _⟩ }, ?_⟩ <;>
    rw [hcomplete]

variable {σ : Type}

theorem drainJobs_leads (write : Board.Writer σ) (jobs : Nat) {t : Traffic} (h : Orderly t)
    (world : σ) :
    ∃ t', Orderly t' ∧ Leads t t' (Dispatcher.drainJobs write jobs t.dispatcher world).1 ∧
      t'.dispatcher = (Dispatcher.drainJobs write jobs t.dispatcher world).2.1 := by
  induction jobs generalizing t world with
  | zero => exact ⟨t, h, .refl t, rfl⟩
  | succ jobs ih =>
      cases hwriting : t.dispatcher.writing with
      | none =>
          obtain ⟨hleads, hdispatcher⟩ := receive_leads h hwriting
          obtain ⟨t', h', hleads', hdispatcher'⟩ := ih (receive_orderly h) world
          rw [hdispatcher] at hleads' hdispatcher'
          simp only [Dispatcher.drainJobs, hwriting]
          exact ⟨t', h', hleads.trans hleads', hdispatcher'⟩
      | some command =>
          let written := (write (Board.payload command) world).1
          obtain ⟨hleads, hdispatcher⟩ := complete_leads hwriting written
          obtain ⟨t', h', hleads', hdispatcher'⟩ :=
            ih (complete_orderly h written) (write (Board.payload command) world).2
          rw [hdispatcher] at hleads' hdispatcher'
          simp only [Dispatcher.drainJobs, hwriting]
          exact ⟨t', h', hleads.trans hleads', hdispatcher'⟩

theorem drain_leads (write : Board.Writer σ) {t : Traffic} (h : Orderly t) (world : σ) :
    ∃ t', Orderly t' ∧ Leads t t' (t.dispatcher.drain write world).1 ∧
      t'.dispatcher = (t.dispatcher.drain write world).2.1 ∧
      t'.dispatcher.writing = none ∧ t'.dispatcher.queue.jobs = [] := by
  obtain ⟨t', h', hleads, hdispatcher⟩ :=
    drainJobs_leads write (2 * t.dispatcher.queue.pending + 1) h world
  obtain ⟨hidle, hjobs⟩ := t.dispatcher.drain_quiet write world
  refine ⟨t', h', hleads, hdispatcher, ?_, ?_⟩
  · rw [hdispatcher]
    exact hidle
  · rw [hdispatcher]
    exact hjobs

theorem stop_ends {t : Traffic} (h : Orderly t) (hstage : t.stage = .closing)
    (hidle : t.dispatcher.writing = none) (hjobs : t.dispatcher.queue.jobs = []) :
    t.run [.sendStop, .receive, .join] =
      { t with dispatcher := { t.dispatcher with stopped := true }, stage := .ended } := by
  have hgoing := h.going_of_stage (.inr hstage)
  have hsend : t.sendStop =
      { t with
        dispatcher := { t.dispatcher with queue := { t.dispatcher.queue with jobs := [.stop] } }
        stage := .stopping } := by
    simp [sendStop, Queue.requestStop?, Queue.offer?, queueCapacity, hstage, hjobs]
  have hreceive : t.sendStop.receive =
      { t with dispatcher := { t.dispatcher with stopped := true }, stage := .stopping } := by
    rw [hsend]
    simp [receive, Dispatcher.receive, Queue.receive?, hgoing, hidle, ← hjobs]
  change t.sendStop.receive.join = _
  rw [hreceive]
  simp [join]

theorem shutdown_run {t : Traffic} (h : Orderly t) (hstage : t.stage = .running)
    (hentry : t.entry = none) (write : Board.Writer σ) (world : σ) :
    ∃ actions done, (t.run actions).stage = .ended ∧
      (t.run actions).dispatcher = (t.dispatcher.shutdown write world).2.1 ∧
      (t.run actions).answers = t.answers ∧
      (t.run actions).executed = t.executed ++ done ∧
      done.flatMap Prod.snd = (t.dispatcher.shutdown write world).1 := by
  have hclose : t.close =
      { t with
        dispatcher := { t.dispatcher with queue := t.dispatcher.queue.close }
        stage := .closing } := by
    simp [close, hstage, hentry]
  obtain ⟨t', h', hleads, hdispatcher, hidle, hjobs⟩ :=
    drain_leads write (close_orderly h) world
  obtain ⟨actions, hrun⟩ := hleads.reached
  obtain ⟨done, hdone, htold⟩ := hleads.told
  have hstage' : t'.stage = .closing := by rw [hleads.stage, hclose]
  have hend : t.run ([.close] ++ actions ++ [.sendStop, .receive, .join]) =
      { t' with dispatcher := { t'.dispatcher with stopped := true }, stage := .ended } := by
    rw [run_append, run_append, ← stop_ends h' hstage' hidle hjobs, hrun]
    rfl
  have hshutdown := t.dispatcher.shutdown_eq write world
  rw [hclose] at hdispatcher hdone htold hleads
  refine ⟨[.close] ++ actions ++ [.sendStop, .receive, .join], done, ?_⟩
  rw [hend, hshutdown]
  exact ⟨rfl, by rw [hdispatcher], hleads.answers, hdone, htold⟩

theorem answer_entry (t : Traffic) : t.answer.entry = none := by
  unfold answer
  cases hentry : t.entry with
  | none => exact hentry
  | some entry => rfl

theorem close_stage {t : Traffic} (hentry : t.entry = none) : t.close.stage ≠ .running := by
  unfold close
  split
  · simp
  · rename_i hbusy
    intro hstage
    exact hbusy ⟨hstage, hentry⟩

-- Nothing keeps a shutdown from returning.
theorem Orderly.ends {t : Traffic} (h : Orderly t) : ∃ more, (t.run more).stage = .ended := by
  obtain ⟨t', h', hleads, -, hidle, hjobs⟩ :=
    drain_leads (fun _ world => (.ok (), world)) (close_orderly (answer_orderly h)) ()
  obtain ⟨alone, hrun⟩ := hleads.reached
  have hstage := close_stage t.answer_entry
  rw [← hleads.stage] at hstage
  have hreached (last : List Action) :
      t.run ([.answer, .close] ++ alone ++ last) = t'.run last := by
    rw [run_append, run_append, hrun]
    rfl
  cases hlate : t'.stage with
  | running => exact absurd hlate hstage
  | closing =>
      refine ⟨_, (congrArg Traffic.stage (hreached [.sendStop, .receive, .join])).trans ?_⟩
      rw [stop_ends h' hlate hidle hjobs]
  | stopping =>
      have hstopped : t'.dispatcher.stopped = true := by
        by_contra hgoing
        have hwaiting := h'.jobs_eq.1
        simp [hjobs, stops, hlate, hgoing] at hwaiting
      refine ⟨_, (congrArg Traffic.stage (hreached [.join])).trans ?_⟩
      change t'.join.stage = .ended
      simp [join, hlate, hstopped]
  | ended => exact ⟨_, (congrArg Traffic.stage (hreached [])).trans hlate⟩

end Traffic

end RelayGateway.Dispatch
