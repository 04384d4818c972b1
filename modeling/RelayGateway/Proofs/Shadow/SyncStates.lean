import RelayGateway.Proofs.Shadow.Effects
import RelayGateway.Proofs.Shadow.Reports

namespace RelayGateway.Shadow

open RelayGateway.Text (toBytes)

def Query.Names (relays index : Nat) : Query → Prop
  | .submit (.toggleRelay named _) => named = index
  | .publish _ text => ∃ full, Full.ofBytes? relays (toBytes text) = some full ∧
      (full.desired.lookup index ≠ none ∨ full.reported.lookup index ≠ none)
  | _ => False

-- Whether the store was seen to hold a target after the command for it was taken.
def Verified (index : Nat) (target : Bool) (xs : List Exchange) : Prop :=
  ∃ front rest, xs = front ++ .saw index target :: rest ∧
    .submitted (.setRelay index target) (.ok ()) ∈ front

theorem Verified.append {index : Nat} {target : Bool} {xs : List Exchange}
    (h : Verified index target xs) (before after : List Exchange) :
    Verified index target (before ++ (xs ++ after)) := by
  obtain ⟨front, rest, rfl, hsubmit⟩ := h
  refine ⟨before ++ front, rest ++ after, ?_, List.mem_append_right before hsubmit⟩
  simp only [List.append_assoc, List.cons_append]

def Exchange.fails : Exchange → Bool
  | ⟨.read _, .error _⟩ => true
  | _ => false

@[simp] theorem fails_saw (index : Nat) (state : Bool) : (Exchange.saw index state).fails = false :=
  rfl

theorem fails_of_query {x : Exchange} (h : ∀ index, x.query ≠ .read index) : x.fails = false := by
  obtain ⟨query, reply⟩ := x
  cases query with
  | read index => exact absurd rfl (h index)
  | _ => rfl

theorem fails_of_fromStore {relays index : Nat} {reply : Except Relay.StoreError Bool}
    (h : Exchange.FromStore relays ⟨.read index, reply⟩) (hindex : index < relays) :
    Exchange.fails ⟨.read index, reply⟩ = false := by
  obtain ⟨state, rfl⟩ := Engine.exists_state_of_fromStore h hindex
  rfl

namespace Engine

variable {e : Engine}

-- What the attempt to bring a relay to its target comes to: the command is refused, the wait for it
-- takes too long, or it is verified and its report is taken or refused.
inductive Attempted (e : Engine) (index : Nat) (target : Bool) : List Exchange → SyncState → Prop
  | refused (reason : Dispatch.Error) :
      e.Attempted index target [.submitted (.setRelay index target) (.error reason)] .waiting
  | late {start now : Nat} {nows : List Nat} (hnow : e.deadline start ≤ now) :
      e.Attempted index target (e.begun index target start ++
        (nows.flatMap (missedTurn index target) ++ missedLook index target now)) .waiting
  | reported {start : Nat} {nows : List Nat} :
      e.Attempted index target (e.begun index target start ++
        (nows.flatMap (missedTurn index target) ++ [.saw index target] ++
          [.published e.topics.update (relayReport index target) true])) .reported
  | unreported {start : Nat} {nows : List Nat} (notice : Notice) :
      e.Attempted index target (e.begun index target start ++
        (nows.flatMap (missedTurn index target) ++ [.saw index target] ++
          .published e.topics.update (relayReport index target) false :: spoken [notice])) .synced

-- What is exchanged about a target, and the state in which its relay ends: it was shown already, or
-- an attempt was made.
inductive Ends (e : Engine) (index : Nat) (target : Bool) : List Exchange → SyncState → Prop
  | shown : e.Ends index target [.saw index target] .synced
  | changed {applied : List Exchange} {state : SyncState} (issued : Bool) (notices : List Notice)
      (h : e.Attempted index target applied state) :
      e.Ends index target
        (.saw index (!target) :: (e.paused issued ++ (applied ++ spoken notices))) state

theorem Ends.ne_verifying {index : Nat} {target : Bool} {xs : List Exchange} {state : SyncState}
    (h : e.Ends index target xs state) : state ≠ .verifying := by
  cases h with
  | shown => simp
  | changed issued notices h => cases h <;> simp

def Concerns (e : Engine) (index : Nat) (target : Bool) (q : Query) : Prop :=
  (∃ length, q = .sleep length) ∨ q = .submit (.setRelay index target) ∨
    q = .publish e.topics.update (relayReport index target)

theorem Concerns.names {relays index : Nat} {target : Bool} {q : Query}
    (h : e.Concerns index target q) (hindex : index < relays) (hword : index + 1 < 2 ^ 64)
    {other : Nat} (hnames : q.Names relays other) : other = index := by
  obtain ⟨length, rfl⟩ | rfl | rfl := h
  · exact hnames.elim
  · exact hnames.symm
  · obtain ⟨full, hread, hlookup⟩ := hnames
    rw [ofBytes?_relayReport hindex hword] at hread
    obtain rfl := Option.some.inj hread
    by_contra hne
    have hother : (other == index) = false := beq_false_of_ne hne
    simp [List.lookup_cons, hother] at hlookup

theorem Attempted.concerns {index : Nat} {target : Bool} {xs : List Exchange} {state : SyncState}
    (h : e.Attempted index target xs state) : ∀ q ∈ effects xs, e.Concerns index target q := by
  have hbegun (start : Nat) : ∀ q ∈ effects (e.begun index target start),
      e.Concerns index target q := by
    simp [begun, Concerns]
  have hturns (nows : List Nat) : ∀ q ∈ effects (nows.flatMap (missedTurn index target)),
      e.Concerns index target q := by
    rw [effects_missedTurns]
    intro q hq
    exact .inl ⟨_, List.eq_of_mem_replicate hq⟩
  cases h with
  | refused reason => simp [Concerns]
  | late hnow =>
      simp only [effects_append, List.forall_mem_append]
      exact ⟨hbegun _, hturns _, by simp⟩
  | reported =>
      simp only [effects_append, List.forall_mem_append]
      exact ⟨hbegun _, ⟨hturns _, by simp⟩, by simp [Concerns]⟩
  | unreported notice =>
      simp only [effects_append, List.forall_mem_append]
      exact ⟨hbegun _, ⟨hturns _, by simp⟩, by simp [Concerns]⟩

theorem Ends.concerns {index : Nat} {target : Bool} {xs : List Exchange} {state : SyncState}
    (h : e.Ends index target xs state) : ∀ q ∈ effects xs, e.Concerns index target q := by
  cases h with
  | shown => simp
  | @changed applied state issued notices h =>
      have hpaused : ∀ q ∈ effects (e.paused issued), e.Concerns index target q := by
        cases issued <;> simp [pause, Concerns]
      have hblock : effects (.saw index (!target) ::
          (e.paused issued ++ (applied ++ spoken notices))) =
          effects (e.paused issued) ++ effects applied := by
        simp
      rw [hblock]
      exact List.forall_mem_append.mpr ⟨hpaused, h.concerns⟩

theorem Attempted.reported_iff {index : Nat} {target : Bool} {xs : List Exchange}
    {state : SyncState} (h : e.Attempted index target xs state) :
    state = .reported ↔ .published e.topics.update (relayReport index target) true ∈ xs := by
  cases h with
  | refused reason => exact iff_of_false (by simp) (published_notMem (by simp))
  | late hnow => exact iff_of_false (by simp) (published_notMem (by simp [begun]))
  | reported => exact iff_of_true rfl (by simp)
  | @unreported start nows notice =>
      refine iff_of_false (by simp) ?_
      rw [← List.append_assoc, List.mem_append, List.mem_cons]
      rintro (hmem | hsame | hmem)
      · exact published_notMem (by simp [begun]) hmem
      · cases hsame
      · exact published_notMem (by simp) hmem

theorem Attempted.verified {index : Nat} {target : Bool} {xs : List Exchange}
    (h : e.Attempted index target xs .reported) : Verified index target xs := by
  cases h with
  | @reported start nows =>
      refine ⟨e.begun index target start ++ nows.flatMap (missedTurn index target),
        [.published e.topics.update (relayReport index target) true], ?_, by simp [begun]⟩
      simp only [List.append_assoc, List.singleton_append]

theorem Ends.reported_iff {index : Nat} {target : Bool} {xs : List Exchange} {state : SyncState}
    (h : e.Ends index target xs state) :
    state = .reported ↔ Verified index target xs ∧
      .published e.topics.update (relayReport index target) true ∈ xs := by
  cases h with
  | shown => exact iff_of_false (by simp) fun h => published_notMem (by simp) h.2
  | @changed applied state issued notices h =>
      have hfront : .publish e.topics.update (relayReport index target) ∉
          effects (.saw index (!target) :: e.paused issued) := by
        simp [pause]
      rw [← List.cons_append]
      constructor
      · rintro rfl
        refine ⟨h.verified.append _ _, ?_⟩
        exact List.mem_append_right _ (List.mem_append_left _ (h.reported_iff.mp rfl))
      · rintro ⟨-, hmem⟩
        simp only [List.mem_append] at hmem
        obtain hmem | hmem | hmem := hmem
        · exact absurd hmem (published_notMem hfront)
        · exact h.reported_iff.mpr hmem
        · exact absurd hmem (published_notMem (by simp))

theorem verify_readable {relays index deadline polls : Nat} {target : Bool} {xs : List Exchange}
    {verdict : Option Verdict}
    (h : Dialogue.Transcript (verify index target deadline polls) xs verdict)
    (hstore : ∀ x ∈ xs, x.FromStore relays) (hindex : index < relays) :
    ∀ x ∈ xs, x.fails = false := by
  obtain ⟨nows, last, rfl, -, hlast⟩ := verify_cases h
  have hmissed (now : Nat) : ∀ x ∈ missedLook index target now, x.fails = false := by
    simp [missedLook, fails_of_query]
  have hturns : ∀ x ∈ nows.flatMap (missedTurn index target), x.fails = false := by
    intro x hx
    obtain ⟨now, -, hturn⟩ := List.mem_flatMap.mp hx
    obtain hlook | hpause := List.mem_append.mp hturn
    · exact hmissed now x hlook
    · obtain rfl := List.mem_singleton.mp hpause
      rfl
  refine List.forall_mem_append.mpr ⟨hturns, ?_⟩
  obtain ⟨final, -, hfinal⟩ | ⟨-, -, now, -, rfl⟩ := hlast
  · cases hfinal with
    | reached => simp
    | late hnow => exact hmissed _
    | unreadable reason =>
        have hlook := hstore _ (List.mem_append_right _ (List.mem_singleton_self _))
        exact List.forall_mem_singleton.mpr (fails_of_fromStore hlook hindex)
  · exact hmissed now

theorem attempted_of_apply {polls index : Nat} {sync sync' : Sync} {target : Bool}
    {xs : List Exchange} {outcome : Except GatewayError Unit}
    (h : Dialogue.Transcript (e.apply polls sync index target) xs (some (outcome, sync')))
    (hreads : ∀ x ∈ xs, x.fails = false) :
    ∃ state, sync' = sync.set index state ∧ e.Attempted index target xs state := by
  cases apply_cases h with
  | refused reason => exact ⟨_, rfl, .refused reason⟩
  | @unreadable start looks reason hlooks =>
      obtain ⟨nows, last, rfl, hlast⟩ := verify_ended hlooks
      cases hlast
      have hfails := hreads ⟨.read index, .error reason⟩ (by simp)
      cases hfails
  | late hlooks =>
      obtain ⟨nows, last, rfl, hlast⟩ := verify_ended hlooks
      cases hlast with
      | late hnow => exact ⟨_, rfl, .late hnow⟩
  | reported hlooks =>
      obtain ⟨nows, last, rfl, hlast⟩ := verify_ended hlooks
      cases hlast
      exact ⟨_, rfl, .reported⟩
  | unreported notice hlooks =>
      obtain ⟨nows, last, rfl, hlast⟩ := verify_ended hlooks
      cases hlast
      exact ⟨_, rfl, .unreported notice⟩

theorem apply_readable {relays polls index : Nat} {sync : Sync} {target : Bool}
    {xs : List Exchange} {outcome : Option Applied}
    (h : Dialogue.Transcript (e.apply polls sync index target) xs outcome)
    (hstore : ∀ x ∈ xs, x.FromStore relays) (hindex : index < relays) :
    ∀ x ∈ xs, x.fails = false := by
  have hbegun (start : Nat) : ∀ x ∈ e.begun index target start, x.fails = false := by
    simp [begun, Exchange.submitted, fails_of_query]
  obtain ⟨reason, rfl, -⟩ | ⟨start, looks, verdict, final, rfl, hlooks, hfinal, -⟩ := apply_parts h
  · simp [Exchange.submitted, fails_of_query]
  · simp only [List.forall_mem_append] at hstore ⊢
    refine ⟨hbegun start, verify_readable hlooks hstore.2.1 hindex, ?_⟩
    obtain rfl | ⟨accepted, notices, rfl⟩ := hfinal
    · simp
    · simp [spoken, Exchange.published, fails_of_query]

structure Settles (e : Engine) (targets : Targets) (sync after : Sync) (xs : List Exchange) :
    Prop where
  length : after.length = sync.length
  others : ∀ index, targets.lookup index = none → after[index]? = sync[index]?
  ends : ∃ blocks, xs = blocks.flatten ∧ List.Forall₂ (fun entry block =>
    ∃ state, after[entry.1]? = some state ∧ e.Ends entry.1 entry.2 block state ∧
      (state = .reported ↔ Verified entry.1 entry.2 block ∧
        .published e.topics.update (relayReport entry.1 entry.2) true ∈ block)) targets blocks
  concerns : ∀ q ∈ effects xs, ∃ entry ∈ targets, e.Concerns entry.1 entry.2 q
  settled : .verifying ∉ sync → .verifying ∉ after

theorem Settles.nil (sync : Sync) : e.Settles [] sync sync [] where
  length := rfl
  others _ _ := rfl
  ends := ⟨[], rfl, .nil⟩
  concerns := by simp
  settled h := h

theorem Settles.cons {index : Nat} {target : Bool} {targets : Targets} {sync after : Sync}
    {block xs : List Exchange} {state : SyncState} (hend : e.Ends index target block state)
    (hfirst : ∀ entry ∈ targets, index < entry.1) (hindex : index < sync.length)
    (h : e.Settles targets (sync.set index state) after xs) :
    e.Settles ((index, target) :: targets) sync after (block ++ xs) where
  length := h.length.trans List.length_set
  others other hother := by
    rw [List.lookup_cons] at hother
    by_cases hsame : other = index
    · rw [hsame, beq_self_eq_true] at hother
      cases hother
    · rw [beq_false_of_ne hsame] at hother
      rw [h.others other hother, List.getElem?_set_ne (Ne.symm hsame)]
  ends := by
    obtain ⟨blocks, rfl, hblocks⟩ := h.ends
    have hstate : after[index]? = some state := by
      rw [h.others index (Sorted.lookup_eq_none_of_lt hfirst), List.getElem?_set_self hindex]
    exact ⟨block :: blocks, rfl, .cons ⟨state, hstate, hend, hend.reported_iff⟩ hblocks⟩
  concerns := by
    rw [effects_append]
    intro q hq
    obtain hq | hq := List.mem_append.mp hq
    · exact ⟨_, List.mem_cons_self, hend.concerns q hq⟩
    · obtain ⟨entry, hentry, hconcerns⟩ := h.concerns q hq
      exact ⟨entry, List.mem_cons_of_mem _ hentry, hconcerns⟩
  settled hsync := by
    apply h.settled
    intro hmem
    obtain hmem | hstate := List.mem_or_eq_of_mem_set hmem
    · exact hsync hmem
    · exact hend.ne_verifying hstate.symm

theorem reconcile_settles {polls : Nat} {issued : Bool} {targets : Targets} {sync after : Sync}
    {xs : List Exchange} (h : e.Reconciles polls issued targets sync xs (some after))
    (hreads : ∀ x ∈ xs, x.fails = false) (hascending : Sorted.Ascending targets)
    (hlt : ∀ entry ∈ targets, entry.1 < sync.length) : e.Settles targets sync after xs := by
  generalize hresult : some after = result at h
  induction h with
  | done issued sync =>
      obtain rfl := Option.some.inj hresult
      exact .nil after
  | unreadable reason notice hrest ih =>
      have hfails := hreads _ List.mem_cons_self
      cases hfails
  | @shown issued index target targets sync xs result hrest ih =>
      obtain ⟨hfirst, hascending⟩ := List.pairwise_cons.mp hascending
      obtain ⟨hindex, hlt⟩ := List.forall_mem_cons.mp hlt
      obtain ⟨-, hreads⟩ := List.forall_mem_cons.mp hreads
      have hlater := ih hreads hascending (by simpa using hlt) hresult
      exact hlater.cons .shown hfirst hindex
  | cut happly => cases hresult
  | @applied issued index target targets sync sync' applied xs outcome result notices happly hrest
      ih =>
      obtain ⟨hfirst, hascending⟩ := List.pairwise_cons.mp hascending
      obtain ⟨hindex, hlt⟩ := List.forall_mem_cons.mp hlt
      simp only [List.forall_mem_cons, List.forall_mem_append] at hreads
      obtain ⟨-, ⟨-, happlied, -⟩, hreads⟩ := hreads
      obtain ⟨state, rfl, hattempted⟩ := attempted_of_apply happly happlied
      have hlater := ih hreads hascending (by simpa using hlt) hresult
      exact hlater.cons (.changed issued notices hattempted) hfirst hindex

theorem reconcile_readable {relays polls : Nat} {issued : Bool} {targets : Targets} {sync : Sync}
    {xs : List Exchange} {result : Option Sync}
    (h : e.Reconciles polls issued targets sync xs result)
    (hstore : ∀ x ∈ xs, x.FromStore relays) (htargets : ∀ entry ∈ targets, entry.1 < relays) :
    ∀ x ∈ xs, x.fails = false := by
  have hspoken (notices : List Notice) : ∀ x ∈ spoken notices, x.fails = false := by
    simp [spoken, fails_of_query]
  have hpaused (issued : Bool) : ∀ x ∈ e.paused issued, x.fails = false := by
    cases issued <;> simp [paused, fails_of_query]
  induction h with
  | done issued sync => simp
  | unreadable reason notice hrest ih =>
      simp only [List.forall_mem_cons, List.forall_mem_append] at hstore htargets ⊢
      exact ⟨fails_of_fromStore hstore.1 htargets.1, hspoken _, ih hstore.2.2 htargets.2⟩
  | shown hrest ih =>
      simp only [List.forall_mem_cons] at hstore htargets ⊢
      exact ⟨fails_saw _ _, ih hstore.2 htargets.2⟩
  | cut happly =>
      simp only [List.forall_mem_cons, List.forall_mem_append] at hstore htargets ⊢
      exact ⟨fails_saw _ _, hpaused _, apply_readable happly hstore.2.2 htargets.1⟩
  | applied notices happly hrest ih =>
      simp only [List.forall_mem_cons, List.forall_mem_append] at hstore htargets ⊢
      obtain ⟨-, ⟨-, happlied, -⟩, hlater⟩ := hstore
      exact ⟨fails_saw _ _, ⟨hpaused _, apply_readable happly happlied htargets.1, hspoken _⟩,
        ih hlater htargets.2⟩

theorem settles_of_handled {relays polls : Nat} {sync : Sync} {topic : String}
    {payload : List UInt8} {xs : List Exchange} {result : Option Sync}
    (hlength : sync.length = relays)
    (h : Dialogue.Transcript (e.handleWithin polls sync topic payload) xs result)
    (hstore : ∀ x ∈ xs, x.FromStore relays) :
    (∀ x ∈ xs, x.fails = false) ∧ ∀ after, result = some after →
      ∃ notices rest, xs = spoken notices ++ rest ∧
        e.Settles ((e.targets? relays topic payload).getD []) sync after rest := by
  subst hlength
  have hlt : ∀ entry ∈ (e.targets? sync.length topic payload).getD [], entry.1 < sync.length :=
    fun entry hentry => targets?_lt hentry
  obtain ⟨notices, heq⟩ := e.handleWithin_eq polls sync topic payload
  rw [heq] at h
  obtain ⟨said, done, rest, rfl, hsaid, hrest⟩ := h.of_bind
  obtain rfl := sayAll_cases hsaid
  obtain ⟨-, hafter⟩ := List.forall_mem_append.mp hstore
  have hcourse := reconcile_cases hrest
  have hreads := reconcile_readable hcourse hafter hlt
  refine ⟨List.forall_mem_append.mpr ⟨by simp [spoken, fails_of_query], hreads⟩, ?_⟩
  rintro after rfl
  exact ⟨notices, rest, rfl, reconcile_settles hcourse hreads (e.targets?_ascending _ _ _) hlt⟩

-- The states that the relays of a board come to by messages handled one after the other, whatever
-- the surroundings do.
inductive Reached (e : Engine) (relays : Nat) : Sync → Prop
  | start : e.Reached relays (List.replicate relays .waiting)
  | handled {polls : Nat} {sync after : Sync} {topic : String} {payload : List UInt8}
      {xs : List Exchange} (hsync : e.Reached relays sync)
      (h : Dialogue.Transcript (e.handleWithin polls sync topic payload) xs (some after))
      (hstore : ∀ x ∈ xs, x.FromStore relays) : e.Reached relays after

theorem Reached.settled {relays : Nat} {sync : Sync} (h : e.Reached relays sync) :
    sync.length = relays ∧ .verifying ∉ sync := by
  induction h with
  | start => simp
  | handled hsync h hstore ih =>
      obtain ⟨hlength, hsettled⟩ := ih
      obtain ⟨-, hresult⟩ := settles_of_handled hlength h hstore
      obtain ⟨notices, rest, -, hsettles⟩ := hresult _ rfl
      exact ⟨hsettles.length.trans hlength, hsettles.settled hsettled⟩

theorem targets?_eq_none {relays : Nat} {topic : String} {payload : List UInt8}
    (hdelta : e.topics.classify topic = some .updateDelta → Delta.ofBytes? relays payload = none)
    (hfull : e.topics.classify topic = some .getAccepted → Full.ofBytes? relays payload = none) :
    e.targets? relays topic payload = none := by
  unfold targets?
  split
  · rename_i hchannel
    rw [hdelta hchannel, Option.map_none]
  · rename_i hchannel
    rw [hfull hchannel, Option.map_none]
  · rfl

-- Each message that is handled leaves no relay as being verified, and each target in the state that
-- its reconciliation came to. Other relays keep their states and are named by no effect; and a
-- message without targets that can be read only makes for notices. No look at the store fails.
theorem handleWithin_settles {relays polls : Nat} {sync : Sync} {topic : String}
    {payload : List UInt8} {xs : List Exchange} {result : Option Sync}
    (hsync : e.Reached relays sync)
    (h : Dialogue.Transcript (e.handleWithin polls sync topic payload) xs result)
    (hstore : ∀ x ∈ xs, x.FromStore relays) :
    (∀ x ∈ xs, x.fails = false) ∧ ∀ after, result = some after →
      let targets := (e.targets? relays topic payload).getD []
      after.length = relays ∧ .verifying ∉ after ∧
      (∀ index, targets.lookup index = none → after[index]? = sync[index]? ∧
        ∀ q ∈ effects xs, ¬ q.Names relays index) ∧
      (∃ notices blocks, xs = spoken notices ++ blocks.flatten ∧
        List.Forall₂ (fun entry block =>
          ∃ state, after[entry.1]? = some state ∧ e.Ends entry.1 entry.2 block state ∧
            (state = .reported ↔ Verified entry.1 entry.2 block ∧
              .published e.topics.update (relayReport entry.1 entry.2) true ∈ block))
          targets blocks) ∧
      ((e.topics.classify topic = some .updateDelta → Delta.ofBytes? relays payload = none) →
        (e.topics.classify topic = some .getAccepted → Full.ofBytes? relays payload = none) →
          after = sync ∧ ∃ notices, xs = spoken notices) := by
  obtain ⟨hlength, hbefore⟩ := hsync.settled
  obtain ⟨hreads, hresult⟩ := settles_of_handled hlength h hstore
  refine ⟨hreads, fun after hafter => ?_⟩
  intro targets
  obtain ⟨notices, rest, rfl, hsettles⟩ := hresult after hafter
  obtain ⟨blocks, hblocks, hends⟩ := hsettles.ends
  refine ⟨hsettles.length.trans hlength, hsettles.settled hbefore, ?_, ?_, ?_⟩
  · intro index hindex
    refine ⟨hsettles.others index hindex, ?_⟩
    intro q hq hnames
    rw [effects_append, effects_spoken, List.nil_append] at hq
    obtain ⟨entry, hentry, hconcerns⟩ := hsettles.concerns q hq
    have hword : entry.1 + 1 < 2 ^ 64 := by
      obtain ⟨partition, hpartition⟩ := e.exists_targets_eq relays topic payload
      rw [hpartition] at hentry
      exact index_lt_of_mem_targets hentry
    obtain rfl := hconcerns.names (targets?_lt hentry) hword hnames
    have hother := List.lookup_eq_none_iff.mp hindex entry hentry
    simp at hother
  · exact ⟨notices, blocks, by rw [hblocks], hends⟩
  · intro hdelta hfull
    have hnone : (e.targets? relays topic payload).getD [] = [] := by
      rw [targets?_eq_none hdelta hfull, Option.getD_none]
    rw [hnone] at hends hsettles
    cases hends
    refine ⟨List.ext_getElem? fun index => hsettles.others index rfl, notices, ?_⟩
    rw [hblocks, List.flatten_nil, List.append_nil]

-- A relay that is shown, one that is reported and one whose command is refused; and then a delta that
-- cannot be read.
theorem handleWithin_settles_mixedDelta :
    let topic := verdure.topics.topic .updateDelta
    let first := mixedTalk.trace lateRelay 0
    let between : Sync := [.synced, .reported, .waiting]
    let unread := verdure.handleWithin 1 between topic []
    (mixedTalk.run lateRelay 0).1 = some between ∧ verdure.Reached 3 between ∧
      (∃ notices blocks, first = spoken notices ++ blocks.flatten ∧
        List.Forall₂ (fun entry block =>
          ∃ state, between[entry.1]? = some state ∧ verdure.Ends entry.1 entry.2 block state ∧
            (state = .reported ↔ Verified entry.1 entry.2 block ∧
              .published verdure.topics.update (relayReport entry.1 entry.2) true ∈ block))
          [(0, false), (1, true), (2, true)] blocks) ∧
      (unread.run lateRelay 700).1 = some between ∧
      ∃ notices, unread.trace lateRelay 700 = spoken notices := by
  intro topic first between unread
  have hresult : (mixedTalk.run lateRelay 0).1 = some [.synced, .reported, .waiting] := by
    decide +kernel
  have hfirst : Dialogue.Transcript
      (verdure.handleWithin 1 (List.replicate 3 .waiting) topic mixedDelta) first (some between) := by
    rw [← hresult]
    exact Dialogue.transcript_trace lateRelay mixedTalk 0
  have hstore : ∀ x ∈ first, Exchange.FromStore 3 x :=
    Dialogue.forall_mem_trace lateRelay_fromStore mixedTalk 0
  have hbetween : verdure.Reached 3 between := .handled .start hfirst hstore
  have htargets : (verdure.targets? 3 (verdure.topics.topic .updateDelta) mixedDelta).getD [] =
      [(0, false), (1, true), (2, true)] := by decide +kernel
  obtain ⟨-, hsettled⟩ := handleWithin_settles .start hfirst hstore
  obtain ⟨-, -, -, hends, -⟩ := hsettled between rfl
  rw [htargets] at hends
  -- the second message has no targets
  have hunread : Delta.ofBytes? 3 [] = none := by decide +kernel
  have hchannel : verdure.topics.classify (verdure.topics.topic .updateDelta) = some .updateDelta := by
    decide +kernel
  have hkept : (unread.run lateRelay 700).1 = some [.synced, .reported, .waiting] := by
    decide +kernel
  have hsecond := Dialogue.transcript_trace lateRelay unread 700
  have hstore' : ∀ x ∈ unread.trace lateRelay 700, Exchange.FromStore 3 x :=
    Dialogue.forall_mem_trace lateRelay_fromStore unread 700
  obtain ⟨-, hsettled'⟩ := handleWithin_settles hbetween hsecond hstore'
  obtain ⟨-, -, -, -, hidle⟩ := hsettled' between hkept
  obtain ⟨-, hnotices⟩ := hidle (fun _ => hunread) (by rw [hchannel]; simp)
  exact ⟨hresult, hbetween, hends, hkept, hnotices⟩

end Engine

end RelayGateway.Shadow
