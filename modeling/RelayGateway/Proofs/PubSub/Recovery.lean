import RelayGateway.PubSub.Client

namespace RelayGateway.PubSub

abbrev Exchange (Handler Hook : Type) := Dialogue.Exchange (Query Handler Hook) Reply

variable {Handler Hook α : Type}

namespace Exchange

def connected (result : Except Error Unit) : Exchange Handler Hook := ⟨.connect, result⟩

def subscribed (entry : String × Handler) (result : Except Error Unit) : Exchange Handler Hook :=
  ⟨.subscribe entry.1 entry.2, result⟩

def accepted (entry : String × Handler) : Exchange Handler Hook := subscribed entry (.ok ())

def waited (policy : ReconnectPolicy) (attempt : Nat) : Exchange Handler Hook :=
  ⟨.wait (policy.delay attempt) (.reconnecting attempt), ()⟩

def resumed (hook : Hook) : Exchange Handler Hook := ⟨.resume hook, ()⟩

-- Whether something is done, other than at the gate of the client itself.
def isEffect (x : Exchange Handler Hook) : Bool :=
  match x.query with
  | .gate _ => false
  | .say _ => false
  | _ => true

def wait? (x : Exchange Handler Hook) : Option Duration :=
  match x.query with
  | .wait length _ => some length
  | _ => none

end Exchange

def effects (xs : List (Exchange Handler Hook)) : List (Exchange Handler Hook) :=
  xs.filter Exchange.isEffect

def waits (xs : List (Exchange Handler Hook)) : List Duration := xs.filterMap Exchange.wait?

-- One attempt at a session: the connect is refused, or the registry is subscribed in order, up to the
-- first refusal. The attempt succeeds if there is none.
inductive Attempt (registry : List (String × Handler)) : List (Exchange Handler Hook) → Bool → Prop
  | refused (reason : Error) : Attempt registry [.connected (.error reason)] false
  | cut {front back : List (String × Handler)} {entry : String × Handler} (reason : Error)
      (h : registry = front ++ entry :: back) :
      Attempt registry
        (.connected (.ok ()) :: (front.map .accepted ++ [.subscribed entry (.error reason)])) false
  | complete : Attempt registry (.connected (.ok ()) :: registry.map .accepted) true

def course (policy : ReconnectPolicy) :
    (attempt : Nat) → List (List (Exchange Handler Hook)) → List (Exchange Handler Hook)
  | _, [] => []
  | _, [xs] => xs
  | attempt, xs :: ys :: rest =>
    xs ++ .waited policy attempt :: course policy (attempt + 1) (ys :: rest)

structure Attempts (registry : List (String × Handler)) (allowed : Nat)
    (blocks : List (List (Exchange Handler Hook))) (back : Bool) : Prop where
  length_le : blocks.length ≤ allowed
  ends : ∃ failed last, blocks = failed ++ last ∧ (∀ xs ∈ failed, Attempt registry xs false) ∧
    if back then ∃ xs, last = [xs] ∧ Attempt registry xs true
    else last = [] ∧ failed.length = allowed

theorem course_cons {blocks : List (List (Exchange Handler Hook))} (h : blocks ≠ [])
    (policy : ReconnectPolicy) (attempt : Nat) (xs : List (Exchange Handler Hook)) :
    course policy attempt (xs :: blocks) =
      xs ++ .waited policy attempt :: course policy (attempt + 1) blocks := by
  obtain ⟨ys, rest, rfl⟩ := List.exists_cons_of_ne_nil h
  rfl

theorem waits_append (xs ys : List (Exchange Handler Hook)) :
    waits (xs ++ ys) = waits xs ++ waits ys := List.filterMap_append

theorem effects_append (xs ys : List (Exchange Handler Hook)) :
    effects (xs ++ ys) = effects xs ++ effects ys := List.filter_append ..

theorem waits_effects (xs : List (Exchange Handler Hook)) : waits (effects xs) = waits xs := by
  induction xs with
  | nil => rfl
  | cons x xs ih =>
      obtain ⟨query, reply⟩ := x
      cases query with
      | wait length state => exact congrArg (length :: ·) ih
      | _ => exact ih

theorem effects_map {f : α → Exchange Handler Hook} (h : ∀ a, (f a).isEffect = true)
    (as : List α) : effects (as.map f) = as.map f := by
  apply List.filter_eq_self.mpr
  intro x hx
  obtain ⟨a, -, rfl⟩ := List.mem_map.mp hx
  exact h a

theorem waits_map {f : α → Exchange Handler Hook} (h : ∀ a, (f a).wait? = none) (as : List α) :
    waits (as.map f) = [] := by
  apply List.filterMap_eq_nil_iff.mpr
  intro x hx
  obtain ⟨a, -, rfl⟩ := List.mem_map.mp hx
  exact h a

theorem effects_accepted (entries : List (String × Handler)) :
    effects (entries.map Exchange.accepted : List (Exchange Handler Hook)) =
      entries.map .accepted := effects_map (fun _ => rfl) entries

theorem waits_accepted (entries : List (String × Handler)) :
    waits (entries.map Exchange.accepted : List (Exchange Handler Hook)) = [] :=
  waits_map (fun _ => rfl) entries

theorem Attempt.waits_eq {registry : List (String × Handler)} {xs : List (Exchange Handler Hook)}
    {back : Bool} (h : Attempt registry xs back) : waits xs = [] := by
  cases h with
  | refused reason => rfl
  | @cut front _ entry reason _ =>
      change waits (front.map Exchange.accepted ++ [.subscribed entry (.error reason)]) = []
      rw [waits_append, waits_accepted]
      rfl
  | complete => exact waits_accepted registry

-- There is one wait less than attempts, and each is the one for its number.
theorem waits_course {registry : List (String × Handler)}
    {blocks : List (List (Exchange Handler Hook))}
    (h : ∀ xs ∈ blocks, ∃ back, Attempt registry xs back) (policy : ReconnectPolicy)
    (attempt : Nat) :
    waits (course policy attempt blocks) =
      (List.range (blocks.length - 1)).map fun n => policy.delay (attempt + n) := by
  induction blocks generalizing attempt with
  | nil => rfl
  | cons xs blocks ih =>
      obtain ⟨⟨back, hxs⟩, hblocks⟩ := List.forall_mem_cons.mp h
      cases blocks with
      | nil => exact hxs.waits_eq
      | cons ys rest =>
          have hrest := ih hblocks (attempt + 1)
          calc
            waits (course policy attempt (xs :: ys :: rest)) =
                policy.delay attempt :: waits (course policy (attempt + 1) (ys :: rest)) := by
              rw [course, waits_append, hxs.waits_eq]
              rfl
            _ = (List.range (rest.length + 1)).map fun n => policy.delay (attempt + n) := by
              rw [hrest, List.range_succ_eq_map, List.map_cons, List.map_map]
              simp [Function.comp_def, Nat.add_comm, Nat.add_left_comm]

namespace Attempts

variable {registry : List (String × Handler)} {allowed : Nat}
  {blocks : List (List (Exchange Handler Hook))} {back : Bool}

theorem ne_nil (h : Attempts registry allowed blocks back) (hallowed : 0 < allowed) :
    blocks ≠ [] := by
  obtain ⟨failed, last, rfl, -, hlast⟩ := h.ends
  cases back with
  | true =>
      obtain ⟨xs, rfl, -⟩ := hlast
      exact List.append_ne_nil_of_right_ne_nil failed (List.cons_ne_nil xs [])
  | false =>
      obtain ⟨rfl, hlength⟩ := hlast
      rw [List.append_nil]
      exact List.ne_nil_of_length_pos (by omega)

theorem attempt (h : Attempts registry allowed blocks back) :
    ∀ xs ∈ blocks, ∃ back, Attempt registry xs back := by
  obtain ⟨failed, last, rfl, hfailed, hlast⟩ := h.ends
  intro xs hxs
  obtain hxs | hxs := List.mem_append.mp hxs
  · exact ⟨false, hfailed xs hxs⟩
  · cases back with
    | true =>
        obtain ⟨ys, rfl, hys⟩ := hlast
        rw [List.mem_singleton.mp hxs]
        exact ⟨true, hys⟩
    | false =>
        rw [hlast.1] at hxs
        cases hxs

theorem none (registry : List (String × Handler)) :
    Attempts registry 0 ([] : List (List (Exchange Handler Hook))) false :=
  ⟨Nat.le_refl 0, [], [], rfl, by simp, by simp⟩

theorem first {xs : List (Exchange Handler Hook)} (h : Attempt registry xs true) (allowed : Nat) :
    Attempts registry (allowed + 1) [xs] true :=
  ⟨Nat.le_add_left 1 allowed, [], [xs], rfl, by simp, xs, rfl, h⟩

theorem cons {xs : List (Exchange Handler Hook)} (h : Attempts registry allowed blocks back)
    (hxs : Attempt registry xs false) : Attempts registry (allowed + 1) (xs :: blocks) back := by
  obtain ⟨hle, failed, last, rfl, hfailed, hlast⟩ := h
  refine ⟨Nat.succ_le_succ hle, xs :: failed, last, rfl, List.forall_mem_cons.mpr ⟨hxs, hfailed⟩, ?_⟩
  cases back with
  | true => exact hlast
  | false => exact ⟨hlast.1, congrArg (· + 1) hlast.2⟩

end Attempts

namespace Client

variable {c : Client Handler Hook} {xs : List (Exchange Handler Hook)}

theorem resubscribe_course {entries : List (String × Handler)} {complete : Bool}
    (h : Dialogue.Transcript (resubscribe entries) xs complete) :
    complete = true ∧ xs = entries.map .accepted ∨
      complete = false ∧ ∃ front entry back reason notice, entries = front ++ entry :: back ∧
        xs = front.map .accepted ++ [.subscribed entry (.error reason), ⟨.say notice, ()⟩] := by
  induction entries generalizing xs with
  | nil =>
      obtain ⟨rfl, rfl⟩ := h.of_done
      exact .inl ⟨rfl, rfl⟩
  | cons entry entries ih =>
      obtain ⟨reply, rest, rfl, hrest⟩ := h.of_ask
      cases reply with
      | error reason =>
          obtain ⟨said, rest, rfl, hend⟩ := hrest.of_ask
          obtain ⟨rfl, rfl⟩ := hend.of_done
          exact .inr ⟨rfl, [], entry, entries, reason, _, rfl, rfl⟩
      | ok taken =>
          obtain ⟨rfl, rfl⟩ | ⟨rfl, front, last, back, reason, notice, rfl, rfl⟩ := ih hrest
          · exact .inl ⟨rfl, rfl⟩
          · exact .inr ⟨rfl, entry :: front, last, back, reason, notice, rfl, rfl⟩

-- The gate is shut before the first subscription and opened behind the last.
theorem resubscribeAll_course {complete : Bool}
    (h : Dialogue.Transcript c.resubscribeAll xs complete) :
    ∃ inner, xs = ⟨.gate true, ()⟩ :: (inner ++ [⟨.gate false, ()⟩]) ∧
      Dialogue.Transcript (resubscribe c.registry) inner complete := by
  obtain ⟨shut, rest, rfl, hrest⟩ := h.of_ask
  obtain ⟨inner, done, rest, rfl, hinner, hend⟩ := hrest.of_bind
  obtain ⟨opened, rest, rfl, hdone⟩ := hend.of_ask
  obtain ⟨rfl, rfl⟩ := hdone.of_done
  exact ⟨inner, rfl, hinner⟩

theorem attemptSession_course {attempt : Nat} {back : Bool}
    (h : Dialogue.Transcript (c.attemptSession attempt) xs back) :
    Attempt c.registry (effects xs) back := by
  obtain ⟨reply, rest, rfl, hrest⟩ := h.of_ask
  cases reply with
  | error reason =>
      obtain ⟨said, rest, rfl, hend⟩ := hrest.of_ask
      obtain ⟨rfl, rfl⟩ := hend.of_done
      exact .refused reason
  | ok session =>
      obtain ⟨inner, rfl, hinner⟩ := resubscribeAll_course hrest
      have heffects : effects (⟨.connect, .ok session⟩ ::
          ⟨.gate true, ()⟩ :: (inner ++ [⟨.gate false, ()⟩])) =
            .connected (.ok ()) :: effects inner := by
        have hclosing : effects (inner ++ [⟨.gate false, ()⟩]) = effects inner := by
          rw [effects_append]
          exact List.append_nil _
        exact congrArg (Exchange.connected (.ok ()) :: ·) hclosing
      rw [heffects]
      obtain ⟨rfl, rfl⟩ | ⟨rfl, front, entry, rest, reason, notice, hsplit, rfl⟩ :=
        resubscribe_course hinner
      · rw [effects_accepted]
        exact .complete
      · rw [effects_append, effects_accepted]
        exact .cut reason hsplit

theorem recover_course {attempt remaining : Nat} {back : Bool}
    (h : Dialogue.Transcript (c.recover attempt remaining) xs back) :
    ∃ blocks, effects xs = course c.policy attempt blocks ∧
      Attempts c.registry remaining blocks back := by
  induction remaining generalizing attempt xs with
  | zero =>
      obtain ⟨rfl, rfl⟩ := h.of_done
      exact ⟨[], rfl, .none _⟩
  | succ remaining ih =>
      obtain ⟨front, succeeded, rest, rfl, hfront, hrest⟩ := h.of_bind
      have hattempt := attemptSession_course hfront
      cases succeeded with
      | true =>
          obtain ⟨rfl, rfl⟩ := hrest.of_done
          rw [List.append_nil]
          exact ⟨[effects front], rfl, .first hattempt remaining⟩
      | false =>
          rw [if_neg Bool.false_ne_true] at hrest
          split at hrest
          · rename_i hremaining
            obtain ⟨waited, rest, rfl, hlater⟩ := hrest.of_ask
            obtain ⟨blocks, hblocks, hattempts⟩ := ih hlater
            refine ⟨effects front :: blocks, ?_, hattempts.cons hattempt⟩
            rw [course_cons (hattempts.ne_nil hremaining), ← hblocks, effects_append]
            rfl
          · rename_i hremaining
            obtain ⟨rfl, rfl⟩ := hrest.of_done
            obtain rfl : remaining = 0 := by omega
            rw [List.append_nil]
            exact ⟨[effects front], rfl, (Attempts.none _).cons hattempt⟩

theorem runHooks_course {hooks : List Hook} {done : Unit}
    (h : Dialogue.Transcript (runHooks hooks) xs done) : xs = hooks.map .resumed := by
  induction hooks generalizing xs with
  | nil => exact h.of_done.1
  | cons hook hooks ih =>
      obtain ⟨resumed, rest, rfl, hrest⟩ := h.of_ask
      rw [ih hrest]
      rfl

-- A client that is not recovering yet goes through its attempts, and runs its hooks if the last of
-- them succeeded.
theorem recovering_course {reason : String} {back : Bool} {c' : Client Handler Hook}
    (hstate : ∀ attempt, c.state ≠ .reconnecting attempt)
    (h : Dialogue.Transcript (c.afterDrop reason) xs (back, c')) :
    ∃ blocks, effects xs =
        course c.policy 0 blocks ++ (if back then c.hooks.map .resumed else []) ∧
      Attempts c.registry c.policy.maxRetries blocks back ∧
      c' = { c with state := if back then .connected else .failed } := by
  unfold afterDrop at h
  split at h
  · rename_i attempt hreconnecting
    exact (hstate attempt hreconnecting).elim
  · obtain ⟨said, rest, rfl, hrest⟩ := h.of_query_bind
    obtain ⟨front, recovered, rest, rfl, hfront, hrest⟩ := hrest.of_bind
    obtain ⟨blocks, hblocks, hattempts⟩ := recover_course hfront
    cases recovered with
    | true =>
        obtain ⟨hooks, done, rest, rfl, hhooks, hend⟩ := hrest.of_bind
        obtain ⟨rfl, hresult⟩ := hend.of_done
        cases hresult
        refine ⟨blocks, ?_, hattempts, rfl⟩
        change effects (front ++ (hooks ++ [])) = _
        rw [List.append_nil, effects_append, hblocks, runHooks_course hhooks, effects_map fun _ => rfl]
        rfl
    | false =>
        obtain ⟨said, rest, rfl, hend⟩ := hrest.of_query_bind
        obtain ⟨rfl, hresult⟩ := hend.of_done
        cases hresult
        refine ⟨blocks, ?_, hattempts, rfl⟩
        change effects (front ++ [⟨.say _, ()⟩]) = _
        rw [effects_append, hblocks]
        rfl

theorem afterDrop_course {σ : Type} (c : Client Handler Hook) (reason : String)
    (answer : (q : Query Handler Hook) → σ → Reply q × σ) (s : σ) :
    let xs := (c.afterDrop reason).trace answer s
    let (back, c') := ((c.afterDrop reason).run answer s).1
    match c.state with
    | .reconnecting _ => xs = [] ∧ back = false ∧ c' = c
    | _ => ∃ blocks, effects xs =
        course c.policy 0 blocks ++ (if back then c.hooks.map .resumed else []) ∧
      waits xs = (List.range (blocks.length - 1)).map c.policy.delay ∧
      Attempts c.registry c.policy.maxRetries blocks back ∧
      c' = { c with state := if back then .connected else .failed } := by
  intro xs
  have htranscript := Dialogue.transcript_trace answer (c.afterDrop reason) s
  obtain ⟨back, c', hresult⟩ : ∃ back c', ((c.afterDrop reason).run answer s).1 = (back, c') :=
    ⟨_, _, rfl⟩
  rw [hresult] at htranscript ⊢
  dsimp only
  split
  · rename_i attempt hstate
    have hidle : c.afterDrop reason = .done (false, c) := by simp only [afterDrop, hstate]; rfl
    rw [hidle] at htranscript
    obtain ⟨hxs, hsame⟩ := htranscript.of_done
    obtain ⟨rfl, rfl⟩ := Prod.mk.inj hsame
    refine ⟨?_, rfl, rfl⟩
    change (c'.afterDrop reason).trace answer s = []
    rw [hidle]
    exact hxs
  · rename_i hstate
    obtain ⟨blocks, heffects, hattempts, hclient⟩ := recovering_course hstate htranscript
    refine ⟨blocks, heffects, ?_, hattempts, hclient⟩
    have hhooks : waits (if back then c.hooks.map Exchange.resumed else [] :
        List (Exchange Handler Hook)) = [] := by
      cases back with
      | true => exact waits_map (fun _ => rfl) c.hooks
      | false => rfl
    rw [← waits_effects, heffects, waits_append, waits_course hattempts.attempt, hhooks,
      List.append_nil]
    simp only [Nat.zero_add]

end Client

end RelayGateway.PubSub
