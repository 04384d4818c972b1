import RelayGateway.Proofs.PubSub.Recovery
import RelayGateway.PubSub.Broker
import Mathlib.Data.List.Infix

namespace RelayGateway.PubSub

variable {Handler Hook : Type}

inductive Happening (Handler Hook : Type) where
  | told (x : Exchange Handler Hook)
  | arrived (message : Message)
  -- A handler that was called passes the gate and runs.
  | ran (handler : Handler) (message : Message)

def told (happenings : List (Happening Handler Hook)) : List (Exchange Handler Hook) :=
  happenings.filterMap fun
    | .told x => some x
    | _ => none

structure Inbound (Handler : Type) where
  live : List (String × Handler)
  shut : Bool := false
  waiting : List (Handler × Message) := []

namespace Inbound

-- What an exchange changes.
def tell (s : Inbound Handler) : Exchange Handler Hook → Inbound Handler
  | ⟨.subscribe topic handler, .ok _⟩ => { s with live := Client.register s.live topic handler }
  | ⟨.gate shut, _⟩ => { s with shut }
  | _ => s

def calls (s : Inbound Handler) (message : Message) : List (Handler × Message) :=
  (s.live.filter (·.1 == message.topic)).map fun entry => (entry.2, message)

inductive Step : Inbound Handler → Happening Handler Hook → Inbound Handler → Prop
  | told {s : Inbound Handler} (x : Exchange Handler Hook) : Step s (.told x) (s.tell x)
  | arrived {s : Inbound Handler} (message : Message) :
      Step s (.arrived message) { s with waiting := s.waiting ++ s.calls message }
  | ran {s : Inbound Handler} {handler : Handler} {message : Message}
      {before after : List (Handler × Message)} (hopen : s.shut = false)
      (hwaiting : s.waiting = before ++ (handler, message) :: after) :
      Step s (.ran handler message) { s with waiting := before ++ after }

inductive Course : Inbound Handler → List (Happening Handler Hook) → Inbound Handler → Prop
  | nil {s : Inbound Handler} : Course s [] s
  | cons {s s' s'' : Inbound Handler} {happening : Happening Handler Hook}
      {happenings : List (Happening Handler Hook)} (hstep : Step s happening s')
      (hrest : Course s' happenings s'') : Course s (happening :: happenings) s''

theorem Course.append {s s' s'' : Inbound Handler} {front back : List (Happening Handler Hook)}
    (hfront : Course s front s') (hback : Course s' back s'') : Course s (front ++ back) s'' := by
  induction hfront with
  | nil => exact hback
  | cons hstep _ ih => exact .cons hstep (ih hback)

theorem Course.of_append {s s'' : Inbound Handler} {front back : List (Happening Handler Hook)}
    (h : Course s (front ++ back) s'') : ∃ s', Course s front s' ∧ Course s' back s'' := by
  induction front generalizing s with
  | nil => exact ⟨s, .nil, h⟩
  | cons happening front ih =>
      cases h with
      | cons hstep hrest =>
          obtain ⟨s', hfront, hback⟩ := ih hrest
          exact ⟨s', .cons hstep hfront, hback⟩

-- The exchanges can be told at any moment.
theorem Course.of_told (s : Inbound Handler) (xs : List (Exchange Handler Hook)) :
    Course s (xs.map .told) (xs.foldl tell s) := by
  induction xs generalizing s with
  | nil => exact .nil
  | cons x xs ih => exact .cons (.told x) (ih (s.tell x))

end Inbound

def shutAfter (shut : Bool) (x : Exchange Handler Hook) : Bool :=
  match x.query with
  | .gate shut => shut
  | _ => shut

def Opened (xs : List (Exchange Handler Hook)) : Prop := xs.foldl shutAfter false = false

def Heard (xs : List (Exchange Handler Hook)) : Prop :=
  ∃ entry, Exchange.accepted entry ∈ xs

def replay (entries : List (String × Handler)) : List (Exchange Handler Hook) :=
  ⟨.gate true, ()⟩ :: entries.map .accepted

def Replayed (registry : List (String × Handler)) (xs : List (Exchange Handler Hook)) : Prop :=
  replay registry <:+: xs

def CutShort (xs : List (Exchange Handler Hook)) : Prop :=
  ∃ entry next reason, [.accepted entry, .subscribed next (.error reason)] <:+: xs

-- No handler runs before everything in the registry was replayed.
def Guarded (registry live : List (String × Handler)) (xs : List (Exchange Handler Hook)) : Prop :=
  ∀ happenings s, Inbound.Course { live } happenings s → told happenings = xs →
    ∀ before handler message after, happenings = before ++ .ran handler message :: after →
      Replayed registry (told before)

theorem told_append (front back : List (Happening Handler Hook)) :
    told (front ++ back) = told front ++ told back := List.filterMap_append

theorem told_map (xs : List (Exchange Handler Hook)) : told (xs.map .told) = xs := by
  unfold told
  rw [List.filterMap_map]
  exact List.filterMap_some

namespace Inbound

theorem tell_shut (s : Inbound Handler) (x : Exchange Handler Hook) :
    (s.tell x).shut = shutAfter s.shut x := by
  obtain ⟨query, reply⟩ := x
  cases query with
  | subscribe topic handler => cases reply <;> rfl
  | _ => rfl

theorem foldl_tell_shut (s : Inbound Handler) (xs : List (Exchange Handler Hook)) :
    (xs.foldl tell s).shut = xs.foldl shutAfter s.shut := by
  induction xs generalizing s with
  | nil => rfl
  | cons x xs ih => rw [List.foldl_cons, ih, tell_shut, List.foldl_cons]

theorem Course.shut_eq {s s' : Inbound Handler} {happenings : List (Happening Handler Hook)}
    (h : Course s happenings s') : s'.shut = (told happenings).foldl shutAfter s.shut := by
  induction h with
  | nil => rfl
  | cons hstep _ ih =>
      cases hstep with
      | told x =>
          rw [ih, tell_shut]
          rfl
      | arrived message => exact ih
      | ran hopen hwaiting => exact ih

theorem tell_of_unheard (s : Inbound Handler) {x : Exchange Handler Hook}
    (h : ∀ entry, x ≠ .accepted entry) :
    (s.tell x).live = s.live ∧ (s.tell x).waiting = s.waiting := by
  obtain ⟨query, reply⟩ := x
  cases query with
  | subscribe topic handler =>
      cases reply with
      | ok done => exact (h (topic, handler) rfl).elim
      | error reason => exact ⟨rfl, rfl⟩
  | _ => exact ⟨rfl, rfl⟩

theorem Course.silent {s s' : Inbound Handler} {happenings : List (Happening Handler Hook)}
    (h : Course s happenings s') (hunheard : ¬ Heard (told happenings)) (hlive : s.live = [])
    (hwaiting : s.waiting = []) : s'.live = [] ∧ s'.waiting = [] := by
  induction h with
  | nil => exact ⟨hlive, hwaiting⟩
  | cons hstep _ ih =>
      cases hstep with
      | told x =>
          obtain ⟨hsame, hnone⟩ := tell_of_unheard _ (x := x) fun entry hx =>
            hunheard ⟨entry, hx ▸ List.mem_cons_self⟩
          exact ih (fun ⟨entry, hentry⟩ => hunheard ⟨entry, List.mem_cons_of_mem x hentry⟩)
            (hsame.trans hlive) (hnone.trans hwaiting)
      | arrived message => exact ih hunheard hlive (by simp [calls, hlive, hwaiting])
      | ran hopen hcalled => simp [hwaiting] at hcalled

theorem tell_live_ne_nil {s : Inbound Handler} (h : s.live ≠ []) (x : Exchange Handler Hook) :
    (s.tell x).live ≠ [] := by
  obtain ⟨query, reply⟩ := x
  cases query with
  | subscribe topic handler =>
      cases reply with
      | ok done => exact List.concat_ne_nil _ _
      | error reason => exact h
  | _ => exact h

theorem foldl_tell_live_ne_nil {s : Inbound Handler} {xs : List (Exchange Handler Hook)}
    (h : s.live ≠ [] ∨ Heard xs) : (xs.foldl tell s).live ≠ [] := by
  induction xs generalizing s with
  | nil => exact h.resolve_right fun ⟨entry, hentry⟩ => List.not_mem_nil hentry
  | cons x xs ih =>
      apply ih
      obtain hlive | ⟨entry, hentry⟩ := h
      · exact .inl (tell_live_ne_nil hlive x)
      · obtain rfl | hlater := List.mem_cons.mp hentry
        · exact .inl (List.concat_ne_nil _ _)
        · exact .inr ⟨entry, hlater⟩

-- Something live can be heard at once if the gate is open.
theorem exists_ran {s : Inbound Handler} (hopen : s.shut = false) (hlive : s.live ≠ []) :
    ∃ handler message s', Course s
      [(.arrived message : Happening Handler Hook), .ran handler message] s' := by
  obtain ⟨⟨topic, handler⟩, rest, hentries⟩ := List.exists_cons_of_ne_nil hlive
  let message : Message := ⟨topic, []⟩
  have hcalled : (handler, message) ∈ s.calls message := by
    refine List.mem_map.mpr ⟨(topic, handler), List.mem_filter.mpr ⟨?_, BEq.rfl⟩, rfl⟩
    rw [hentries]
    exact List.mem_cons_self
  obtain ⟨before, after, hsplit⟩ := List.append_of_mem hcalled
  have hwaiting : s.waiting ++ s.calls message =
      (s.waiting ++ before) ++ (handler, message) :: after := by
    rw [hsplit, List.append_assoc]
  exact ⟨handler, message, _, .cons (.arrived message) (.cons (.ran hopen hwaiting) .nil)⟩

end Inbound

theorem opened_append {xs : List (Exchange Handler Hook)} (h : Opened xs)
    (ys : List (Exchange Handler Hook)) : Opened (xs ++ ys) ↔ Opened ys := by
  unfold Opened at *
  rw [List.foldl_append, h]

def Exchange.isPlain (x : Exchange Handler Hook) : Bool :=
  match x.query with
  | .gate _ => false
  | .subscribe _ _ => false
  | _ => true

def refusedReplay (front : List (String × Handler)) (entry : String × Handler) (reason : Error)
    (notice : Notice) : List (Exchange Handler Hook) :=
  replay front ++ [.subscribed entry (.error reason), ⟨.say notice, ()⟩, ⟨.gate false, ()⟩]

-- What a recovery does at the gate: replays that are refused, and behind them perhaps one that is
-- complete.
inductive Replays (registry : List (String × Handler)) : List (Exchange Handler Hook) → Prop
  | nil : Replays registry []
  | plain {x : Exchange Handler Hook} {xs : List (Exchange Handler Hook)} (h : x.isPlain = true)
      (hrest : Replays registry xs) : Replays registry (x :: xs)
  | refused {front back : List (String × Handler)} {entry : String × Handler} (reason : Error)
      (notice : Notice) {xs : List (Exchange Handler Hook)}
      (h : registry = front ++ entry :: back) (hrest : Replays registry xs) :
      Replays registry (refusedReplay front entry reason notice ++ xs)
  | complete {xs : List (Exchange Handler Hook)} (h : ∀ x ∈ xs, x.isPlain = true) :
      Replays registry (replay registry ++ ⟨.gate false, ()⟩ :: xs)

namespace Replays

variable {registry : List (String × Handler)} {xs : List (Exchange Handler Hook)}

theorem of_plain (h : ∀ x ∈ xs, x.isPlain = true) : Replays registry xs := by
  induction xs with
  | nil => exact .nil
  | cons x xs ih =>
      obtain ⟨hx, hxs⟩ := List.forall_mem_cons.mp h
      exact .plain hx (ih hxs)

end Replays

theorem shutAfter_of_plain {x : Exchange Handler Hook} (h : x.isPlain = true) (shut : Bool) :
    shutAfter shut x = shut := by
  obtain ⟨query, reply⟩ := x
  cases query with
  | gate shut => cases h
  | _ => rfl

theorem Exchange.isPlain_ne {x : Exchange Handler Hook} (h : x.isPlain = true) :
    x ≠ ⟨.gate true, ()⟩ ∧ ∀ entry, x ≠ .accepted entry := by
  constructor
  · rintro rfl
    cases h
  · rintro entry rfl
    cases h

theorem Exchange.refused_ne_accepted (entry : String × Handler) (reason : Error)
    (other : String × Handler) :
    (.subscribed entry (.error reason) : Exchange Handler Hook) ≠ .accepted other := by
  obtain ⟨topic, handler⟩ := entry
  obtain ⟨topic', handler'⟩ := other
  rintro ⟨⟩

theorem opened_refusedReplay (front : List (String × Handler)) (entry : String × Handler)
    (reason : Error) (notice : Notice) :
    Opened (refusedReplay front entry reason notice : List (Exchange Handler Hook)) := by
  unfold Opened refusedReplay
  rw [List.foldl_append]
  rfl

theorem prefix_of_opened {inner rest p : List (Exchange Handler Hook)}
    (hinner : ∀ x ∈ inner, shutAfter true x = true)
    (hp : p <+: inner ++ ⟨.gate false, ()⟩ :: rest) (hopen : p.foldl shutAfter true = false) :
    ∃ p', p = inner ++ ⟨.gate false, ()⟩ :: p' ∧ p' <+: rest := by
  induction inner generalizing p with
  | nil =>
      obtain rfl | ⟨p', rfl, hp'⟩ := List.prefix_cons_iff.mp hp
      · cases hopen
      · exact ⟨p', rfl, hp'⟩
  | cons x inner ih =>
      obtain ⟨hx, hrest⟩ := List.forall_mem_cons.mp hinner
      obtain rfl | ⟨p', rfl, hp'⟩ := List.prefix_cons_iff.mp hp
      · cases hopen
      · rw [List.foldl_cons, hx] at hopen
        obtain ⟨p'', rfl, hp''⟩ := ih hrest hp' hopen
        exact ⟨p'', rfl, hp''⟩

theorem prefix_of_replay {inner rest p : List (Exchange Handler Hook)}
    (hinner : ∀ x ∈ inner, shutAfter true x = true)
    (hp : p <+: ⟨.gate true, ()⟩ :: (inner ++ ⟨.gate false, ()⟩ :: rest)) (hopen : Opened p) :
    p = [] ∨ ∃ p', p = ⟨.gate true, ()⟩ :: (inner ++ ⟨.gate false, ()⟩ :: p') ∧ p' <+: rest := by
  refine (List.prefix_cons_iff.mp hp).imp_right ?_
  rintro ⟨later, rfl, hlater⟩
  obtain ⟨p', rfl, hp'⟩ := prefix_of_opened hinner hlater hopen
  exact ⟨p', rfl, hp'⟩

theorem shutAfter_accepted (entries : List (String × Handler)) :
    ∀ x ∈ (entries.map Exchange.accepted : List (Exchange Handler Hook)), shutAfter true x = true := by
  intro x hx
  obtain ⟨entry, -, rfl⟩ := List.mem_map.mp hx
  rfl

theorem CutShort.mono {xs ys : List (Exchange Handler Hook)} (h : CutShort xs)
    (hxs : xs <:+: ys) : CutShort ys := by
  obtain ⟨entry, next, reason, hpair⟩ := h
  exact ⟨entry, next, reason, hpair.trans hxs⟩

theorem CutShort.of_cons {x : Exchange Handler Hook} {xs : List (Exchange Handler Hook)}
    (hx : ∀ entry, x ≠ .accepted entry) (h : CutShort (x :: xs)) : CutShort xs := by
  obtain ⟨entry, next, reason, hpair⟩ := h
  obtain hhead | hlater := List.infix_cons_iff.mp hpair
  · exact (hx entry (List.cons_prefix_cons.mp hhead).1.symm).elim
  · exact ⟨entry, next, reason, hlater⟩

theorem CutShort.of_append {front xs : List (Exchange Handler Hook)}
    (hfront : ∀ x ∈ front, ∀ entry, x ≠ .accepted entry) (h : CutShort (front ++ xs)) :
    CutShort xs := by
  induction front with
  | nil => exact h
  | cons x front ih =>
      obtain ⟨hx, hrest⟩ := List.forall_mem_cons.mp hfront
      exact ih hrest (CutShort.of_cons hx h)

theorem Heard.of_append {front xs : List (Exchange Handler Hook)}
    (hfront : ∀ x ∈ front, ∀ entry, x ≠ .accepted entry) (h : Heard (front ++ xs)) : Heard xs := by
  obtain ⟨entry, hentry⟩ := h
  obtain hmem | hmem := List.mem_append.mp hentry
  · exact (hfront _ hmem entry rfl).elim
  · exact ⟨entry, hmem⟩

theorem Replayed.of_cons {registry : List (String × Handler)} {x : Exchange Handler Hook}
    {xs : List (Exchange Handler Hook)} (hx : x ≠ ⟨.gate true, ()⟩)
    (h : Replayed registry (x :: xs)) : Replayed registry xs := by
  obtain hhead | hlater := List.infix_cons_iff.mp h
  · exact (hx (List.cons_prefix_cons.mp hhead).1.symm).elim
  · exact hlater

theorem Replayed.of_accepted {registry entries : List (String × Handler)}
    {xs : List (Exchange Handler Hook)} (h : Replayed registry (entries.map .accepted ++ xs)) :
    Replayed registry xs := by
  induction entries with
  | nil => exact h
  | cons entry entries ih => exact ih (h.of_cons (by rintro ⟨⟩))

-- A replay that is refused counts for nothing.
theorem Replayed.of_refusedReplay {registry front back : List (String × Handler)}
    {entry : String × Handler} {reason : Error} {notice : Notice}
    {xs : List (Exchange Handler Hook)} (hregistry : registry = front ++ entry :: back)
    (h : Replayed registry (refusedReplay front entry reason notice ++ xs)) :
    Replayed registry xs := by
  unfold refusedReplay replay at h
  rw [List.append_assoc, List.cons_append] at h
  obtain hhead | hlater := List.infix_cons_iff.mp h
  · obtain ⟨-, hentries⟩ := List.cons_prefix_cons.mp hhead
    rw [hregistry, List.map_append, List.prefix_append_right_inj] at hentries
    have hentry := (List.cons_prefix_cons.mp hentries).1
    cases hentry
  · have hrefused : Replayed registry _ := Replayed.of_accepted hlater
    exact ((hrefused.of_cons (by rintro ⟨⟩)).of_cons (by rintro ⟨⟩)).of_cons (by rintro ⟨⟩)

theorem not_replayed_nil (registry : List (String × Handler)) :
    ¬ Replayed registry ([] : List (Exchange Handler Hook)) := by
  intro h
  cases List.infix_nil.mp h

theorem not_heard_nil : ¬ Heard ([] : List (Exchange Handler Hook)) := by
  rintro ⟨entry, hentry⟩
  cases hentry

theorem prefix_refusedReplay {front : List (String × Handler)} {entry : String × Handler}
    {reason : Error} {notice : Notice} {rest p : List (Exchange Handler Hook)}
    (hp : p <+: refusedReplay front entry reason notice ++ rest) (hopen : Opened p) :
    p = [] ∨ ∃ p', p = refusedReplay front entry reason notice ++ p' ∧ p' <+: rest := by
  let inner : List (Exchange Handler Hook) :=
    front.map .accepted ++ [.subscribed entry (.error reason), ⟨.say notice, ()⟩]
  have hshape (ys : List (Exchange Handler Hook)) :
      refusedReplay front entry reason notice ++ ys =
        ⟨.gate true, ()⟩ :: (inner ++ ⟨.gate false, ()⟩ :: ys) := by
    simp [refusedReplay, replay, inner]
  have hinner : ∀ x ∈ inner, shutAfter true x = true :=
    List.forall_mem_append.mpr ⟨shutAfter_accepted front, by simp [shutAfter, Exchange.subscribed]⟩
  simp only [hshape] at hp ⊢
  exact prefix_of_replay hinner hp hopen

theorem cutShort_refusedReplay (others : List (String × Handler)) (last entry : String × Handler)
    (reason : Error) (notice : Notice) :
    CutShort (refusedReplay (others ++ [last]) entry reason notice : List (Exchange Handler Hook)) := by
  refine ⟨last, entry, reason, replay others, [⟨.say notice, ()⟩, ⟨.gate false, ()⟩], ?_⟩
  simp [refusedReplay, replay]

theorem refusedReplay_nil_unheard (entry : String × Handler) (reason : Error) (notice : Notice) :
    ∀ x ∈ (refusedReplay [] entry reason notice : List (Exchange Handler Hook)),
      ∀ heard, x ≠ .accepted heard := by
  have hothers (query : Query Handler Hook) (reply : Reply query)
      (hquery : ∀ topic handler, query ≠ .subscribe topic handler) :
      ∀ heard, (⟨query, reply⟩ : Exchange Handler Hook) ≠ Exchange.accepted heard := by
    rintro heard ⟨⟩
    exact hquery _ _ rfl
  simp only [refusedReplay, replay, List.map_nil, List.cons_append, List.nil_append,
    List.forall_mem_cons]
  exact ⟨hothers _ _ (by simp), Exchange.refused_ne_accepted entry reason, hothers _ _ (by simp),
    hothers _ _ (by simp), by simp⟩

namespace Replays

variable {registry : List (String × Handler)} {xs : List (Exchange Handler Hook)}

-- Where the gate is open and an entry was subscribed, either all of them were, or the next was refused.
theorem replayed_or_cutShort (h : Replays registry xs) {p : List (Exchange Handler Hook)}
    (hp : p <+: xs) (hopen : Opened p) (hheard : Heard p) :
    Replayed registry p ∨ CutShort p := by
  induction h generalizing p with
  | nil =>
      obtain rfl := List.prefix_nil.mp hp
      exact (not_heard_nil hheard).elim
  | @plain x xs hplain hrest ih =>
      obtain rfl | ⟨p', rfl, hp'⟩ := List.prefix_cons_iff.mp hp
      · exact (not_heard_nil hheard).elim
      · have hlater : Opened p' := by
          unfold Opened at hopen
          rwa [List.foldl_cons, shutAfter_of_plain hplain] at hopen
        have hunheard : ∀ y ∈ [x], ∀ entry, y ≠ .accepted entry := by
          simpa using (Exchange.isPlain_ne hplain).2
        have hsuffix : p' <:+: x :: p' := (List.suffix_cons x p').isInfix
        exact (ih hp' hlater (Heard.of_append hunheard hheard)).imp
          (fun hreplayed => hreplayed.trans hsuffix) (fun hcut => hcut.mono hsuffix)
  | @refused front back entry reason notice xs hregistry hrest ih =>
      obtain rfl | ⟨p', rfl, hp'⟩ := prefix_refusedReplay hp hopen
      · exact (not_heard_nil hheard).elim
      · have hsuffix : p' <:+: refusedReplay front entry reason notice ++ p' :=
          (List.suffix_append ..).isInfix
        obtain rfl | ⟨others, last, rfl⟩ := front.eq_nil_or_concat
        · have hlater : Heard p' := hheard.of_append (refusedReplay_nil_unheard entry reason notice)
          exact (ih hp' ((opened_append (opened_refusedReplay ..) p').mp hopen) hlater).imp
            (fun hreplayed => hreplayed.trans hsuffix) (fun hcut => hcut.mono hsuffix)
        · exact .inr ((cutShort_refusedReplay others last entry reason notice).mono
            (by rw [List.concat_eq_append]; exact (List.prefix_append ..).isInfix))
  | @complete xs hplain =>
      obtain rfl | ⟨p', rfl, hp'⟩ := prefix_of_replay (shutAfter_accepted registry) hp hopen
      · exact (not_heard_nil hheard).elim
      · exact .inl (List.prefix_append ..).isInfix

-- Where a replay is refused behind its first entry, the gate opens with only some entries subscribed.
theorem exists_of_cutShort (h : Replays registry xs) (hcut : CutShort xs) :
    ∃ p q, xs = p ++ q ∧ Opened p ∧ Heard p ∧ ¬ Replayed registry p := by
  induction h with
  | nil =>
      obtain ⟨entry, next, reason, hpair⟩ := hcut
      cases List.infix_nil.mp hpair
  | @plain x xs hplain hrest ih =>
      obtain ⟨hgate, hentry⟩ := Exchange.isPlain_ne hplain
      obtain ⟨p, q, rfl, hopen, ⟨entry, hheard⟩, hnot⟩ := ih (hcut.of_cons hentry)
      refine ⟨x :: p, q, rfl, ?_, ⟨entry, List.mem_cons_of_mem x hheard⟩, ?_⟩
      · unfold Opened
        rwa [List.foldl_cons, shutAfter_of_plain hplain]
      · exact fun hreplayed => hnot (hreplayed.of_cons hgate)
  | @refused front back entry reason notice xs hregistry hrest ih =>
      let block : List (Exchange Handler Hook) := refusedReplay front entry reason notice
      have hblock : Opened block := opened_refusedReplay ..
      cases front with
      | nil =>
          have hlater : CutShort xs := hcut.of_append (refusedReplay_nil_unheard entry reason notice)
          obtain ⟨p, q, rfl, hopen, ⟨heard, hheard⟩, hnot⟩ := ih hlater
          exact ⟨block ++ p, q, (List.append_assoc ..).symm, (opened_append hblock p).mpr hopen,
            ⟨heard, List.mem_append_right _ hheard⟩,
            fun hreplayed => hnot (hreplayed.of_refusedReplay hregistry)⟩
      | cons first others =>
          refine ⟨block, xs, rfl, hblock, ⟨first, ?_⟩, fun hreplayed => ?_⟩
          · simp [block, refusedReplay, replay]
          · rw [← List.append_nil block] at hreplayed
            exact not_replayed_nil registry (hreplayed.of_refusedReplay hregistry)
  | @complete xs hplain =>
      obtain ⟨entry, next, reason, hpair⟩ := hcut
      have hmem : Exchange.subscribed next (.error reason) ∈
          replay registry ++ ⟨.gate false, ()⟩ :: xs := hpair.subset (by simp)
      obtain hreplay | hrest := List.mem_append.mp hmem
      · obtain ⟨accepted, -, hsame⟩ := List.mem_map.mp (List.mem_of_ne_of_mem (by rintro ⟨⟩) hreplay)
        exact (Exchange.refused_ne_accepted next reason accepted hsame.symm).elim
      · have hplain := hplain _ (List.mem_of_ne_of_mem (by rintro ⟨⟩) hrest)
        cases hplain

end Replays

namespace Client

variable {c : Client Handler Hook} {xs rest : List (Exchange Handler Hook)}

theorem attemptSession_replays {attempt : Nat} {back : Bool}
    (h : Dialogue.Transcript (c.attemptSession attempt) xs back)
    (hrest : if back then ∀ x ∈ rest, x.isPlain = true else Replays c.registry rest) :
    Replays c.registry (xs ++ rest) := by
  obtain ⟨reply, later, rfl, hlater⟩ := h.of_ask
  cases reply with
  | error reason =>
      obtain ⟨said, later, rfl, hend⟩ := hlater.of_ask
      obtain ⟨rfl, rfl⟩ := hend.of_done
      exact .plain rfl (.plain rfl hrest)
  | ok session =>
      obtain ⟨inner, rfl, hinner⟩ := resubscribeAll_course hlater
      refine .plain rfl ?_
      obtain ⟨rfl, rfl⟩ | ⟨rfl, front, entry, others, reason, notice, hregistry, rfl⟩ :=
        resubscribe_course hinner
      · rw [List.append_eq, List.cons_append, List.append_assoc]
        exact .complete hrest
      · have hshape : (⟨.gate true, ()⟩ : Exchange Handler Hook) ::
            (front.map Exchange.accepted ++
              [.subscribed entry (.error reason), ⟨.say notice, ()⟩] ++ [⟨.gate false, ()⟩]) =
            refusedReplay front entry reason notice := by
          simp [refusedReplay, replay]
        rw [List.append_eq, hshape]
        exact .refused reason notice hregistry hrest

theorem recover_replays {attempt remaining : Nat} {back : Bool}
    (h : Dialogue.Transcript (c.recover attempt remaining) xs back)
    (hrest : ∀ x ∈ rest, x.isPlain = true) : Replays c.registry (xs ++ rest) := by
  induction remaining generalizing attempt xs with
  | zero =>
      obtain ⟨rfl, rfl⟩ := h.of_done
      exact .of_plain hrest
  | succ remaining ih =>
      obtain ⟨front, succeeded, later, rfl, hfront, hlater⟩ := h.of_bind
      cases succeeded with
      | true =>
          obtain ⟨rfl, rfl⟩ := hlater.of_done
          rw [List.append_nil]
          exact attemptSession_replays hfront hrest
      | false =>
          rw [if_neg Bool.false_ne_true] at hlater
          rw [List.append_assoc]
          apply attemptSession_replays hfront
          split at hlater
          · obtain ⟨waited, later, rfl, hnext⟩ := hlater.of_ask
            exact .plain rfl (ih hnext)
          · obtain ⟨rfl, rfl⟩ := hlater.of_done
            exact .of_plain hrest

theorem attemptSession_replayed {attempt : Nat}
    (h : Dialogue.Transcript (c.attemptSession attempt) xs true) : Replayed c.registry xs := by
  obtain ⟨reply, later, rfl, hlater⟩ := h.of_ask
  cases reply with
  | error reason =>
      obtain ⟨said, later, rfl, hend⟩ := hlater.of_ask
      cases hend.of_done.2
  | ok session =>
      obtain ⟨inner, rfl, hinner⟩ := resubscribeAll_course hlater
      obtain ⟨-, rfl⟩ | ⟨hfailed, -⟩ := resubscribe_course hinner
      · exact ⟨[⟨.connect, .ok session⟩], [⟨.gate false, ()⟩], rfl⟩
      · cases hfailed

theorem recover_replayed {attempt remaining : Nat}
    (h : Dialogue.Transcript (c.recover attempt remaining) xs true) : Replayed c.registry xs := by
  induction remaining generalizing attempt xs with
  | zero => cases h.of_done.2
  | succ remaining ih =>
      obtain ⟨front, succeeded, later, rfl, hfront, hlater⟩ := h.of_bind
      cases succeeded with
      | true => exact (attemptSession_replayed hfront).trans (List.prefix_append ..).isInfix
      | false =>
          rw [if_neg Bool.false_ne_true] at hlater
          split at hlater
          · obtain ⟨waited, later, rfl, hnext⟩ := hlater.of_ask
            have hsuffix : later <:+: front ++ ⟨_, waited⟩ :: later :=
              ((List.suffix_cons _ later).trans (List.suffix_append front _)).isInfix
            exact (ih hnext).trans hsuffix
          · cases hlater.of_done.2

theorem afterDrop_replayed {reason : String} {c' : Client Handler Hook}
    (h : Dialogue.Transcript (c.afterDrop reason) xs (true, c')) : Replayed c.registry xs := by
  unfold afterDrop at h
  split at h
  · cases (Prod.mk.inj h.of_done.2).1
  · obtain ⟨said, later, rfl, hlater⟩ := h.of_query_bind
    obtain ⟨front, recovered, later, rfl, hfront, hlater⟩ := hlater.of_bind
    cases recovered with
    | true =>
        have hinside : front <:+: ⟨.say _, said⟩ :: (front ++ later) :=
          ((List.prefix_append front later).isInfix).trans (List.suffix_cons _ _).isInfix
        exact (recover_replayed hfront).trans hinside
    | false =>
        obtain ⟨said, later, rfl, hend⟩ := hlater.of_query_bind
        cases (Prod.mk.inj hend.of_done.2).1

theorem afterDrop_replays {reason : String} {result : Bool × Client Handler Hook}
    (h : Dialogue.Transcript (c.afterDrop reason) xs result) : Replays c.registry xs := by
  unfold afterDrop at h
  split at h
  · obtain ⟨rfl, -⟩ := h.of_done
    exact .nil
  · obtain ⟨said, later, rfl, hlater⟩ := h.of_query_bind
    refine .plain rfl ?_
    obtain ⟨front, recovered, later, rfl, hfront, hlater⟩ := hlater.of_bind
    apply recover_replays hfront
    cases recovered with
    | true =>
        obtain ⟨hooks, done, later, rfl, hhooks, hend⟩ := hlater.of_bind
        obtain ⟨rfl, -⟩ := hend.of_done
        rw [List.append_nil, runHooks_course hhooks]
        intro x hx
        obtain ⟨hook, -, rfl⟩ := List.mem_map.mp hx
        rfl
    | false =>
        obtain ⟨said, later, rfl, hend⟩ := hlater.of_query_bind
        obtain ⟨rfl, -⟩ := hend.of_done
        simp [Exchange.isPlain]

end Client

theorem not_guarded_of_opened {registry live : List (String × Handler)}
    {p q : List (Exchange Handler Hook)} (hopen : Opened p) (hlive : live ≠ [] ∨ Heard p)
    (hnot : ¬ Replayed registry p) : ¬ Guarded registry live (p ++ q) := by
  intro hguarded
  let s : Inbound Handler := p.foldl Inbound.tell { live }
  have hshut : s.shut = false := (Inbound.foldl_tell_shut { live } p).trans hopen
  have hsome : s.live ≠ [] := Inbound.foldl_tell_live_ne_nil hlive
  obtain ⟨handler, message, s', hran⟩ : ∃ handler message s', Inbound.Course s
      [(.arrived message : Happening Handler Hook), .ran handler message] s' :=
    Inbound.exists_ran hshut hsome
  have hcourse := (Inbound.Course.of_told { live } p).append (hran.append (.of_told s' q))
  have htold : told (p.map .told ++ ([.arrived message, .ran handler message] ++ q.map .told)) =
      p ++ q := by
    rw [told_append, told_append, told_map, told_map]
    rfl
  have hbefore : told (p.map .told ++ [(.arrived message : Happening Handler Hook)]) = p := by
    rw [told_append, told_map]
    exact List.append_nil p
  refine hnot (hbefore ▸ hguarded _ _ hcourse htold (p.map .told ++ [.arrived message]) handler
    message (q.map .told) ?_)
  simp

theorem Replays.guarded_iff {registry live : List (String × Handler)}
    {xs : List (Exchange Handler Hook)} (h : Replays registry xs) :
    Guarded registry live xs ↔ live = [] ∧ ¬ CutShort xs := by
  constructor
  · intro hguarded
    refine ⟨?_, fun hcut => ?_⟩
    · by_contra hlive
      exact not_guarded_of_opened (p := []) rfl (.inl hlive) (not_replayed_nil registry) hguarded
    · obtain ⟨p, q, rfl, hopen, hheard, hnot⟩ := h.exists_of_cutShort hcut
      exact not_guarded_of_opened hopen (.inr hheard) hnot hguarded
  · rintro ⟨rfl, hcut⟩ happenings s' hcourse rfl before handler message after rfl
    obtain ⟨s, hbefore, hran⟩ := hcourse.of_append
    cases hran with
    | cons hstep _ =>
        cases hstep with
        | ran hshut hwaiting =>
            have hopen : Opened (told before) := hbefore.shut_eq.symm.trans hshut
            have hheard : Heard (told before) := by
              by_contra hunheard
              obtain ⟨-, hnone⟩ := hbefore.silent hunheard rfl rfl
              simp [hnone] at hwaiting
            have hbegins : told before <+: told (before ++ .ran handler message :: after) := by
              rw [told_append]
              exact List.prefix_append ..
            exact (h.replayed_or_cutShort hbegins hopen hheard).resolve_right fun hearly =>
              hcut (hearly.mono hbegins.isInfix)

namespace Client

theorem afterDrop_guarded_iff {σ : Type} (c : Client Handler Hook) (reason : String)
    (answer : (q : Query Handler Hook) → σ → Reply q × σ) (s : σ) (live : List (String × Handler)) :
    let xs := (c.afterDrop reason).trace answer s
    let back := ((c.afterDrop reason).run answer s).1.1
    (back = true → Replayed c.registry xs) ∧
      (Guarded c.registry live xs ↔ live = [] ∧ ¬ CutShort xs) := by
  intro xs back
  have htranscript := Dialogue.transcript_trace answer (c.afterDrop reason) s
  refine ⟨fun hback => ?_, (afterDrop_replays htranscript).guarded_iff⟩
  have hresult : ((c.afterDrop reason).run answer s).1 =
      (true, ((c.afterDrop reason).run answer s).1.2) := Prod.ext hback rfl
  rw [hresult] at htranscript
  exact afterDrop_replayed htranscript

def halfway : List (Exchange Unit Unit) :=
  let c : Client Unit Unit :=
    { policy := ⟨.ofSeconds 1, 1⟩, state := .connected, registry := [("a", ()), ("b", ())] }
  let quiet : Reactions Unit Unit Unit :=
    { wait := fun _ _ s => s, resume := fun _ place => place, say := fun _ s => s }
  (c.afterDrop "gone").trace quiet.answer ({ refuseSubscribe := ["b"] }, ())

theorem halfway_not_guarded : ¬ Guarded [("a", ()), ("b", ())] [] halfway := by
  let front : List (Exchange Unit Unit) := halfway.take 7
  have hopen : Opened front := rfl
  have hheard : Heard front :=
    ⟨("a", ()), .tail _ (.tail _ (.tail _ (.head _)))⟩
  have hnot : ¬ Replayed [("a", ()), ("b", ())] front := by
    intro hreplayed
    have hreplay := (hreplayed.of_cons (by rintro ⟨⟩)).of_cons (by rintro ⟨⟩)
    have hregistry : [("a", ()), ("b", ())] = [("a", ())] ++ ("b", ()) :: [] := rfl
    exact not_replayed_nil _ (hreplay.of_refusedReplay hregistry)
  exact not_guarded_of_opened (q := halfway.drop 7) hopen (.inr hheard) hnot

end Client

end RelayGateway.PubSub
