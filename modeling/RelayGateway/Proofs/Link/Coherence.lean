import RelayGateway.Proofs.Link.Reading
import RelayGateway.Proofs.Link.Writing
import Mathlib.Data.List.Induction

namespace RelayGateway.Link

inductive Operation where
  | connect
  | close
  | reconnect
  | readFrame
  | readWithin (policy : RetryPolicy)
  | writeFrame (payload : List UInt8)

structure Wire.Connects (w : Wire) (settings : Settings) : Prop where
  listed : w.listFailure = none
  present : settings.port ∈ w.ports
  opened : w.openFailure = none
  cleared : planned w.clearPlan = .ok ()
  flushed : planned w.flushPlan = .ok ()

namespace Wire

theorem openStream_of_failure {w : Wire} {reason : String} (h : w.openFailure = some reason)
    (settings : Settings) :
    w.openStream settings = (.error reason, w.record (.openStream settings)) := by
  have hrecord : (w.record (.openStream settings)).openFailure = some reason := h
  simp only [openStream, hrecord]

theorem openStream_of_none {w : Wire} (h : w.openFailure = none) (settings : Settings) :
    w.openStream settings = (.ok (), w.record (.openStream settings)) := by
  have hrecord : (w.record (.openStream settings)).openFailure = none := h
  simp only [openStream, hrecord]

end Wire

namespace Transport

def Coherent (t : Transport) : Prop :=
  t.isOpen = true ∧ t.state = .connected ∧ t.hasUptime = true ∨
    t.isOpen = false ∧ t.state = .disconnected ∧ t.hasUptime = false

-- The stream is open and the state tells that it is not.
def Stranded (t : Transport) : Prop :=
  t.isOpen = true ∧ t.state = .disconnected ∧ t.hasUptime = true

-- What every operation keeps: the uptime goes with the stream, and no state of passage is left.
def Sound (t : Transport) : Prop := t.Coherent ∨ t.Stranded

theorem Coherent.not_stranded {t : Transport} (h : t.Coherent) : ¬ t.Stranded := by
  intro hstranded
  obtain ⟨hopen, hstate, -⟩ := hstranded
  obtain ⟨-, hconnected, -⟩ | ⟨hclosed, -, -⟩ := h
  · rw [hstate] at hconnected
    cases hconnected
  · rw [hopen] at hclosed
    cases hclosed

theorem Sound.hasUptime {t : Transport} (h : t.Sound) : t.hasUptime = t.isOpen := by
  obtain (⟨hopen, -, huptime⟩ | ⟨hopen, -, huptime⟩) | ⟨hopen, -, huptime⟩ := h <;>
    rw [hopen, huptime]

theorem Sound.coherent_of_closed {t : Transport} (h : t.Sound) (hclosed : t.isOpen = false) :
    t.Coherent := by
  apply h.resolve_right
  intro hstranded
  rw [hstranded.1] at hclosed
  cases hclosed

theorem Sound.coherent_of_use {t : Transport} (h : t.Sound) (hopen : t.isOpen = true)
    (decoder : Frame.Decoder) : Coherent { t with decoder, state := .connected } :=
  .inl ⟨hopen, rfl, h.hasUptime.trans hopen⟩

structure Leaves (t t' : Transport) (strands : Prop) : Prop where
  settings : t'.settings = t.settings
  sound : t'.Sound
  stranded_iff : t'.Stranded ↔ strands

theorem Leaves.of_coherent {t t' : Transport} {strands : Prop}
    (hsettings : t'.settings = t.settings) (h : t'.Coherent) (hstrands : ¬ strands) :
    Leaves t t' strands where
  settings := hsettings
  sound := .inl h
  stranded_iff := iff_of_false h.not_stranded hstrands

theorem Leaves.of_stranded {t t' : Transport} {strands : Prop}
    (hsettings : t'.settings = t.settings) (h : t'.Stranded) (hstrands : strands) :
    Leaves t t' strands where
  settings := hsettings
  sound := .inr h
  stranded_iff := iff_of_true h hstrands

end Transport

namespace Station

def perform (s : Station) : Operation → Station
  | .connect => s.connect.2
  | .close => s.close
  | .reconnect => s.reconnect.2
  | .readFrame => s.readFrame.2
  | .readWithin policy => (s.readWithin policy).2
  | .writeFrame payload => (s.writeFrame payload).2

def start (settings : Settings) (retry : RetryPolicy) (reconnectDelay : Duration) (wire : Wire) :
    Station where
  transport := { settings, retry, reconnectDelay }
  wire

def performAll (s : Station) (requests : List (Wire × Operation)) : Station :=
  requests.foldl (fun s request => { s with wire := request.1 }.perform request.2) s

theorem performAll_concat (s : Station) (requests : List (Wire × Operation)) (wire : Wire)
    (operation : Operation) :
    s.performAll (requests ++ [(wire, operation)]) =
      { s.performAll requests with wire }.perform operation := by
  simp only [performAll, List.foldl_append, List.foldl_cons, List.foldl_nil]

theorem settleWire_ok_iff (w : Wire) :
    (settleWire w).1 = .ok () ↔
      Wire.planned w.clearPlan = .ok () ∧ Wire.planned w.flushPlan = .ok () := by
  simp only [settleWire, Wire.clear]
  cases hclear : Wire.planned w.clearPlan with
  | error reason => simp
  | ok done =>
      simp only [Wire.flush, true_and]
      split <;> rfl

-- A connect takes a new stream into use, or it gives up and what was open stays in place.
theorem connect_spec (s : Station) :
    (s.connect.1 = .ok () ∧ s.wire.Connects s.transport.settings ∧
        s.connect.2.transport = s.install.transport) ∨
      ((∃ e, s.connect.1 = .error e) ∧ ¬ s.wire.Connects s.transport.settings ∧
        s.connect.2.transport = { s.transport with state := .disconnected }) := by
  unfold connect
  simp only [enter, Wire.listPorts]
  cases hlist : s.wire.listFailure with
  | some reason => exact .inr ⟨⟨_, rfl⟩, fun h => by simp [h.listed] at hlist, rfl⟩
  | none =>
      by_cases hport : s.transport.settings.port ∈ s.wire.ports
      · simp only [List.contains_eq_mem, hport, decide_true, if_true]
        cases hopen : s.wire.openFailure with
        | some reason =>
            rw [Wire.openStream_of_failure hopen]
            exact .inr ⟨⟨_, rfl⟩, fun h => by simp [h.opened] at hopen, rfl⟩
        | none =>
            have hsettle := settleWire_ok_iff (s.wire.record (.openStream s.transport.settings))
            rw [Wire.openStream_of_none hopen]
            simp only
            generalize settleWire (s.wire.record _) = settled at hsettle ⊢
            rcases settled with ⟨reason | done, wire⟩
            · refine .inr ⟨⟨_, rfl⟩, fun h => ?_, rfl⟩
              cases hsettle.mpr ⟨h.cleared, h.flushed⟩
            · obtain ⟨hclear, hflush⟩ := hsettle.mp rfl
              exact .inl ⟨rfl, ⟨hlist, hport, hopen, hclear, hflush⟩, rfl⟩
      · simp only [List.contains_eq_mem, hport, decide_false]
        exact .inr ⟨⟨_, rfl⟩, fun h => hport h.present, rfl⟩

theorem connect_ok_iff (s : Station) :
    s.connect.1 = .ok () ↔ s.wire.Connects s.transport.settings := by
  obtain ⟨hok, hconnects, -⟩ | ⟨⟨e, herror⟩, hnot, -⟩ := s.connect_spec
  · simp [hok, hconnects]
  · simp [herror, hnot]

theorem close_coherent (s : Station) : s.close.transport.Coherent := .inr ⟨rfl, rfl, rfl⟩

theorem connect_leaves {s : Station} (h : s.transport.Sound) :
    s.transport.Leaves s.connect.2.transport
      (s.transport.isOpen = true ∧ ¬ s.wire.Connects s.transport.settings) := by
  obtain ⟨-, hconnects, htransport⟩ | ⟨-, hnot, htransport⟩ := s.connect_spec <;> rw [htransport]
  · refine .of_coherent rfl (.inl ⟨rfl, rfl, rfl⟩) ?_
    intro hrefused
    exact hrefused.2 hconnects
  · obtain (⟨hopen, -, huptime⟩ | ⟨hclosed, -, huptime⟩) | ⟨hopen, -, huptime⟩ := h
    · exact .of_stranded rfl ⟨hopen, rfl, huptime⟩ ⟨hopen, hnot⟩
    · exact .of_coherent rfl (.inr ⟨hclosed, rfl, huptime⟩) (by simp [hclosed])
    · exact .of_stranded rfl ⟨hopen, rfl, huptime⟩ ⟨hopen, hnot⟩

theorem reconnect_transport (s : Station) :
    s.reconnect.2.transport = (s.close.sleep s.transport.reconnectDelay).connect.2.transport := by
  unfold reconnect
  rcases (s.close.sleep s.transport.reconnectDelay).connect with ⟨e | done, t⟩ <;> rfl

theorem reconnect_leaves (s : Station) : s.transport.Leaves s.reconnect.2.transport False := by
  have hconnect := connect_leaves (s := s.close.sleep s.transport.reconnectDelay)
    (.inl s.close_coherent)
  rw [← reconnect_transport] at hconnect
  refine { hconnect with stranded_iff := hconnect.stranded_iff.trans (iff_false_intro ?_) }
  rintro ⟨hopen, -⟩
  cases hopen

theorem readWithin_leaves {s : Station} (h : s.transport.Sound)
    (policy : RetryPolicy) : s.transport.Leaves (s.readWithin policy).2.transport False := by
  cases hopen : s.transport.isOpen with
  | false =>
      have hunchanged : s.readWithin policy = (.error .closed, s) := by
        simp [readWithin, hopen]
      rw [hunchanged]
      exact .of_coherent rfl (h.coherent_of_closed hopen) not_false
  | true =>
      obtain ⟨-, taken, htook, -⟩ :=
        (s.enter .reading).attemptAll_spec policy.pause 0 policy.maxAttempts
      have htransport := htook.transport
      rw [readWithin_of_open hopen]
      generalize (s.enter .reading).attemptAll policy.pause 0 policy.maxAttempts = run
        at htransport ⊢
      rcases run with ⟨e | frame, t⟩
      · have hsettings : t.transport.settings = s.transport.settings := by
          change t.transport = _ at htransport
          rw [htransport]
          rfl
        exact .of_coherent hsettings (close_coherent _) not_false
      · have hcoherent := h.coherent_of_use hopen t.transport.decoder
        have hentered : (t.enter .connected).transport =
            { s.transport with decoder := t.transport.decoder, state := .connected } := by
          change t.transport = _ at htransport
          simp only [enter, htransport]
        rw [hentered]
        exact .of_coherent rfl hcoherent not_false

theorem writeFrame_leaves {s : Station} (h : s.transport.Sound) (payload : List UInt8) :
    s.transport.Leaves (s.writeFrame payload).2.transport
      (s.transport.Stranded ∧ ∃ reason, Frame.encode payload = .error reason) := by
  cases hencode : Frame.encode payload with
  | error reason =>
      rw [writeFrame_of_unframed hencode]
      exact ⟨rfl, h, by simp⟩
  | ok frame =>
      have hunfit : ¬ (s.transport.Stranded ∧
          ∃ reason, (Except.ok frame : Except Frame.EncodeError _) = .error reason) := by simp
      cases hopen : s.transport.isOpen with
      | false =>
          rw [writeFrame_of_closed hencode hopen]
          exact .of_coherent rfl (h.coherent_of_closed hopen) hunfit
      | true =>
          rw [(writeFrame_of_open hencode hopen).2.2]
          exact .of_coherent rfl (h.coherent_of_use hopen s.transport.decoder.reset) hunfit

def Strands (s : Station) : Operation → Prop
  | .connect => s.transport.isOpen = true ∧ ¬ s.wire.Connects s.transport.settings
  | .writeFrame payload =>
    s.transport.Stranded ∧ ∃ reason, Frame.encode payload = .error reason
  | _ => False

theorem perform_leaves {s : Station} (h : s.transport.Sound) (operation : Operation) :
    s.transport.Leaves (s.perform operation).transport (s.Strands operation) := by
  cases operation with
  | connect => exact connect_leaves h
  | close => exact .of_coherent rfl s.close_coherent not_false
  | reconnect => exact s.reconnect_leaves
  | readFrame => exact readWithin_leaves h _
  | readWithin policy => exact readWithin_leaves h policy
  | writeFrame payload => exact writeFrame_leaves h payload

theorem start_coherent (settings : Settings) (retry : RetryPolicy) (reconnectDelay : Duration)
    (wire : Wire) : (start settings retry reconnectDelay wire).transport.Coherent :=
  .inr ⟨rfl, rfl, rfl⟩

theorem performAll_sound {s : Station} (h : s.transport.Sound)
    (requests : List (Wire × Operation)) :
    (s.performAll requests).transport.Sound ∧
      (s.performAll requests).transport.settings = s.transport.settings := by
  induction requests generalizing s with
  | nil => exact ⟨h, rfl⟩
  | cons request requests ih =>
      have hleaves := perform_leaves (s := { s with wire := request.1 }) h request.2
      obtain ⟨hsound, hsettings⟩ := ih hleaves.sound
      exact ⟨hsound, hsettings.trans hleaves.settings⟩

-- A connect that is refused while the stream is open, with nothing behind it but writes of
-- payloads that are no frames.
def EndsRefused (s : Station) (requests : List (Wire × Operation)) : Prop :=
  ∃ before wire after, requests = before ++ (wire, .connect) :: after ∧
    (s.performAll before).transport.isOpen = true ∧ ¬ wire.Connects s.transport.settings ∧
    ∀ request ∈ after, ∃ payload reason,
      request.2 = .writeFrame payload ∧ Frame.encode payload = .error reason

theorem EndsRefused.concat_iff (s : Station) (requests : List (Wire × Operation)) (wire : Wire)
    (operation : Operation) :
    s.EndsRefused (requests ++ [(wire, operation)]) ↔
      (operation = .connect ∧ (s.performAll requests).transport.isOpen = true ∧
          ¬ wire.Connects s.transport.settings) ∨
        (s.EndsRefused requests ∧ ∃ payload reason,
          operation = .writeFrame payload ∧ Frame.encode payload = .error reason) := by
  constructor
  · rintro ⟨before, refused, after, hrequests, hopen, hnot, hafter⟩
    obtain rfl | ⟨front, last, rfl⟩ := after.eq_nil_or_concat
    · obtain ⟨rfl, hlast⟩ := List.append_inj' hrequests rfl
      cases hlast
      exact .inl ⟨rfl, hopen, hnot⟩
    · rw [List.concat_eq_append, ← List.cons_append, ← List.append_assoc] at hrequests
      obtain ⟨rfl, hlast⟩ := List.append_inj' hrequests rfl
      obtain rfl := List.singleton_inj.mp hlast
      rw [List.concat_eq_append, List.forall_mem_append] at hafter
      exact .inr ⟨⟨before, refused, front, rfl, hopen, hnot, hafter.1⟩,
        hafter.2 _ (List.mem_singleton_self _)⟩
  · rintro (⟨rfl, hopen, hnot⟩ | ⟨⟨before, refused, after, rfl, hopen, hnot, hafter⟩, hunfit⟩)
    · exact ⟨requests, wire, [], rfl, hopen, hnot, by simp⟩
    · refine ⟨before, refused, after ++ [(wire, operation)], by simp, hopen, hnot, ?_⟩
      rw [List.forall_mem_append]
      refine ⟨hafter, ?_⟩
      simpa using hunfit

theorem performAll_stranded_iff {s : Station} (h : s.transport.Coherent)
    (requests : List (Wire × Operation)) :
    (s.performAll requests).transport.Stranded ↔ s.EndsRefused requests := by
  induction requests using List.reverseRecOn with
  | nil =>
      refine iff_of_false h.not_stranded ?_
      rintro ⟨before, wire, after, hrequests, -⟩
      simp at hrequests
  | append_singleton requests request ih =>
      obtain ⟨wire, operation⟩ := request
      obtain ⟨hsound, hsettings⟩ := performAll_sound (.inl h) requests
      have hleaves :=
        perform_leaves (s := { s.performAll requests with wire }) hsound operation
      rw [performAll_concat, hleaves.stranded_iff, EndsRefused.concat_iff, ← ih]
      cases operation with
      | connect => simp [Strands, hsettings]
      | writeFrame payload => simp [Strands]
      | close => simp [Strands]
      | reconnect => simp [Strands]
      | readFrame => simp [Strands]
      | readWithin policy => simp [Strands]

theorem performAll_coherent_iff (settings : Settings) (retry : RetryPolicy)
    (reconnectDelay : Duration) (wire : Wire) (requests : List (Wire × Operation)) :
    let first := start settings retry reconnectDelay wire
    let last := (first.performAll requests).transport
    last.Sound ∧ (last.Coherent ↔ ¬ first.EndsRefused requests) := by
  intro first last
  have hfirst := start_coherent settings retry reconnectDelay wire
  have hsound : last.Sound := (performAll_sound (.inl hfirst) requests).1
  refine ⟨hsound, ?_⟩
  rw [← performAll_stranded_iff hfirst]
  constructor
  · intro hcoherent
    exact hcoherent.not_stranded
  · intro hnot
    exact hsound.resolve_right hnot

def connectTwice : List (Wire × Operation) :=
  [({ ports := ["sim0"] }, .connect),
    ({ ports := ["sim0"], listFailure := some "gone" }, .connect)]

theorem connectTwice_not_coherent :
    let first := start ⟨"sim0", 9600, .ofMillis 1000⟩ .standard (.ofSeconds 1) { ports := ["sim0"] }
    ¬ (first.performAll connectTwice).transport.Coherent := by
  intro first hcoherent
  apply hcoherent.not_stranded
  exact ⟨rfl, rfl, rfl⟩

end Station

end RelayGateway.Link
