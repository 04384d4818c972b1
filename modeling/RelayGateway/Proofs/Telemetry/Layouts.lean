import RelayGateway.Proofs.Compression.Restore
import RelayGateway.Proofs.Telemetry.Documents
import RelayGateway.Proofs.Telemetry.Offering

namespace RelayGateway.Telemetry

open Json
open PubSub (Message)
open RelayGateway.Text (toBytes)

def Record.isNumber (x : Option Binary32) : Bool := x.any (!·.isNaN)

theorem sanitizeScalar_of_not {x : Option Binary32} (h : Record.isNumber x = false) :
    sanitizeScalar x = missing := by
  cases x with
  | none => rfl
  | some x =>
      have hnan : x.isNaN = true := by simpa [Record.isNumber] using h
      exact if_pos hnan

namespace PublisherSettings

theorem scalarDraft_of_isNumber {x : Option Binary32} (h : Record.isNumber x = true)
    (topic key : String) : scalarDraft topic key x =
      [⟨topic, (Value.ofMapping [(key, .ofBinary64 (sanitizeScalar x))]).write⟩] := by
  cases x with
  | none => cases h
  | some x =>
      have hnan : ¬ x.isNaN = true := by simpa [Record.isNumber] using h
      rw [scalarDraft, sanitizeScalar, if_neg hnan, if_neg hnan]

theorem scalarDraft_of_not {x : Option Binary32} (h : Record.isNumber x = false)
    (topic key : String) : scalarDraft topic key x = [] := by
  cases x with
  | none => rfl
  | some x =>
      have hnan : x.isNaN = true := by simpa [Record.isNumber] using h
      exact if_pos hnan

end PublisherSettings

-- The parts of a record that have a topic of their own.
inductive Section where
  | temperature
  | humidity
  | lightLevel
  | phLevels
  | relayStates
  deriving DecidableEq, Repr

namespace Section

def all : List Section := [.temperature, .humidity, .lightLevel, .phLevels, .relayStates]

def topic (topics : SensorTopics) : Section → String
  | temperature => topics.temperature
  | humidity => topics.humidity
  | lightLevel => topics.lightLevel
  | phLevels => topics.phLevels
  | relayStates => topics.relayStates

def isThere (record : Record) : Section → Bool
  | temperature => Record.isNumber record.temperature
  | humidity => Record.isNumber record.humidity
  | lightLevel => Record.isNumber record.lightLevel
  | phLevels => !record.phLevels.isEmpty
  | relayStates => !record.relayStates.isEmpty

def scalarMember (key : String) (x : Option Binary32) : Text × Tree :=
  (writtenString key, (Value.ofBinary64 (sanitizeScalar x)).tree)

def members (record : Record) : Section → List (Text × Tree)
  | temperature => [scalarMember "temperature" record.temperature]
  | humidity => [scalarMember "humidity" record.humidity]
  | lightLevel => [scalarMember "light_level" record.lightLevel]
  | phLevels => [(writtenString "ph_levels", (sanitizedLevels record).tree)]
  | relayStates => [
    (writtenString "relay_labels", .array (record.relayLabels.map fun s => .string (writtenString s))),
    (writtenString "relay_states", .array (record.relayStates.map .bool))]

-- Whether a draft is the document of a part, on its topic.
structure Told (topics : SensorTopics) (record : Record) (part : Section) (draft : Draft) : Prop where
  topic : draft.topic = part.topic topics
  reads : draft.Reads (.object (part.members record))

variable {topics : SensorTopics} {record : Record}

theorem map_topic_eq {parts : List Section} {drafts : List Draft}
    (h : List.Forall₂ (Told topics record) parts drafts) :
    drafts.map Draft.topic = parts.map (·.topic topics) := by
  induction h with
  | nil => rfl
  | cons htold _ ih => rw [List.map_cons, List.map_cons, htold.topic, ih]

theorem forall₂_told {part : Section} {drafts : List Draft}
    (hthere : part.isThere record = true → ∃ v : Value, drafts = [⟨part.topic topics, v.write⟩] ∧
      v.tree = .object (part.members record))
    (habsent : part.isThere record = false → drafts = []) :
    List.Forall₂ (Told topics record) ([part].filter (·.isThere record)) drafts := by
  rw [List.filter_singleton]
  cases hcase : part.isThere record with
  | true =>
      obtain ⟨v, rfl, htree⟩ := hthere hcase
      exact .cons ⟨rfl, htree ▸ v.parse?_write⟩ .nil
  | false =>
      rw [habsent hcase]
      exact .nil

theorem scalarDraft_told {part : Section} {key : String} {x : Option Binary32}
    (hthere : part.isThere record = Record.isNumber x)
    (hmembers : part.members record = [scalarMember key x]) :
    List.Forall₂ (Told topics record) ([part].filter (·.isThere record))
      (PublisherSettings.scalarDraft (part.topic topics) key x) := by
  refine forall₂_told (fun h => ?_) fun h => ?_
  · refine ⟨_, PublisherSettings.scalarDraft_of_isNumber (hthere.symm.trans h) _ key, ?_⟩
    rw [hmembers]
    rfl
  · exact PublisherSettings.scalarDraft_of_not (hthere.symm.trans h) _ key

theorem levelsDraft_told : List.Forall₂ (Told topics record) ([phLevels].filter (·.isThere record))
    (PublisherSettings.levelsDraft topics.phLevels record) := by
  unfold PublisherSettings.levelsDraft
  refine forall₂_told (fun h => ?_) fun h => ?_
  · rw [isThere, Bool.not_eq_true'] at h
    rw [h, if_neg Bool.false_ne_true]
    exact ⟨_, rfl, rfl⟩
  · rw [isThere, Bool.not_eq_false'] at h
    exact if_pos h

theorem relaysDraft_told : List.Forall₂ (Told topics record)
    ([relayStates].filter (·.isThere record))
    (PublisherSettings.relaysDraft topics.relayStates record) := by
  unfold PublisherSettings.relaysDraft
  refine forall₂_told (fun h => ?_) fun h => ?_
  · rw [isThere, Bool.not_eq_true'] at h
    rw [h, if_neg Bool.false_ne_true]
    refine ⟨_, rfl, ?_⟩
    have hsorted : Sorted.ofList [
        ("relay_states", Value.array (record.relayStates.map .bool)),
        ("relay_labels", .array (record.relayLabels.map .string))] = [
        ("relay_labels", .array (record.relayLabels.map .string)),
        ("relay_states", .array (record.relayStates.map .bool))] := rfl
    rw [Value.ofMapping, hsorted]
    simp only [Value.tree, Value.memberTrees, Value.itemTrees_eq, List.map_map, members]
    rfl
  · rw [isThere, Bool.not_eq_false'] at h
    exact if_pos h

theorem splitDrafts_told : List.Forall₂ (Told topics record) (all.filter (·.isThere record))
    (PublisherSettings.splitDrafts topics record) := by
  have htemperature : List.Forall₂ (Told topics record) ([temperature].filter (·.isThere record)) _ :=
    scalarDraft_told rfl rfl
  have hhumidity : List.Forall₂ (Told topics record) ([humidity].filter (·.isThere record)) _ :=
    scalarDraft_told rfl rfl
  have hlight : List.Forall₂ (Told topics record) ([lightLevel].filter (·.isThere record)) _ :=
    scalarDraft_told rfl rfl
  have hall := List.rel_append (List.rel_append (List.rel_append (List.rel_append htemperature
    hhumidity) hlight) levelsDraft_told) relaysDraft_told
  simp only [← List.filter_append] at hall
  exact hall

theorem members_subset {part : Section} (hpart : part ≠ relayStates) (timestamp : Nat) :
    part.members record ⊆
      Value.memberTrees (Sorted.ofList (PublisherSettings.unifiedMembers record timestamp)) := by
  have hfield {key : String} {item : Value} (h : (key, item) ∈ sanitized record) :
      [(writtenString key, item.tree)] ⊆
        Value.memberTrees (Sorted.ofList (PublisherSettings.unifiedMembers record timestamp)) :=
    List.cons_subset.mpr ⟨PublisherSettings.mem_unifiedDocument h, List.nil_subset _⟩
  cases part with
  | temperature => exact hfield (by simp [sanitized])
  | humidity => exact hfield (by simp [sanitized])
  | lightLevel => exact hfield (by simp [sanitized])
  | phLevels => exact hfield (by simp [sanitized])
  | relayStates => exact absurd rfl hpart

end Section

-- Whether a message brings a draft: on its topic, with the text as it is, or with one that is restored
-- to it.
structure Draft.Conveyed (compressed : Bool) (draft : Draft) (message : Message) : Prop where
  topic : message.topic = draft.topic
  payload : ∃ text, message.payload = toBytes text ∧
    if compressed then Compression.decompress text = .ok draft.text else text = draft.text

namespace PublisherSettings

theorem message_conveyed {s : PublisherSettings} (hsplit : s.unified = false) (draft : Draft) :
    draft.Conveyed s.compress (s.message draft) := by
  refine ⟨rfl, _, rfl, ?_⟩
  rw [hsplit, Bool.not_false, Bool.true_and]
  cases s.compress with
  | true => exact Compression.decompress_compress draft.text
  | false => rfl

theorem refusal_topic (s : PublisherSettings) {message other : Message}
    (h : message.topic = other.topic) : s.refusal message = s.refusal other := by
  rw [refusal, refusal, h]

theorem messages_conveyed {s : PublisherSettings} (hsplit : s.unified = false) (record : Record)
    (timestamp : Nat) : List.Forall₂ (Draft.Conveyed s.compress)
      (splitDrafts s.topics record) (s.messages record timestamp) := by
  rw [messages, drafts, hsplit, if_neg Bool.false_ne_true, List.forall₂_map_right_iff]
  exact List.forall₂_same.mpr fun draft _ => message_conveyed hsplit draft

-- How the drafts for a record stand to the members of its one document.
structure Matching (topics : SensorTopics) (record : Record) (drafts : List Draft)
    (whole : List (Text × Tree)) : Prop where
  -- Each part that is there has one draft, in the fixed order.
  told : List.Forall₂ (Section.Told topics record) (Section.all.filter (·.isThere record)) drafts
  -- What a draft tells of the sensors stands in the document under the same key, and only once.
  sensors : ∀ part : Section, part ≠ .relayStates → part.members record ⊆ whole
  keys : (whole.map Prod.fst).Nodup
  -- A scalar without a draft is one that is missing or not a number, and stands there as minus one.
  skipped : ∀ field ∈ record.scalars, Record.isNumber field.2 = false →
    (writtenString field.1, .minusOne) ∈ whole

theorem matching_splitDrafts (topics : SensorTopics) (record : Record) (timestamp : Nat) :
    Matching topics record (splitDrafts topics record)
      (Value.memberTrees (Sorted.ofList (unifiedMembers record timestamp))) where
  told := Section.splitDrafts_told
  sensors _ hpart := Section.members_subset hpart timestamp
  keys := by
    have hnodup := unifiedMembers_nodup record timestamp
    have hsorted := ((Sorted.ofList_perm hnodup).map Prod.fst).nodup_iff.mpr hnodup
    rw [Value.memberTrees_keys]
    exact List.Pairwise.map writtenString
      (fun _ _ hne hsame => hne (Text.writtenString_injective hsame)) hsorted
  skipped field hfield hnot := by
    have hscalar := mem_sanitized hfield
    rw [sanitizeScalar_of_not hnot] at hscalar
    exact tree_missing ▸ mem_unifiedDocument hscalar

-- In the split layout, whatever is refused, each part of a record that is there is offered once, in the
-- fixed order and on its own topic, as it stands in the one document of the unified layout, and the
-- result is the number of messages accepted. With compression the same drafts are offered, in texts
-- that are restored to them, and an outlet that goes by the topics alone accepts as many.
theorem publish_split {s : PublisherSettings} (hsplit : s.unified = false) (record : Record)
    (timestamp : Nat) :
    ∃ (drafts : List Draft) (whole : List (Text × Tree)),
      List.Forall₂ Draft.Reads ({ s with unified := true }.drafts record timestamp) [.object whole] ∧
      Matching s.topics record drafts whole ∧
      (∀ (compress : Bool) {σ : Type} (outlet : Outlet σ) (world : σ), ∃ attempts : List (Message × Bool),
        let result := { s with compress }.publish outlet record timestamp world
        List.Forall₂ (Draft.Conveyed compress) drafts (attempts.map Prod.fst) ∧
          outlet.Offers s.refusal world attempts result.2 ∧
          result.1 = attempts.countP Prod.snd) ∧
      ∀ {σ : Type} {outlet : Outlet σ} {same : σ → σ → Prop}, outlet.Blind same →
        ∀ {world other : σ}, same world other →
          let plain := { s with compress := false }.publish outlet record timestamp world
          let packed := { s with compress := true }.publish outlet record timestamp other
          plain.1 = packed.1 ∧ same plain.2 packed.2 := by
  refine ⟨splitDrafts s.topics record, _, .cons (Value.parse?_write _) .nil,
    matching_splitDrafts s.topics record timestamp, ?_, ?_⟩
  · intro compress σ outlet world
    obtain ⟨attempts, hmessages, hoffers, hcount⟩ :=
      outlet.exists_offers s.refusal ({ s with compress }.messages record timestamp) world
    refine ⟨attempts, ?_, hoffers, hcount⟩
    rw [hmessages]
    exact messages_conveyed (s := { s with compress }) hsplit record timestamp
  · intro σ outlet same hblind world other hsame
    refine hblind.offer (refusal_topic _) ?_ hsame
    simp only [messages, List.forall₂_map_left_iff, List.forall₂_map_right_iff]
    exact List.forall₂_same.mpr fun draft _ => rfl

-- A humidity that is not a number is not told of, whatever the bench accepts.
theorem publish_split_withoutHumidity :
    let s : PublisherSettings := ⟨false, "all", ⟨"air", "damp", "light", "water", "relays"⟩, false⟩
    let record : Record :=
      { temperature := some ⟨0x41AC0000⟩, humidity := some ⟨0x7FC00000⟩, phLevels := [⟨0x40D00000⟩],
        relayStates := [true], relayLabels := ["Pump"] }
    s.unified = false ∧ ∃ (drafts : List Draft) (whole : List (Text × Tree)),
      drafts.map Draft.topic = ["air", "water", "relays"] ∧
      (writtenString "humidity", .minusOne) ∈ whole ∧
      ∀ b : Bench.Polling, ∃ attempts : List (Message × Bool),
        let result := s.publish Bench.Polling.surroundings.outlet record 42 b
        List.Forall₂ (Draft.Conveyed false) drafts (attempts.map Prod.fst) ∧
          result.1 = attempts.countP Prod.snd ∧
          result.1 = ({ s with compress := true }.publish Bench.Polling.surroundings.outlet
            record 42 b).1 := by
  intro s record
  obtain ⟨drafts, whole, -, hmatching, hoffered, hblind⟩ := publish_split (s := s) rfl record 42
  have hthere : Section.all.filter (·.isThere record) = [.temperature, .phLevels, .relayStates] := by
    decide +kernel
  have htopics := Section.map_topic_eq hmatching.told
  rw [hthere] at htopics
  refine ⟨rfl, drafts, whole, htopics, ?_, fun b => ?_⟩
  · have hfield : ("humidity", record.humidity) ∈ record.scalars := by simp [Record.scalars]
    exact hmatching.skipped _ hfield (by decide +kernel)
  · obtain ⟨attempts, hconveyed, -, hcount⟩ := hoffered false Bench.Polling.surroundings.outlet b
    exact ⟨attempts, hconveyed, hcount, (hblind Bench.Polling.blind_outlet rfl).1⟩

end PublisherSettings

end RelayGateway.Telemetry
