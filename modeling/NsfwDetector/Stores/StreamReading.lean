import NsfwDetector.Effects.Raising
import NsfwDetector.Json.RoundTrip
import NsfwDetector.Stores.JobCodec

/-!
# The reply to `XREADGROUP`

The client library makes dictionaries of the fields and an empty list of nil. A cluster is read through
its connection, which hands on the reply as it is.
-/

namespace NsfwDetector.StreamReading

open JobCodec (Mapping IsoFormat)

/-! ## Replies -/

/-- An entry of a stream: its id, and its fields in their order. -/
structure Entry where
  messageId : String
  fields : List (String × String)

/-- The streams with their entries, or nil when the `BLOCK` expires. -/
abbrev Reply := Option (List (String × List Entry))

def entries (reply : Reply) : List Entry := (reply.getD []).flatMap (·.2)

/-- The fields of an entry as the repository gets them. -/
inductive RawPayload
  | dict (fields : Mapping)
  | list (items : List String)
  | other

abbrev RawStreams := List (String × List (String × RawPayload))

inductive Client
  | standalone
  | cluster
  deriving DecidableEq

/-- The keys and the values in turn. -/
def flat (fields : List (String × String)) : List String := fields.flatMap fun field => [field.1, field.2]

/-- The fields as `redis-py` parses them, or as they stand in the reply. -/
def Client.payload : Client → List (String × String) → RawPayload
  | .standalone, fields => .dict (Json.dictOf fields)
  | .cluster, fields => .list (flat fields)

def Client.streams (client : Client) (streams : List (String × List Entry)) : RawStreams :=
  streams.map fun stream =>
    (stream.1, stream.2.map fun entry => (entry.messageId, client.payload entry.fields))

/-- `_xreadgroup`. Only the library has an empty list for nil. -/
def Client.xreadgroup : Client → Reply → Option RawStreams
  | client, some streams => some (client.streams streams)
  | .standalone, none => some []
  | .cluster, none => none

/-! ## The reader -/

/-- What the interpreter settles: the exception that its limits (the digits of an integer, the depth of
nesting) make `json.loads` raise, and the text that `str` gives a value. -/
structure Interpreter where
  exceeds : String → Option PyException
  str : Json.Value → String
  exceeds_ne : ∀ text e, exceeds text = some e → e.className ≠ "JSONDecodeError"
  str_str : ∀ s, str (.str s) = s

def Interpreter.loads (python : Interpreter) (text : String) : Except PyException Json.Value :=
  match python.exceeds text with
  | some e => .error e
  | none =>
    match Json.loads text.toList with
    | some v => .ok v
    | none => .error (.other "JSONDecodeError" "")

/-- The items at the even places: `items[0::2]`. -/
def everyOther : List String → List String
  | [] => []
  | [item] => [item]
  | item :: _ :: items => item :: everyOther items

/-- `_stream_payload_to_mapping` -/
def streamPayloadToMapping : RawPayload → Mapping
  | .dict fields => Json.dictOf fields
  | .list items => Json.dictOf ((everyOther items).zip (everyOther items.tail))
  | .other => []

/-- `_json_payload` -/
def jsonPayload (python : Interpreter) (payload : Mapping) : Except PyException Mapping :=
  let rawPayload := payload.lookup "payload"
  if truthy rawPayload then
    match python.loads (orEmpty rawPayload) with
    | .ok (.dict members) => .ok (Json.dictOf (members.map fun member => (member.1, python.str member.2)))
    | .ok _ => .ok []
    | .error e => if e.className = "JSONDecodeError" then .ok [] else .error e
  else .ok []

/-- A `QueuedVideoJobMessage`, with the payload as it is read. -/
structure Message where
  messageId : String
  jobId : String
  payload : Mapping

def readMessage (python : Interpreter) (messageId : String) (rawPayload : RawPayload) :
    Except PyException Message := do
  let payload := streamPayloadToMapping rawPayload
  if truthy (payload.lookup "job_id") then
    pure ⟨messageId, orEmpty (payload.lookup "job_id"), payload⟩
  else
    let decoded ← jsonPayload python payload
    pure ⟨messageId, (decoded.lookup "job_id").getD "", payload⟩

/-- `read_video_job_messages`, of the reply. -/
def readVideoJobMessages (python : Interpreter) (client : Client) (reply : Reply) :
    Except PyException (List Message) :=
  match client.xreadgroup reply with
  | some streams => (streams.flatMap (·.2)).mapM fun (messageId, rawPayload) =>
      readMessage python messageId rawPayload
  | none => .error (.other "TypeError" "'NoneType' object is not iterable")

/-! ## The writers -/

/-- `json.dumps(payload, separators=...)` of a `dict[str, str]` -/
def payloadText (itemSeparator keySeparator : List Char) (payload : Mapping) : String :=
  String.ofList ('{' :: (List.intercalate itemSeparator
    (payload.map fun (key, value) => Json.quoted key ++ keySeparator ++ Json.quoted value) ++ ['}']))

/-- The fields of the entry that `enqueue_video_job` adds. -/
def enqueueFields (iso : IsoFormat) (job : VideoJob) : Except PyException (List (String × String)) := do
  let payload ← JobCodec.jobToMapping iso job
  pure [("job_id", job.jobId), ("payload", payloadText [',', ' '] [':', ' '] payload)]

/-- The fields of the entry that `requeue_video_job` adds, from the hash of the job. -/
def requeueFields (iso : IsoFormat) (data : Mapping) : Except PyException (List (String × String)) := do
  let job ← JobCodec.jobFromMapping iso data
  let payload ← JobCodec.jobToMapping iso job
  pure [("job_id", job.jobId), ("payload", payloadText [','] [':'] payload)]

/-! ## Both forms of the fields -/

variable {python : Interpreter} {client : Client} {iso : IsoFormat} {reply : Reply}
  {messages : List Message}

theorem everyOther_cons (item : String) (items : List String) :
    everyOther (item :: items) = item :: everyOther items.tail := by
  cases items <;> rfl

theorem everyOther_flat (fields : List (String × String)) :
    everyOther (flat fields) = fields.map (·.1) ∧
      everyOther (flat fields).tail = fields.map (·.2) := by
  induction fields with
  | nil => exact ⟨rfl, rfl⟩
  | cons field fields ih =>
    have hflat : flat (field :: fields) = field.1 :: field.2 :: flat fields := rfl
    rw [hflat, List.map_cons, List.map_cons, ← ih.1, ← ih.2]
    exact ⟨everyOther_cons .., everyOther_cons ..⟩

/-- Whichever client reads the entry, the repository sees the dictionary of its fields. -/
theorem streamPayloadToMapping_payload (client : Client) (fields : List (String × String)) :
    streamPayloadToMapping (client.payload fields) = Json.dictOf fields := by
  cases client with
  | standalone => exact Json.dictOf_dictOf fields
  | cluster =>
    obtain ⟨hkeys, hvalues⟩ := everyOther_flat fields
    rw [Client.payload, streamPayloadToMapping, hkeys, hvalues, List.zip_map', List.map_id']

/-! ## Messages -/

/-- The interpreter gets through what the reader has to decode of the entry: nothing, if the entry has
its `job_id`. -/
def Readable (python : Interpreter) (entry : Entry) : Prop :=
  truthy ((Json.dictOf entry.fields).lookup "job_id") = true ∨
    truthy ((Json.dictOf entry.fields).lookup "payload") = false ∨
    python.exceeds (orEmpty ((Json.dictOf entry.fields).lookup "payload")) = none

theorem loads_ok {text : String} {v : Json.Value} (h : python.loads text = .ok v) :
    python.exceeds text = none := by
  unfold Interpreter.loads at h
  split at h
  · cases h
  · assumption

theorem loads_error {text : String} {e : PyException} (h : python.loads text = .error e) :
    e.className = "JSONDecodeError" ↔ python.exceeds text = none := by
  unfold Interpreter.loads at h
  split at h
  · next hexceeds =>
    obtain rfl := Except.error.inj h
    exact iff_of_false (python.exceeds_ne _ _ hexceeds) (by simp [hexceeds])
  · next hexceeds =>
    split at h
    · cases h
    · obtain rfl := Except.error.inj h
      exact iff_of_true rfl hexceeds

theorem jsonPayload_ok (payload : Mapping) : (∃ decoded, jsonPayload python payload = .ok decoded) ↔
    truthy (payload.lookup "payload") = false ∨
      python.exceeds (orEmpty (payload.lookup "payload")) = none := by
  rw [jsonPayload]
  split
  · next htruthy =>
    rw [htruthy]
    split
    · next h => exact iff_of_true ⟨_, rfl⟩ (.inr (loads_ok h))
    · next h => exact iff_of_true ⟨_, rfl⟩ (.inr (loads_ok h))
    · next h =>
      rw [← loads_error h]
      split <;> simp [*]
  · next htruthy => exact iff_of_true ⟨_, rfl⟩ (.inl (Bool.eq_false_iff.mpr htruthy))

theorem readMessage_ok (entry : Entry) :
    (∃ message, readMessage python entry.messageId (client.payload entry.fields) = .ok message) ↔
      Readable python entry := by
  rw [readMessage, streamPayloadToMapping_payload, Readable]
  split
  · next h => exact iff_of_true ⟨_, rfl⟩ (.inl h)
  · next h =>
    rw [or_iff_right h, ← jsonPayload_ok]
    cases jsonPayload python (Json.dictOf entry.fields) with
    | error e => exact iff_of_false (fun ⟨_, h⟩ => by cases h) (fun ⟨_, h⟩ => by cases h)
    | ok decoded => exact iff_of_true ⟨_, rfl⟩ ⟨_, rfl⟩

theorem readMessage_messageId {messageId : String} {rawPayload : RawPayload} {message : Message}
    (h : readMessage python messageId rawPayload = .ok message) : message.messageId = messageId := by
  rw [readMessage] at h
  split at h
  · exact congrArg Message.messageId (Except.ok.inj h).symm
  · cases hdecoded : jsonPayload python (streamPayloadToMapping rawPayload) with
    | error e =>
      rw [hdecoded] at h
      cases h
    | ok decoded =>
      rw [hdecoded] at h
      exact congrArg Message.messageId (Except.ok.inj h).symm

/-! ## Reading -/

/-- The repository goes through the entries of the reply, once there is one. -/
theorem readVideoJobMessages_some (streams : List (String × List Entry)) :
    readVideoJobMessages python client (some streams) =
      (entries (some streams)).mapM fun entry =>
        readMessage python entry.messageId (client.payload entry.fields) := by
  have hentries : (client.streams streams).flatMap (·.2) =
      (entries (some streams)).map fun entry => (entry.messageId, client.payload entry.fields) := by
    simp [Client.streams, entries, List.flatMap_map, List.map_flatMap]
  cases client with
  | _ =>
    simp only [readVideoJobMessages, Client.xreadgroup]
    rw [hentries, List.mapM_map]
    rfl

/-- One message for each entry, in their order and with their ids. -/
def OnePerEntry (reply : Reply) (messages : List Message) : Prop :=
  messages.map (·.messageId) = (entries reply).map (·.messageId)

theorem onePerEntry_of_reads (h : readVideoJobMessages python client reply = .ok messages) :
    OnePerEntry reply messages := by
  cases reply with
  | none =>
    cases client with
    | standalone =>
      obtain rfl := Except.ok.inj h
      rfl
    | cluster => cases h
  | some streams =>
    rw [readVideoJobMessages_some, Raising.mapM_eq_ok] at h
    have hids : List.Forall₂ (· = ·) ((entries (some streams)).map (·.messageId))
        (messages.map (·.messageId)) := by
      rw [List.forall₂_map_left_iff, List.forall₂_map_right_iff]
      exact h.imp fun _ _ hread => (readMessage_messageId hread).symm
    rw [List.forall₂_eq_eq_eq] at hids
    exact hids.symm

theorem reads_iff_readable :
    (∃ messages, readVideoJobMessages python client reply = .ok messages) ↔
      ¬ (client = .cluster ∧ reply = none) ∧ ∀ entry ∈ entries reply, Readable python entry := by
  cases reply with
  | none => cases client <;> simp [readVideoJobMessages, Client.xreadgroup, entries, pure, Except.pure]
  | some streams =>
    rw [readVideoJobMessages_some, Raising.exists_mapM_eq_ok]
    simp only [readMessage_ok, reduceCtorEq, and_false, not_false_eq_true, true_and]

/-! ## Entries of the queue -/

theorem readMessage_written {fields : List (String × String)} {jobId payload : String}
    (hfields : fields = [("job_id", jobId), ("payload", payload)]) (hjob : jobId ≠ "")
    (messageId : String) :
    readMessage python messageId (client.payload fields) = .ok ⟨messageId, jobId, fields⟩ := by
  have hdict : Json.dictOf fields = fields := by
    rw [hfields]
    rfl
  rw [readMessage, streamPayloadToMapping_payload, hdict, hfields]
  simp [truthy, hjob, orEmpty, pure, Except.pure]

/-- The message of an entry in the store of the queue has the id that the reader finds. -/
theorem readMessage_streamEntry {entry : StreamEntry} (hjob : entry.jobId ≠ "") (payload messageId : String) :
    (readMessage python messageId (client.payload [("job_id", entry.jobId), ("payload", payload)])).map
      Message.jobId = .ok entry.message.jobId := by
  rw [readMessage_written rfl hjob]
  simp [Except.map, StreamEntry.message, hjob]

theorem fields_of_enqueue {request : VideoDetectRequest} {now : Time} {fields : List (String × String)}
    (h : enqueueFields iso (request.job now) = .ok fields) :
    ∃ payload, fields = [("job_id", request.jobId), ("payload", payload)] := by
  rw [enqueueFields] at h
  cases hdata : JobCodec.jobToMapping iso (request.job now) with
  | error e =>
    rw [hdata] at h
    cases h
  | ok data =>
    rw [hdata] at h
    exact ⟨_, (Except.ok.inj h).symm⟩

/-- The hash of any job that came of the request brings its id back. -/
theorem fields_of_requeue {request : VideoDetectRequest} {now : Time}
    {changes : List JobCodec.StatusChange} {held : VideoJob × Mapping} {fields : List (String × String)}
    (hheld : JobCodec.reached iso request now changes = .ok held)
    (h : requeueFields iso held.2 = .ok fields) :
    ∃ payload, fields = [("job_id", request.jobId), ("payload", payload)] := by
  obtain ⟨hdata, hid⟩ := JobCodec.reached_held hheld
  obtain ⟨htext, hmapping⟩ := JobCodec.jobToMapping_ok.mp hdata
  rw [requeueFields, hmapping, JobCodec.jobFromMapping_fieldTexts htext] at h
  have hstored : JobCodec.jobToMapping iso held.1.stored = .ok _ := JobCodec.jobToMapping_ok.mpr ⟨htext, rfl⟩
  simp only [bind, Except.bind, hstored, VideoJob.stored_jobId, hid] at h
  exact ⟨_, (Except.ok.inj h).symm⟩

/-- Each reply is read to one message an entry, unless a cluster answers nil or an entry without a
`job_id` has a payload past the limits of the interpreter. Both clients read an entry the same, and the
entries of the queue have the id of their job. -/
theorem reads_iff (python : Interpreter) (iso : IsoFormat) :
    (∀ client reply,
      (∃ messages, readVideoJobMessages python client reply = .ok messages ∧
        OnePerEntry reply messages) ↔
      ¬ (client = .cluster ∧ reply = none) ∧ ∀ entry ∈ entries reply, Readable python entry) ∧
    (∀ messageId fields, readMessage python messageId (Client.standalone.payload fields) =
      readMessage python messageId (Client.cluster.payload fields)) ∧
    ∀ request now changes held fields,
      JobCodec.reached iso request now changes = .ok held →
      enqueueFields iso (request.job now) = .ok fields ∨ requeueFields iso held.2 = .ok fields →
      ∀ (client : Client) messageId, ∃ message,
        readMessage python messageId (client.payload fields) = .ok message ∧
          message.jobId = request.jobId := by
  refine ⟨fun client reply => ?_, fun messageId fields => ?_, fun request now changes held fields hheld
    hwritten client messageId => ?_⟩
  · rw [← reads_iff_readable]
    exact ⟨fun ⟨messages, h, _⟩ => ⟨messages, h⟩, fun ⟨messages, h⟩ => ⟨messages, h, onePerEntry_of_reads h⟩⟩
  · simp only [readMessage, streamPayloadToMapping_payload]
  · obtain ⟨payload, hfields⟩ := hwritten.elim fields_of_enqueue (fields_of_requeue hheld)
    exact ⟨_, readMessage_written hfields request.jobId_ne messageId, rfl⟩

/-- An interpreter without limits. -/
def boundless : Interpreter where
  exceeds _ := none
  str
    | .str s => s
    | v => String.ofList v.text
  exceeds_ne := nofun
  str_str _ := rfl

/-- A `BLOCK` that expires raises on a cluster only. -/
theorem expired_block_raises :
    readVideoJobMessages boundless .standalone none = .ok [] ∧
      readVideoJobMessages boundless .cluster none =
        .error (.other "TypeError" "'NoneType' object is not iterable") ∧
      ¬ ∃ messages, readVideoJobMessages boundless .cluster none = .ok messages :=
  ⟨rfl, rfl, fun ⟨_, h⟩ => by cases h⟩

end NsfwDetector.StreamReading
