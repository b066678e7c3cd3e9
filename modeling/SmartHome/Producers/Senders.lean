import SmartHome.Found.Network
import SmartHome.Producers.SmokeGet
import SmartHome.Producers.SocketControlGet
import SmartHome.Producers.VoiceGet

/-!
# The three threads that fill the queue

Each `get` but that of the receiver is a thread that reads from a device and sends what it makes of
it: `smoke_get` the sensor, `socket_control_get` a TCP connection, `voice_get` the serial line. Here
each is a `Sender`, one iteration of its loop at a time; run alone, it sends what its loop sends on
the whole sequence (`messages_smokeGet`, `messages_socketControlGet`, `messages_voiceGet`), and what
that can be is read off there: two alarm frames, whole frames that one `recv` brought, and what
single reads of the line brought.
-/

set_option autoImplicit false

namespace SmartHome.Producers

open SmartHome.Device SmartHome.Found

/-- What `digitalRead` returns. Source: `smoke_interface.c` `smoke_get`. Kind: D -/
abbrev SensorReading : Type := { status : ℤ // status = low ∨ status = high }

/-- What `recv` or `read` returns on a buffer of six bytes: an error, or at most six bytes.
Source: `socket_interface.c` `socket_control_get`, `uartTool.c` `serialGetstring`
Kind: D -/
abbrev ReadResult : Type := Option { bytes : List Byte // bytes.length ≤ bufSize }

/-- The bytes alone. Source: none: infrastructure. Kind: D -/
def ReadResult.bytes (result : ReadResult) : Option (List Byte) := Option.map Subtype.val result

/-- A message that was read is short. -/
theorem length_le_of_mem_bytes {results : List ReadResult} {msg : List Byte}
    (h : some msg ∈ results.map ReadResult.bytes) : msg.length ≤ bufSize := by
  obtain ⟨result, -, hresult⟩ := List.mem_map.mp h
  obtain ⟨bytes, rfl, hbytes⟩ := Option.map_eq_some_iff.mp hresult
  exact hbytes ▸ bytes.property

/-- One `recv` of `socket_control_get` with a valid queue: the message for `send_message`.
Source: `socket_interface.c` `socket_control_get`
Kind: D -/
def socketReceive : Option (List Byte) → Option (List Byte)
  | none => none
  | some [] => none
  | some (b :: bs) =>
      let buffer := overlay (b :: bs) (List.replicate bufSize 0)
      if frameMarked buffer then some (buffer.take (b :: bs).length) else none

/-- One iteration of `voice_get`: the buffer, and the message for `send_message`.
Source: `voice_interface.c` `voice_get`
Kind: D -/
def voiceRead (buffer : List Byte) (readResult : Option (List Byte)) :
    List Byte × Option (List Byte) :=
  let (len, buffer) := serialGetstring readResult buffer
  (buffer, if 0 < len ∧ frameMarked buffer = true then some (buffer.take len.toNat) else none)

/-- The threads that send to the queue.
Source: `smoke_interface.c`, `socket_interface.c`, `voice_interface.c`
Kind: D -/
inductive Producer where
  | smokeGet
  | socketControlGet
  | voiceGet
deriving DecidableEq, Repr

/-- One iteration of `smoke_get` at a time. Source: `smoke_interface.c` `smoke_get`. Kind: D -/
abbrev smokeGetSender : Sender (List Byte) :=
  ⟨SmokeGet, SensorReading, SmokeGet.init, fun t reading => t.poll reading.val⟩

/-- One `recv` of `socket_control_get` at a time.
Source: `socket_interface.c` `socket_control_get`
Kind: D -/
abbrev socketControlGetSender : Sender (List Byte) :=
  ⟨Unit, ReadResult, (), fun _ result => ((), socketReceive result.bytes)⟩

/-- One iteration of `voice_get` at a time. Source: `voice_interface.c` `voice_get`. Kind: D -/
abbrev voiceGetSender : Sender (List Byte) :=
  ⟨List Byte, ReadResult, voiceBuffer, fun buffer result => voiceRead buffer result.bytes⟩

/-- The three.
Source: `smoke_interface.c`, `socket_interface.c`, `voice_interface.c`
Kind: D -/
def producers : Producer → Sender (List Byte)
  | .smokeGet => smokeGetSender
  | .socketControlGet => socketControlGetSender
  | .voiceGet => voiceGetSender

/-! ## `smoke_get` -/

/-- **`smoke_get` alone** sends the frames for its readings.
Source: `smoke_interface.c` `smoke_get`
Kind: P -/
theorem messages_smokeGet (readings : List SensorReading) :
    smokeGetSender.messages readings = alarmFrames none (readings.map Subtype.val) := by
  have hboth : Latched (readings.map Subtype.val)
        (smokeGetSender.after smokeGetSender.start readings) ∧
      smokeGetSender.messages readings = alarmFrames none (readings.map Subtype.val) := by
    induction readings using List.reverseRecOn with
    | nil => exact ⟨latched_init, rfl⟩
    | append_singleton readings reading ih =>
        obtain ⟨hlatched, hmessages⟩ := ih
        obtain ⟨hnext, hframe⟩ := poll_of_latched hlatched reading.property
        rw [List.map_append]
        refine ⟨?_, ?_⟩
        · rw [Sender.after_concat]
          exact hnext
        · rw [Sender.messages, Sender.messagesFrom_concat, ← Sender.messages, hmessages]
          change _ ++ (SmokeGet.poll _ reading.val).2.toList = _
          rw [hframe]
          simp [alarmFrames_concat]
  exact hboth.2

/-- The frames it sends. -/
theorem mem_alarmFrames {previous : Option ℤ} {readings : List ℤ} {msg : List Byte}
    (h : msg ∈ alarmFrames previous readings) :
    (msg = frame 0x45 0 ∧ low ∈ readings) ∨ msg = frame 0x45 1 := by
  induction readings generalizing previous with
  | nil => exact absurd h List.not_mem_nil
  | cons reading readings ih =>
      rcases List.mem_append.mp h with hnow | hlater
      · rw [Option.mem_toList] at hnow
        unfold alarmFrame at hnow
        split_ifs at hnow with hlow hclear
        · exact Or.inl ⟨(Option.some.inj hnow).symm, by simp [hlow]⟩
        · exact Or.inr (Option.some.inj hnow).symm
      · exact (ih hlater).imp_left fun ⟨hmsg, hlow⟩ => ⟨hmsg, List.mem_cons_of_mem _ hlow⟩

/-! ## `socket_control_get` -/

/-- The results of `recv`, split at the ends of the connections.
Source: none: infrastructure. Kind: D -/
def connections : List (Option (List Byte)) → List (List (Option (List Byte)))
  | [] => []
  | result :: rest =>
      if result = none ∨ result = some [] then [result] :: connections rest
      else
        match connections rest with
        | [] => [[result]]
        | c :: cs => (result :: c) :: cs

variable {mqd : ℤ}

theorem acceptLoop_cons (hmqd : mqd ≠ -1) (results : List (Option (List Byte)))
    (rest : List (List (Option (List Byte)))) :
    acceptLoop mqd (results :: rest) = (recvLoop mqd results).1 ++ acceptLoop mqd rest := by
  have hexit := recvLoop_not_exited hmqd results
  simp only [acceptLoop, hexit, Bool.false_eq_true, if_false]

/-- The message of one chunk. -/
theorem socketReceive_eq {chunk : List Byte} (hne : chunk ≠ []) :
    socketReceive (some chunk) =
      if frameMarked (overlay chunk (List.replicate bufSize 0)) then some chunk else none := by
  cases chunk with
  | nil => exact absurd rfl hne
  | cons b bs => simp only [socketReceive, take_overlay_length]

theorem acceptLoop_connections (hmqd : mqd ≠ -1) (results : List (Option (List Byte))) :
    acceptLoop mqd (connections results) = results.filterMap socketReceive := by
  induction results with
  | nil => rfl
  | cons result results ih =>
      have hend : ∀ r : Option (List Byte), r = none ∨ r = some [] →
          recvLoop mqd [r] = ([], false) ∧ socketReceive r = none := by
        rintro r (rfl | rfl)
        · exact ⟨rfl, rfl⟩
        · exact ⟨rfl, rfl⟩
      by_cases hr : result = none ∨ result = some []
      · obtain ⟨hloop, hnone⟩ := hend result hr
        rw [connections, if_pos hr, acceptLoop_cons hmqd, hloop, ih,
          List.filterMap_cons_none hnone]
        rfl
      · obtain ⟨chunk, rfl⟩ := Option.ne_none_iff_exists'.mp fun h => hr (Or.inl h)
        have hne : chunk ≠ [] := fun h => hr (Or.inr (congrArg some h))
        have hlen : 1 ≤ chunk.length := List.length_pos_iff.mpr hne
        rw [connections, if_neg hr, List.filterMap_cons, socketReceive_eq hne, ← ih]
        cases connections results with
        | nil =>
            rw [acceptLoop_cons hmqd, recvLoop_cons hmqd hlen]
            split_ifs <;> simp [acceptLoop, recvLoop]
        | cons c cs =>
            rw [acceptLoop_cons hmqd, acceptLoop_cons hmqd, recvLoop_cons hmqd hlen]
            split_ifs <;> simp

theorem messages_socketControlGet_eq_filterMap (results : List ReadResult) :
    socketControlGetSender.messages results =
      (results.map ReadResult.bytes).filterMap socketReceive := by
  unfold Sender.messages
  generalize socketControlGetSender.start = s
  induction results generalizing s with
  | nil => rfl
  | cons result results ih =>
      rw [Sender.messagesFrom, ih, List.map_cons, List.filterMap_cons]
      change (socketReceive result.bytes).toList ++ _ = _
      cases socketReceive result.bytes <;> rfl

/-- **`socket_control_get` alone** sends what its loops send on the connections that it accepts.
Source: `socket_interface.c` `socket_control_get`
Kind: P -/
theorem messages_socketControlGet (hmqd : mqd ≠ -1) (results : List ReadResult) :
    socketControlGetSender.messages results =
      acceptLoop mqd (connections (results.map ReadResult.bytes)) := by
  rw [messages_socketControlGet_eq_filterMap, acceptLoop_connections hmqd]

/-- It sends whole frames that one `recv` brought. -/
theorem mem_messages_socketControlGet {results : List ReadResult} {msg : List Byte}
    (h : msg ∈ socketControlGetSender.messages results) :
    (∃ code status, msg = frame code status) ∧ some msg ∈ results.map ReadResult.bytes := by
  rw [messages_socketControlGet_eq_filterMap, List.mem_filterMap] at h
  obtain ⟨result, hresult, hmsg⟩ := h
  have hne : ∃ chunk, result = some chunk ∧ chunk ≠ [] := by
    match result, hmsg with
    | some (b :: bs), _ => exact ⟨b :: bs, rfl, by simp⟩
  obtain ⟨chunk, rfl, hne⟩ := hne
  rw [socketReceive_eq hne] at hmsg
  split_ifs at hmsg with hmarked
  obtain rfl : chunk = msg := Option.some.inj hmsg
  refine ⟨?_, hresult⟩
  -- a shorter chunk is never accepted
  have hsize := length_le_of_mem_bytes hresult
  have hsix : chunk.length = 6 := by
    by_contra hshort
    rw [frameMarked_overlay_cleared_of_lt (by unfold bufSize at hsize ⊢; omega)] at hmarked
    cases hmarked
  rw [frameMarked_overlay_of_six_le _ hsix.ge] at hmarked
  exact length_six_and_frameMarked_iff.mp ⟨hsix, hmarked⟩

/-! ## `voice_get` -/

/-- **`voice_get` alone** sends what its loop sends on the results of its reads.
Source: `voice_interface.c` `voice_get`
Kind: P -/
theorem messages_voiceGet (results : List ReadResult) :
    voiceGetSender.messages results =
      voiceGet voiceBuffer (results.map ReadResult.bytes) := by
  unfold Sender.messages
  change voiceGetSender.messagesFrom voiceBuffer results = _
  generalize voiceBuffer = buffer
  induction results generalizing buffer with
  | nil => rfl
  | cons result results ih =>
      rw [Sender.messagesFrom, List.map_cons, voiceGet]
      change (voiceRead buffer result.bytes).2.toList ++
        voiceGetSender.messagesFrom (voiceRead buffer result.bytes).1 results = _
      rw [ih]
      unfold voiceRead
      simp only
      split_ifs <;> rfl

/-- It sends what single reads brought; whole frames, while no short read is completed by bytes that
were in the buffer before. -/
theorem mem_messages_voiceGet {results : List ReadResult} {msg : List Byte}
    (h : msg ∈ voiceGetSender.messages results) :
    some msg ∈ results.map ReadResult.bytes ∧ (NoShortReadCompleted (results.map ReadResult.bytes) →
      ∃ code status, msg = frame code status) := by
  rw [messages_voiceGet] at h
  obtain ⟨i, hread, hne, hmarked⟩ := mem_voiceGet_iff.mp h
  have hmem := List.mem_of_getElem? hread
  refine ⟨hmem, fun hshort => ?_⟩
  have hsize := length_le_of_mem_bytes hmem
  have hsix : msg.length = 6 := by
    by_contra hlen
    exact hshort i msg hread hne (by unfold bufSize at hsize; omega) hmarked
  exact length_six_and_frameMarked_iff.mp
    ⟨hsix, (markedAt_iff_of_six_le hread hsix.ge).mp hmarked⟩

end SmartHome.Producers
