import SmartHome.Device.FrameBuffer
import SmartHome.Found.Runs

/-!
# `receive_get`: which results of `mq_receive` start a handler

The loop of `receive_get` takes three steps on a message: `mq_receive` writes it over the local
`buffer` and the markers are tested (`mqReceive`); `memcpy` copies `receive_len` bytes of the
buffer to `receive_msg->buffer` (`memcpyFrame`); `pthread_create` starts a handler. Both buffers
are cleared once, before the loop. Between any two steps a handler started earlier may store to
`receive_msg->buffer[2]`.

`ReceiveRun` is the thread with the shared buffer and what an observer records: the results so
far, and for each handler started the number of the result it was started for and the bytes 2
and 3 that `memcpy` placed for it. The invariant `Consistent` says which numbers these are: those
of the results at which the *buffer* carries the markers.

`actsOnOwn_iff` compares this with what the loop is for. It acts on the message's own bytes
(`ActsOnOwn`) exactly as long as no message shorter than six bytes completes the markers that
earlier messages left (`NoShortMessageCompleted`); `receive_get` does not look at `receive_len`
before it tests the buffer.
-/

set_option autoImplicit false

namespace SmartHome.Queue

open SmartHome.Device SmartHome.Found

/-! ## The thread -/

/-- `attr.mq_msgsize`, the size of both buffers.
Source: `msg_queue.c` `create_mqd`
Kind: D -/
def mqMsgsize : ℕ := 256

/-- A buffer after `memset(buffer, 0, receive_msg->msg_len)`.
Source: `receive_interface.c` `receive_get`
Kind: D -/
def clearedBuffer : List Byte := List.replicate mqMsgsize 0

/-- Where the loop of `receive_get` stands: before `mq_receive`, after a message whose buffer passed
the marker test, or after the `memcpy`.
Source: `receive_interface.c` `receive_get`
Kind: D -/
inductive RecvPc where
  | receiving
  | marked
  | copied
deriving DecidableEq, Repr

/-- The local variables of `receive_get`.
Source: `receive_interface.c` `receive_get`
Kind: D -/
structure ReceiveGet where
  pc : RecvPc
  receiveLen : ℤ
  buffer : List Byte
deriving DecidableEq, Repr

/-- The thread before its first iteration.
Source: `receive_interface.c` `receive_get`
Kind: D -/
def ReceiveGet.init : ReceiveGet := ⟨.receiving, -1, clearedBuffer⟩

/-- `mq_receive` returns: `none` is the error `-1`, which leaves the buffer alone; a message is
written to the front of the buffer, and the buffer is tested.
Source: `receive_interface.c` `receive_get`
Kind: D -/
def mqReceive (result : Option (List Byte)) (t : ReceiveGet) : ReceiveGet :=
  match result with
  | none => { t with receiveLen := -1 }
  | some msg =>
      let buffer := overlay msg t.buffer
      { pc := if frameMarked buffer then .marked else .receiving
        receiveLen := msg.length
        buffer := buffer }

/-- `memcpy(receive_msg->buffer, buffer, receive_len)`.
Source: `receive_interface.c` `receive_get`
Kind: D -/
def memcpyFrame (t : ReceiveGet) (dst : List Byte) : List Byte :=
  overlay (t.buffer.take t.receiveLen.toNat) dst

/-- A copied message of four bytes or more puts its own bytes 2 and 3 into the shared buffer.
Source: none: infrastructure. Kind: L -/
theorem byteAt_memcpyFrame {msg buf dst : List Byte} {pc : RecvPc} {k : ℕ} (hk : k < msg.length) :
    byteAt (memcpyFrame ⟨pc, msg.length, overlay msg buf⟩ dst) k = byteAt msg k := by
  unfold memcpyFrame
  rw [Int.toNat_natCast, take_overlay buf le_rfl, List.take_length]
  exact byteAt_overlay_of_lt dst hk

/-! ## Its runs -/

/-- What happens: `mq_receive` returns, `memcpy`, `pthread_create`, or an earlier handler stores a
byte to `receive_msg->buffer[2]`.
Source: `receive_interface.c` `receive_get`, `receive_thread_handler`
Kind: D -/
inductive ReceiveAct where
  | mqReceive (result : Option (List Byte))
  | memcpy
  | pthreadCreate
  | rewrite (code : Byte)
deriving DecidableEq, Repr

/-- The thread, `receive_msg->buffer`, and the record of an observer: the results so far, the bytes
2 and 3 placed by the last `memcpy`, and the handlers started.
Source: `receive_interface.c` `receive_get`
Kind: D -/
structure ReceiveRun where
  thread : ReceiveGet
  shared : List Byte
  results : List (Option (List Byte))
  placed : Byte × Byte
  started : List (ℕ × Byte × Byte)
deriving DecidableEq, Repr

/-- Before the first iteration.
Source: `receive_interface.c` `receive_get`
Kind: D -/
def ReceiveRun.init : ReceiveRun :=
  ⟨ReceiveGet.init, clearedBuffer, [], (0, 0), []⟩

/-- One step; a step the loop is not ready for changes nothing.
Source: `receive_interface.c` `receive_get`
Kind: D -/
def ReceiveRun.step (s : ReceiveRun) : ReceiveAct → ReceiveRun
  | .mqReceive result =>
      if s.thread.pc = .receiving then
        { s with thread := Queue.mqReceive result s.thread, results := s.results ++ [result] }
      else s
  | .memcpy =>
      if s.thread.pc = .marked then
        let shared := memcpyFrame s.thread s.shared
        { s with
          thread := { s.thread with pc := .copied }
          shared := shared
          placed := (byteAt shared 2, byteAt shared 3) }
      else s
  | .pthreadCreate =>
      if s.thread.pc = .copied then
        { s with
          thread := { s.thread with pc := .receiving }
          started := s.started ++ [(s.results.length - 1, s.placed)] }
      else s
  | .rewrite code => { s with shared := s.shared.set 2 code }

/-! ## The loop's purpose, and the condition under which it is met -/

/-- **The loop acts only on what it received**: it starts a handler for a result exactly when that is
a message of at least six bytes whose own bytes carry the markers, and what it places for the
handler are that message's bytes 2 and 3.
Source: none: the purpose of `receive_get`. Kind: D -/
def ActsOnOwn (s : ReceiveRun) : Prop :=
  ∀ i result, s.results[i]? = some result →
    ((∃ p, (i, p) ∈ s.started) ↔
      ∃ msg, result = some msg ∧ 6 ≤ msg.length ∧ frameMarked msg = true) ∧
    ∀ p, (i, p) ∈ s.started → ∃ msg, result = some msg ∧ p = (byteAt msg 2, byteAt msg 3)

/-- No message shorter than six bytes arrives when the latest bytes of the messages so far, its own
included, are the markers.
Source: none: the condition on the messages. Kind: D -/
def NoShortMessageCompleted (results : List (Option (List Byte))) : Prop :=
  ∀ i msg, results[i]? = some (some msg) → msg.length < 6 → ¬ MarkedAt clearedBuffer results i

/-! ## What the loop really does -/

/-- The result numbers at which the buffer is found marked. Source: none: infrastructure. Kind: D -/
def FoundMarked (results : List (Option (List Byte))) (i : ℕ) : Prop :=
  (∃ msg, results[i]? = some (some msg)) ∧ MarkedAt clearedBuffer results i

theorem foundMarked_append_of_lt {results : List (Option (List Byte))} {i : ℕ}
    (h : i < results.length) (more : List (Option (List Byte))) :
    FoundMarked (results ++ more) i ↔ FoundMarked results i := by
  unfold FoundMarked
  rw [markedAt_append_of_lt h, List.getElem?_append_left h]

/-- A handler started for a long enough message was given that message's bytes.
Source: none: infrastructure. Kind: D -/
def PlacedOwn (results : List (Option (List Byte))) (i : ℕ) (p : Byte × Byte) : Prop :=
  ∃ msg, results[i]? = some (some msg) ∧
    (6 ≤ msg.length → p = (byteAt msg 2, byteAt msg 3))

/-- The results the loop has dealt with: all but the one in hand. Source: none: infrastructure.
Kind: D -/
def ReceiveRun.dealtWith (s : ReceiveRun) : ℕ :=
  if s.thread.pc = .receiving then s.results.length else s.results.length - 1

/-- The invariant of the loop.
Source: `receive_interface.c` `receive_get`
Kind: D -/
structure Consistent (s : ReceiveRun) : Prop where
  buffer : s.thread.buffer = fill clearedBuffer (received s.results)
  started : ∀ i, (∃ p, (i, p) ∈ s.started) ↔ i < s.dealtWith ∧ FoundMarked s.results i
  placed : ∀ i p, (i, p) ∈ s.started → PlacedOwn s.results i p
  inHand : s.thread.pc ≠ .receiving → ∃ earlier msg buf, s.results = earlier ++ [some msg] ∧
    s.thread = ⟨s.thread.pc, msg.length, overlay msg buf⟩ ∧
    MarkedAt clearedBuffer s.results earlier.length ∧
    (s.thread.pc = .copied → 6 ≤ msg.length → s.placed = (byteAt msg 2, byteAt msg 3))

theorem consistent_init : Consistent ReceiveRun.init where
  buffer := rfl
  started i := by simp [ReceiveRun.init, ReceiveRun.dealtWith, ReceiveGet.init]
  placed i p h := by simp [ReceiveRun.init] at h
  inHand h := absurd rfl h

/-- `mq_receive` returns. Source: `receive_interface.c` `receive_get`. Kind: L -/
theorem consistent_mqReceive {s : ReceiveRun} (h : Consistent s) (hpc : s.thread.pc = .receiving)
    (result : Option (List Byte)) :
    Consistent { s with
      thread := mqReceive result s.thread, results := s.results ++ [result] } := by
  have hstarted : ∀ i, (∃ p, (i, p) ∈ s.started) ↔
      i < s.results.length ∧ FoundMarked (s.results ++ [result]) i := by
    intro i
    rw [h.started i]
    simp only [ReceiveRun.dealtWith, hpc, if_true]
    exact and_congr_right fun hi => (foundMarked_append_of_lt hi _).symm
  have hplaced : ∀ i p, (i, p) ∈ s.started → PlacedOwn (s.results ++ [result]) i p := by
    intro i p hp
    obtain ⟨msg, hmsg, hown⟩ := h.placed i p hp
    have hi := (List.getElem?_eq_some_iff.mp hmsg).1
    exact ⟨msg, by rw [List.getElem?_append_left hi, hmsg], hown⟩
  have hlast : (s.results ++ [result])[s.results.length]? = some result := by simp
  -- a result at which the buffer is not marked is dealt with at once, and starts nothing
  have hskip : ¬ FoundMarked (s.results ++ [result]) s.results.length →
      ∀ i, (∃ p, (i, p) ∈ s.started) ↔
        i < s.results.length + 1 ∧ FoundMarked (s.results ++ [result]) i := by
    intro hnot i
    rw [hstarted i]
    refine ⟨fun hi => ⟨Nat.lt_succ_of_lt hi.1, hi.2⟩, fun hi => ⟨?_, hi.2⟩⟩
    rcases Nat.lt_succ_iff_lt_or_eq.mp hi.1 with hlt | rfl
    · exact hlt
    · exact absurd hi.2 hnot
  cases result with
  | none =>
      have hnot : ¬ FoundMarked (s.results ++ [none]) s.results.length := by
        rintro ⟨⟨msg, hmsg⟩, -⟩
        rw [hlast] at hmsg
        cases hmsg
      refine ⟨?_, fun i => ?_, hplaced, fun hne => absurd hpc hne⟩
      · simp only [mqReceive, received_concat, Option.toList_none, List.append_nil, h.buffer]
      · simpa [ReceiveRun.dealtWith, mqReceive, hpc] using hskip hnot i
  | some msg =>
      have hbuffer : overlay msg s.thread.buffer =
          fill clearedBuffer (received (s.results ++ [some msg])) := by
        rw [received_concat, Option.toList_some, fill_concat, h.buffer]
      have hmark : frameMarked (overlay msg s.thread.buffer) = true ↔
          MarkedAt clearedBuffer (s.results ++ [some msg]) s.results.length := by
        rw [hbuffer, frameMarked_fill_iff, markedAt_concat]
      by_cases hm : frameMarked (overlay msg s.thread.buffer) = true
      · refine ⟨hbuffer, fun i => ?_, hplaced, fun _ => ?_⟩
        · simpa [ReceiveRun.dealtWith, mqReceive, hm] using hstarted i
        · refine ⟨s.results, msg, s.thread.buffer, rfl, ?_, hmark.mp hm, fun hc => ?_⟩
          · simp [mqReceive, hm]
          · simp [mqReceive, hm] at hc
      · have hnot : ¬ FoundMarked (s.results ++ [some msg]) s.results.length :=
          fun hf => hm (hmark.mpr hf.2)
        refine ⟨hbuffer, fun i => ?_, hplaced, fun hne => ?_⟩
        · simpa [ReceiveRun.dealtWith, mqReceive, hm] using hskip hnot i
        · simp [mqReceive, hm] at hne

/-- The `memcpy`. Source: `receive_interface.c` `receive_get`. Kind: L -/
theorem consistent_memcpy {s : ReceiveRun} (h : Consistent s) (hpc : s.thread.pc = .marked) :
    Consistent { s with
      thread := { s.thread with pc := .copied }
      shared := memcpyFrame s.thread s.shared
      placed := (byteAt (memcpyFrame s.thread s.shared) 2,
        byteAt (memcpyFrame s.thread s.shared) 3) } := by
  refine ⟨h.buffer, fun i => ?_, h.placed, fun _ => ?_⟩
  · simpa [ReceiveRun.dealtWith, hpc] using h.started i
  · obtain ⟨earlier, msg, buf, hresults, hthread, hmarked, -⟩ := h.inHand (by simp [hpc])
    refine ⟨earlier, msg, buf, hresults, ?_, hmarked, fun _ hlen => ?_⟩
    · rw [hthread]
    · rw [hthread, byteAt_memcpyFrame (by omega), byteAt_memcpyFrame (by omega)]

/-- The `pthread_create`. Source: `receive_interface.c` `receive_get`. Kind: L -/
theorem consistent_pthreadCreate {s : ReceiveRun} (h : Consistent s) (hpc : s.thread.pc = .copied) :
    Consistent { s with
      thread := { s.thread with pc := .receiving }
      started := s.started ++ [(s.results.length - 1, s.placed)] } := by
  obtain ⟨earlier, msg, buf, hresults, hthread, hmarked, hown⟩ := h.inHand (by simp [hpc])
  have hlen : s.results.length = earlier.length + 1 := by simp [hresults]
  have hmsg : s.results[earlier.length]? = some (some msg) := by simp [hresults]
  refine ⟨h.buffer, fun i => ?_, ?_, fun hne => absurd rfl hne⟩
  · have hold := h.started i
    simp only [ReceiveRun.dealtWith, hpc, hlen] at hold
    simp only [List.mem_append, List.mem_singleton, Prod.mk.injEq, ReceiveRun.dealtWith, hlen,
      if_true, Nat.add_sub_cancel]
    constructor
    · rintro ⟨p, hp | ⟨rfl, -⟩⟩
      · obtain ⟨hi, hf⟩ := hold.mp ⟨p, hp⟩
        exact ⟨by simp at hi; omega, hf⟩
      · exact ⟨by omega, ⟨msg, hmsg⟩, hmarked⟩
    · rintro ⟨hi, hf⟩
      rcases Nat.lt_succ_iff_lt_or_eq.mp hi with hlt | rfl
      · obtain ⟨p, hp⟩ := hold.mpr ⟨by simpa using hlt, hf⟩
        exact ⟨p, Or.inl hp⟩
      · exact ⟨s.placed, Or.inr ⟨rfl, rfl⟩⟩
  · intro i p hp
    rw [List.mem_append, List.mem_singleton, Prod.mk.injEq, hlen, Nat.add_sub_cancel] at hp
    rcases hp with hp | ⟨rfl, rfl⟩
    · exact h.placed i p hp
    · exact ⟨msg, hmsg, hown hpc⟩

/-- Every step keeps the invariant. Source: `receive_interface.c` `receive_get`. Kind: L -/
theorem consistent_step (s : ReceiveRun) (a : ReceiveAct) (h : Consistent s) :
    Consistent (s.step a) := by
  cases a with
  | mqReceive result =>
      simp only [ReceiveRun.step]
      split_ifs with hpc
      · exact consistent_mqReceive h hpc result
      · exact h
  | memcpy =>
      simp only [ReceiveRun.step]
      split_ifs with hpc
      · exact consistent_memcpy h hpc
      · exact h
  | pthreadCreate =>
      simp only [ReceiveRun.step]
      split_ifs with hpc
      · exact consistent_pthreadCreate h hpc
      · exact h
  | rewrite code => exact ⟨h.buffer, h.started, h.placed, h.inHand⟩

/-- Every run keeps the invariant. Source: `receive_interface.c` `receive_get`. Kind: L -/
theorem consistent_run (acts : List ReceiveAct) :
    Consistent (run ReceiveRun.step ReceiveRun.init acts) :=
  run_invariant consistent_step consistent_init acts

/-! ## Comparison -/

/-- **When `receive_get` acts only on what it received**: in a state where it is back at
`mq_receive`, it has done so for every result so far if and only if no message shorter than six
bytes was completed to a marked frame by the bytes of earlier messages.
Source: `receive_interface.c` `receive_get`
Kind: P -/
theorem actsOnOwn_iff (acts : List ReceiveAct)
    (hpc : (run ReceiveRun.step ReceiveRun.init acts).thread.pc = .receiving) :
    ActsOnOwn (run ReceiveRun.step ReceiveRun.init acts) ↔
      NoShortMessageCompleted (run ReceiveRun.step ReceiveRun.init acts).results := by
  have h := consistent_run acts
  generalize run ReceiveRun.step ReceiveRun.init acts = s at h hpc
  have hstarted : ∀ i, (∃ p, (i, p) ∈ s.started) ↔ FoundMarked s.results i := by
    intro i
    rw [h.started i, ReceiveRun.dealtWith, if_pos hpc]
    exact and_iff_right_of_imp fun hf => (List.getElem?_eq_some_iff.mp hf.1.choose_spec).1
  constructor
  · intro hown i msg hmsg hlen hmarked
    obtain ⟨msg', hmsg', hlen', -⟩ :=
      (hown i (some msg) hmsg).1.mp ((hstarted i).mpr ⟨⟨msg, hmsg⟩, hmarked⟩)
    cases hmsg'
    omega
  · intro hshort i result hresult
    have hlong : ∀ msg, result = some msg → FoundMarked s.results i → 6 ≤ msg.length := by
      rintro msg rfl hf
      by_contra hlen
      exact hshort i msg hresult (by omega) hf.2
    refine ⟨?_, fun p hp => ?_⟩
    · rw [hstarted i]
      constructor
      · intro hf
        obtain ⟨msg, hmsg⟩ := hf.1
        obtain rfl : result = some msg := Option.some.inj (hresult.symm.trans hmsg)
        have hlen := hlong msg rfl hf
        exact ⟨msg, rfl, hlen, (markedAt_iff_of_six_le hmsg hlen).mp hf.2⟩
      · rintro ⟨msg, rfl, hlen, hmark⟩
        exact ⟨⟨msg, hresult⟩, (markedAt_iff_of_six_le hresult hlen).mpr hmark⟩
    · obtain ⟨msg, hmsg, hplaced⟩ := h.placed i p hp
      obtain rfl : result = some msg := Option.some.inj (hresult.symm.trans hmsg)
      exact ⟨msg, rfl, hplaced (hlong msg rfl ((hstarted i).mp ⟨p, hp⟩))⟩

/-- Two whole frames, and between them a short message, a failed `mq_receive` and the reply of a face
check.
Source: none: a run. Kind: D -/
def shortBetween : List ReceiveAct :=
  [.mqReceive (some (frame 0x44 0)), .memcpy, .pthreadCreate, .mqReceive (some [0, 0x55]),
    .rewrite 0x47, .mqReceive none, .mqReceive (some (frame 0x42 1)), .memcpy, .pthreadCreate]

/-- The short message is not completed, and both frames are acted on as they are.
Source: `receive_interface.c` `receive_get`
Kind: L -/
theorem actsOnOwn_iff_shortBetween :
    (run ReceiveRun.step ReceiveRun.init shortBetween).started = [(0, 0x44, 0), (3, 0x42, 1)] ∧
      ActsOnOwn (run ReceiveRun.step ReceiveRun.init shortBetween) := by
  have hresults : (run ReceiveRun.step ReceiveRun.init shortBetween).results =
      [some (frame 0x44 0), some [0, 0x55], none, some (frame 0x42 1)] := by decide +kernel
  refine ⟨by decide +kernel, (actsOnOwn_iff shortBetween (by decide +kernel)).mpr ?_⟩
  rw [hresults]
  intro i msg hmsg hlen
  match i with
  | 0 | 3 =>
      cases hmsg
      exact absurd hlen (by decide)
  | 1 =>
      cases hmsg
      unfold MarkedAt LatestMarked
      decide
  | 2 => cases hmsg
  | i + 4 => cases hmsg

/-- After a whole frame, a message of the single byte `AA` starts a second handler.
Source: `receive_interface.c` `receive_get`
Kind: L -/
theorem receive_get_acts_on_stale_bytes :
    ¬ ∀ acts : List ReceiveAct,
      (run ReceiveRun.step ReceiveRun.init acts).thread.pc = .receiving →
        ActsOnOwn (run ReceiveRun.step ReceiveRun.init acts) := by
  intro h
  have hown := h [.mqReceive (some (frame 0x41 0)), .memcpy, .pthreadCreate,
    .mqReceive (some [0xAA]), .memcpy, .pthreadCreate] (by decide +kernel)
  obtain ⟨msg, hmsg, hlen, -⟩ := (hown 1 (some [0xAA]) (by decide +kernel)).1.mp
    ⟨(0x41, 0), by decide +kernel⟩
  cases hmsg
  exact absurd hlen (by decide)

end SmartHome.Queue
