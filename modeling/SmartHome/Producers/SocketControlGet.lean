import Mathlib.Algebra.BigOperators.Group.List.Basic
import SmartHome.Device.FrameBuffer

/-!
# `socket_control_get`: what a TCP stream puts into the queue

The loop clears its six-byte buffer, receives what the socket has (one to six bytes, or the end of
the connection), tests the markers and sends as many bytes as it received. It takes each `recv`
for one command. A chunk shorter than a frame leaves byte 5 of the cleared buffer at `0`, so it is
never accepted, and it shifts the chunks after it against the frame boundaries.

A `Connection` is what one client does: the frames it sends and the way `recv` cuts their
concatenation, with the proof that it is one. `acceptLoop_eq_frames_iff`: over any sequence of
connections the messages sent are the frames exactly when every `recv` returned six bytes.
-/

set_option autoImplicit false

namespace SmartHome.Producers

open SmartHome.Device SmartHome.Found

/-- `BUF_SIZE`. Source: `socket.h`. Kind: D -/
def bufSize : ℕ := 6

/-- The loop over one connection: the messages sent, and whether the thread exited. `none` is the
error `-1` of `recv` and `some []` the end of the connection; both leave the loop. A marked
buffer meets `mqd == -1` with `pthread_exit`.
Source: `socket_interface.c` `socket_control_get`
Kind: D -/
def recvLoop (mqd : ℤ) : List (Option (List Byte)) → List (List Byte) × Bool
  | [] => ([], false)
  | none :: _ => ([], false)
  | some [] :: _ => ([], false)
  | some (b :: bs) :: rest =>
      let buffer := overlay (b :: bs) (List.replicate bufSize 0)
      if frameMarked buffer then
        if mqd = -1 then ([], true)
        else
          let (sent, exited) := recvLoop mqd rest
          (buffer.take (b :: bs).length :: sent, exited)
      else recvLoop mqd rest

/-- The loop over the connections accepted: all messages passed to `send_message`.
Source: `socket_interface.c` `socket_control_get`
Kind: D -/
def acceptLoop (mqd : ℤ) : List (List (Option (List Byte))) → List (List Byte)
  | [] => []
  | results :: rest =>
      let (sent, exited) := recvLoop mqd results
      if exited then sent else sent ++ acceptLoop mqd rest

/-- One client's connection: the commands it sends as frames, and the chunks in which `recv`
returns their concatenation, ended by the peer's close or by an error.
Source: `socket_interface.c` `socket_control_get`
Kind: D -/
structure Connection where
  commands : List (Byte × Byte)
  chunks : List (List Byte)
  closed : Bool
  chunk_size : ∀ c ∈ chunks, 1 ≤ c.length ∧ c.length ≤ bufSize
  cut : chunks.flatten = (commands.map fun p => frame p.1 p.2).flatten

/-- The frames a connection carries. Source: none: infrastructure. Kind: D -/
def Connection.frames (c : Connection) : List (List Byte) := c.commands.map fun p => frame p.1 p.2

/-- What `recv` returns on the connection, call after call. Source: none: infrastructure. Kind: D -/
def Connection.results (c : Connection) : List (Option (List Byte)) :=
  c.chunks.map some ++ [if c.closed then some [] else none]

/-! ## One chunk -/

/-- A chunk of one to five bytes is never accepted: byte 5 of the cleared buffer is `0`.
Source: `socket_interface.c` `socket_control_get`
Kind: L -/
theorem frameMarked_overlay_cleared_of_lt {chunk : List Byte} (h : chunk.length < bufSize) :
    frameMarked (overlay chunk (List.replicate bufSize 0)) = false := by
  have hfive : byteAt (overlay chunk (List.replicate bufSize 0)) 5 = 0 := by
    apply byteAt_eq_of_getElem?
    have hnone : chunk[5]? = none := List.getElem?_eq_none (by unfold bufSize at h; omega)
    rw [getElem?_overlay, hnone, Option.none_or]
    rfl
  rw [← Bool.not_eq_true, frameMarked_iff, hfive]
  rintro ⟨-, -, -, h5⟩
  exact absurd h5 (by decide)

theorem take_overlay_length (chunk buf : List Byte) :
    (overlay chunk buf).take chunk.length = chunk := by
  rw [take_overlay buf (Nat.le_refl _), List.take_length]

/-! ## One connection -/

variable {mqd : ℤ}

/-- With a valid queue the thread does not exit. Source: `socket_interface.c` `socket_control_get`.
Kind: L -/
theorem recvLoop_not_exited (hmqd : mqd ≠ -1) (results : List (Option (List Byte))) :
    (recvLoop mqd results).2 = false := by
  induction results with
  | nil => rfl
  | cons r rest ih =>
      match r with
      | none => rfl
      | some [] => rfl
      | some (b :: bs) =>
          simp only [recvLoop, if_neg hmqd]
          split_ifs
          · exact ih
          · exact ih

/-- The next chunk of a connection with a valid queue. Source: `socket_interface.c`
`socket_control_get`. Kind: L -/
theorem recvLoop_cons (hmqd : mqd ≠ -1) {chunk : List Byte} (hne : 1 ≤ chunk.length)
    (rest : List (Option (List Byte))) :
    (recvLoop mqd (some chunk :: rest)).1 =
      (if frameMarked (overlay chunk (List.replicate bufSize 0)) then [chunk] else []) ++
        (recvLoop mqd rest).1 := by
  cases chunk with
  | nil => simp at hne
  | cons b bs =>
      simp only [recvLoop, if_neg hmqd, take_overlay_length]
      split_ifs <;> rfl

/-- The chunks the marker test accepts. Source: `socket_interface.c` `socket_control_get`. Kind: D -/
def acceptedChunks (chunks : List (List Byte)) : List (List Byte) :=
  chunks.filter fun c => frameMarked (overlay c (List.replicate bufSize 0))

/-- A connection puts the accepted chunks into the queue, in order.
Source: `socket_interface.c` `socket_control_get`
Kind: P -/
theorem recvLoop_results (hmqd : mqd ≠ -1) (c : Connection) :
    (recvLoop mqd c.results).1 = acceptedChunks c.chunks := by
  unfold Connection.results
  have hsize : ∀ chunk ∈ c.chunks, 1 ≤ chunk.length := fun chunk h => (c.chunk_size chunk h).1
  generalize c.chunks = chunks at hsize
  induction chunks with
  | nil =>
      cases c.closed
      · rfl
      · rfl
  | cons chunk chunks ih =>
      rw [List.map_cons, List.cons_append, recvLoop_cons hmqd (hsize chunk List.mem_cons_self),
        ih fun d hd => hsize d (List.mem_cons_of_mem _ hd)]
      unfold acceptedChunks
      rw [List.filter_cons]
      split_ifs <;> rfl

/-- The accepted chunks hold at most all the bytes, and all of them only if every chunk is a whole
frame.
Source: none: infrastructure
Kind: L -/
theorem acceptedChunks_bytes (chunks : List (List Byte))
    (hsize : ∀ c ∈ chunks, 1 ≤ c.length ∧ c.length ≤ bufSize) :
    bufSize * (acceptedChunks chunks).length ≤ chunks.flatten.length ∧
      (bufSize * (acceptedChunks chunks).length = chunks.flatten.length →
        ∀ c ∈ chunks, c.length = bufSize) := by
  induction chunks with
  | nil => exact ⟨Nat.le_refl _, fun _ c hc => by simp at hc⟩
  | cons chunk chunks ih =>
      obtain ⟨hpos, hle⟩ := hsize chunk List.mem_cons_self
      obtain ⟨ihle, iheq⟩ := ih fun d hd => hsize d (List.mem_cons_of_mem _ hd)
      rw [List.flatten_cons, List.length_append]
      by_cases hacc : frameMarked (overlay chunk (List.replicate bufSize 0)) = true
      · have hfull : chunk.length = bufSize := by
          by_contra hne
          have hlt : chunk.length < bufSize := by omega
          rw [frameMarked_overlay_cleared_of_lt hlt] at hacc
          cases hacc
        have hlen : (acceptedChunks (chunk :: chunks)).length =
            (acceptedChunks chunks).length + 1 := by
          simp [acceptedChunks, hacc]
        rw [hlen, hfull, Nat.mul_add, Nat.mul_one]
        refine ⟨by omega, fun heq c hc => ?_⟩
        rcases List.mem_cons.mp hc with rfl | hc
        · exact hfull
        · exact iheq (by omega) c hc
      · have hlen : (acceptedChunks (chunk :: chunks)).length = (acceptedChunks chunks).length := by
          simp [acceptedChunks, hacc]
        rw [hlen]
        exact ⟨by omega, fun heq => absurd heq (by omega)⟩

theorem length_flatten_frames (c : Connection) :
    c.chunks.flatten.length = bufSize * c.frames.length := by
  rw [c.cut]
  unfold Connection.frames
  induction c.commands with
  | nil => rfl
  | cons p ps ih =>
      simp only [List.map_cons, List.flatten_cons, List.length_append, List.length_cons, ih,
        length_frame, bufSize]
      omega

/-- Chunks that are all whole frames are the frames. Source: none: infrastructure. Kind: L -/
theorem chunks_eq_frames (c : Connection) (h : ∀ chunk ∈ c.chunks, chunk.length = bufSize) :
    c.chunks = c.frames := by
  have hframe : ∀ f ∈ c.frames, f.length = bufSize := by
    intro f hf
    obtain ⟨p, -, rfl⟩ := List.mem_map.mp hf
    rfl
  have hmap : ∀ l : List (List Byte), (∀ x ∈ l, x.length = bufSize) →
      l.map List.length = List.replicate l.length bufSize := fun l hl =>
    List.eq_replicate_iff.mpr ⟨List.length_map _, by simpa using hl⟩
  have hcount : c.chunks.length = c.frames.length := by
    have hbytes := length_flatten_frames c
    rw [List.length_flatten, hmap _ h, List.sum_replicate_nat] at hbytes
    unfold bufSize at hbytes
    omega
  rw [List.eq_iff_flatten_eq, hmap _ h, hmap _ hframe, hcount]
  exact ⟨c.cut, rfl⟩

/-- A frame is accepted. Source: none: infrastructure. Kind: L -/
theorem acceptedChunks_frames (c : Connection) : acceptedChunks c.frames = c.frames := by
  unfold acceptedChunks
  rw [List.filter_eq_self]
  intro f hf
  obtain ⟨p, -, rfl⟩ := List.mem_map.mp hf
  rw [frameMarked_overlay_of_six_le _ (by simp)]
  exact (length_six_and_frameMarked_iff.mpr ⟨p.1, p.2, rfl⟩).2

/-! ## Any number of connections -/

/-- With a valid queue every connection is served and their messages follow one another.
Source: `socket_interface.c` `socket_control_get`
Kind: L -/
theorem acceptLoop_eq (hmqd : mqd ≠ -1) (conns : List Connection) :
    acceptLoop mqd (conns.map Connection.results) =
      (conns.map fun c => acceptedChunks c.chunks).flatten := by
  induction conns with
  | nil => rfl
  | cons c conns ih =>
      have hexit := recvLoop_not_exited hmqd c.results
      simp only [List.map_cons, acceptLoop, hexit, Bool.false_eq_true, if_false, ih,
        recvLoop_results hmqd, List.flatten_cons]

/-- The messages of several connections are at most as many as the frames, and as many only if
every chunk of every connection is a whole frame.
Source: none: infrastructure
Kind: L -/
theorem length_acceptedChunks_le (conns : List Connection) :
    (conns.map fun c => acceptedChunks c.chunks).flatten.length ≤
        (conns.map Connection.frames).flatten.length ∧
      ((conns.map fun c => acceptedChunks c.chunks).flatten.length =
          (conns.map Connection.frames).flatten.length →
        ∀ c ∈ conns, ∀ chunk ∈ c.chunks, chunk.length = bufSize) := by
  induction conns with
  | nil => exact ⟨Nat.le_refl _, fun _ c hc => by simp at hc⟩
  | cons c conns ih =>
      obtain ⟨ihle, iheq⟩ := ih
      obtain ⟨hle, heq⟩ := acceptedChunks_bytes c.chunks c.chunk_size
      rw [length_flatten_frames] at hle heq
      have hone : (acceptedChunks c.chunks).length ≤ c.frames.length :=
        Nat.le_of_mul_le_mul_left hle (by decide)
      simp only [List.map_cons, List.flatten_cons, List.length_append]
      refine ⟨by omega, fun htotal d hd => ?_⟩
      rcases List.mem_cons.mp hd with rfl | hd
      · exact heq (by rw [show (acceptedChunks d.chunks).length = d.frames.length by omega])
      · exact iheq (by omega) d hd

/-- **When the commands survive the cutting of the stream**: over any sequence of connections the
messages passed to `send_message` are the frames sent, in order, if and only if every `recv`
returned one whole frame's worth of bytes.
Source: `socket_interface.c` `socket_control_get`
Kind: P -/
theorem acceptLoop_eq_frames_iff (hmqd : mqd ≠ -1) (conns : List Connection) :
    acceptLoop mqd (conns.map Connection.results) = (conns.map Connection.frames).flatten ↔
      ∀ c ∈ conns, ∀ chunk ∈ c.chunks, chunk.length = bufSize := by
  rw [acceptLoop_eq hmqd]
  constructor
  · intro h
    exact (length_acceptedChunks_le conns).2 (congrArg List.length h)
  · intro h
    congr 1
    apply List.map_congr_left
    intro c hc
    rw [chunks_eq_frames c (h c hc), acceptedChunks_frames]

/-- A frame that `recv` returns in two halves. Source: none: infrastructure. Kind: D -/
def halvedConnection : Connection where
  commands := [(0x41, 0)]
  chunks := [[0xAA, 0x55, 0x41], [0, 0x55, 0xAA]]
  closed := true
  chunk_size := by decide
  cut := by decide

/-- The condition on a connection of one frame in two halves, with a valid queue.
Source: `socket_interface.c` `socket_control_get`
Kind: L -/
theorem acceptLoop_eq_frames_iff_halved :
    acceptLoop 3 ([halvedConnection].map Connection.results) =
        ([halvedConnection].map Connection.frames).flatten ↔
      ∀ c ∈ [halvedConnection], ∀ chunk ∈ c.chunks, chunk.length = bufSize :=
  acceptLoop_eq_frames_iff (by decide) [halvedConnection]

/-- A frame received in two halves never reaches the queue.
Source: `socket_interface.c` `socket_control_get`
Kind: L -/
theorem socket_control_get_loses_halved_frame :
    ¬ ∀ (mqd : ℤ) (conns : List Connection), mqd ≠ -1 →
      acceptLoop mqd (conns.map Connection.results) =
        (conns.map Connection.frames).flatten := by
  intro h
  have hlost : acceptLoop 3 ([halvedConnection].map Connection.results) = [] := by decide
  have hsent := h 3 [halvedConnection] (by decide)
  rw [hlost] at hsent
  exact absurd hsent (by decide)

end SmartHome.Producers
