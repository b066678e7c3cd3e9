import SmartHome.Device.FrameBuffer

/-!
# `voice_get`: what the serial line puts into the queue

`voice_get` reads up to six bytes at a time (`VMIN` is `0`, so a read may bring fewer, or none)
into a buffer that starts as a frame and is never cleared, tests the markers of the buffer, and
sends as many bytes as the read brought. A message sent is therefore what one read brought, at a
moment when the buffer carried the markers (`mem_voiceGet_iff`).

`neverInvents_iff`: every message is a frame of six consecutive bytes of the serial stream exactly
as long as no read of one to five bytes comes when the latest bytes at the marker positions, those
of the initial buffer included, are the markers.
-/

set_option autoImplicit false

namespace SmartHome.Producers

open SmartHome.Device SmartHome.Found

/-- The initial value of `buffer`.
Source: `voice_interface.c` `voice_get`
Kind: D -/
def voiceBuffer : List Byte := [0xAA, 0x55, 0x00, 0x00, 0x55, 0xAA]

/-- `serialGetstring(serial_fd, buffer)`: the count returned and the buffer. `none` is the error
`-1`.
Source: `uartTool.c` `serialGetstring`
Kind: D -/
def serialGetstring (readResult : Option (List Byte)) (buffer : List Byte) : ℤ × List Byte :=
  match readResult with
  | none => (-1, buffer)
  | some bytes => (bytes.length, overlay bytes buffer)

/-- The messages `voice_get` passes to `send_message`, given the results of its reads.
Source: `voice_interface.c` `voice_get`
Kind: D -/
def voiceGet (buffer : List Byte) : List (Option (List Byte)) → List (List Byte)
  | [] => []
  | readResult :: rest =>
      let (len, buffer) := serialGetstring readResult buffer
      if 0 < len ∧ frameMarked buffer = true then buffer.take len.toNat :: voiceGet buffer rest
      else voiceGet buffer rest

/-- **The messages are reads**: `voice_get` sends what a read brought, when that is not nothing and
the buffer then carries the markers.
Source: `voice_interface.c` `voice_get`
Kind: P -/
theorem mem_voiceGet_iff {buffer : List Byte} {reads : List (Option (List Byte))} {m : List Byte} :
    m ∈ voiceGet buffer reads ↔
      ∃ i, reads[i]? = some (some m) ∧ m ≠ [] ∧ MarkedAt buffer reads i := by
  induction reads generalizing buffer with
  | nil => simp [voiceGet]
  | cons readResult reads ih =>
      have htail : m ∈ voiceGet (fill buffer readResult.toList) reads ↔
          ∃ i, (readResult :: reads)[i + 1]? = some (some m) ∧ m ≠ [] ∧
            MarkedAt buffer (readResult :: reads) (i + 1) := by
        simp only [ih, List.getElem?_cons_succ, markedAt_cons_succ]
      have hhead : m ∈ voiceGet buffer (readResult :: reads) ↔
          ((readResult :: reads)[0]? = some (some m) ∧ m ≠ [] ∧
            MarkedAt buffer (readResult :: reads) 0) ∨
          m ∈ voiceGet (fill buffer readResult.toList) reads := by
        cases readResult with
        | none => simp [voiceGet, serialGetstring]
        | some bytes =>
            have htake : (overlay bytes buffer).take bytes.length = bytes := by
              rw [take_overlay buffer (Nat.le_refl _), List.take_length]
            have hlen : (0 : ℤ) < bytes.length ↔ bytes ≠ [] := by
              rw [Int.natCast_pos, List.length_pos_iff]
            simp only [voiceGet, serialGetstring, hlen, Int.toNat_natCast, htake]
            rw [markedAt_cons_zero]
            split_ifs with hsend
            · rw [List.mem_cons]
              refine or_congr_left ⟨?_, ?_⟩
              · rintro rfl
                exact ⟨rfl, hsend⟩
              · rintro ⟨h, -⟩
                cases h
                rfl
            · refine ⟨Or.inr, ?_⟩
              rintro (⟨h, hm⟩ | h)
              · cases h
                exact absurd hm hsend
              · exact h
      rw [hhead, htail]
      constructor
      · rintro (h | ⟨i, h⟩)
        · exact ⟨0, h⟩
        · exact ⟨i + 1, h⟩
      · rintro ⟨_ | i, h⟩
        · exact Or.inl h
        · exact Or.inr ⟨i, h⟩

/-- **The voice module never invents a command**: every message it sends is a frame of six
consecutive bytes of the serial stream.
Source: none: the purpose of `voice_get`. Kind: D -/
def NeverInvents (stream : List Byte) (reads : List (Option (List Byte))) : Prop :=
  ∀ m ∈ voiceGet voiceBuffer reads, m.length = 6 ∧ frameMarked m = true ∧ m <:+: stream

/-- No read of one to five bytes comes when the latest bytes of the reads so far, its own included,
are the markers.
Source: none: the condition on the reads. Kind: D -/
def NoShortReadCompleted (reads : List (Option (List Byte))) : Prop :=
  ∀ i bytes, reads[i]? = some (some bytes) → bytes ≠ [] → bytes.length < 6 →
    ¬ MarkedAt voiceBuffer reads i

/-- **When `voice_get` never invents a command**: for reads of at most six bytes that deliver the
front of the stream, exactly when no short read is completed to a marked frame by bytes of earlier
reads or of the initial buffer.
Source: `voice_interface.c` `voice_get`
Kind: P -/
theorem neverInvents_iff (stream : List Byte) (reads : List (Option (List Byte)))
    (hsize : ∀ bytes ∈ received reads, bytes.length ≤ 6)
    (hstream : (received reads).flatten <+: stream) :
    NeverInvents stream reads ↔ NoShortReadCompleted reads := by
  constructor
  · intro h i bytes hread hne hlen hmarked
    have hsix := (h bytes (mem_voiceGet_iff.mpr ⟨i, hread, hne, hmarked⟩)).1
    omega
  · intro h m hm
    obtain ⟨i, hread, hne, hmarked⟩ := mem_voiceGet_iff.mp hm
    have hmem : m ∈ received reads :=
      List.mem_filterMap.mpr ⟨some m, List.mem_of_getElem? hread, rfl⟩
    have hsix : m.length = 6 := by
      have hle := hsize m hmem
      by_contra hlen
      exact h i m hread hne (by omega) hmarked
    exact ⟨hsix, (markedAt_iff_of_six_le hread (by omega)).mp hmarked,
      (List.infix_of_mem_flatten hmem).trans hstream.isInfix⟩

/-- Two frames, each in one read, with a read without data and two stray bytes between them: the
frames are sent, and nothing else.
Source: `voice_interface.c` `voice_get`
Kind: L -/
theorem neverInvents_iff_strayBytes :
    voiceGet voiceBuffer [some (frame 0x41 0), none, some [0, 0x55], some (frame 0x42 1)] =
        [frame 0x41 0, frame 0x42 1] ∧
      NeverInvents (frame 0x41 0 ++ [0, 0x55] ++ frame 0x42 1)
        [some (frame 0x41 0), none, some [0, 0x55], some (frame 0x42 1)] := by
  refine ⟨by decide, (neverInvents_iff _ _ (by decide) (by decide)).mpr ?_⟩
  intro i bytes hread hne hlen
  match i with
  | 0 | 3 =>
      cases hread
      exact absurd hlen (by decide)
  | 1 => cases hread
  | 2 =>
      cases hread
      unfold MarkedAt LatestMarked
      decide
  | i + 4 => cases hread

/-- The first byte of a frame, read alone, is sent at once as a message of one byte: the initial
buffer completes it.
Source: `voice_interface.c` `voice_get`
Kind: L -/
theorem voice_get_sends_partial_read :
    ¬ ∀ (stream : List Byte) (reads : List (Option (List Byte))),
      (∀ bytes ∈ received reads, bytes.length ≤ 6) → (received reads).flatten <+: stream →
        NeverInvents stream reads := by
  intro h
  have hsent := h (frame 0x41 0) [some [0xAA], some [0x55, 0x41, 0, 0x55, 0xAA]] (by decide)
    (by decide) [0xAA] (by decide)
  exact absurd hsent.1 (by decide)

end SmartHome.Producers
