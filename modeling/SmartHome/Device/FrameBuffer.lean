import SmartHome.Device.Frame
import SmartHome.Found.Overlay

/-!
# The marker test on a reused buffer

`receive_get` and `voice_get` read every message into one buffer that they never clear, and apply
the marker test to the buffer. `latestByte init msgs k` says, from the messages alone, what the
test sees at position `k`: the `k`-th byte of the last message that has one, or the initial byte.
A message of six bytes or more is seen as it is (`frameMarked_overlay_of_six_le`); a shorter one is
completed by bytes of earlier messages.
-/

set_option autoImplicit false

namespace SmartHome.Device

open SmartHome.Found

/-- The byte at position `k` of a buffer that held `init` and then received `msgs`: that of the last
message long enough to have one.
Source: none: the condition on the messages. Kind: D -/
def latestByte (init : List Byte) (msgs : List (List Byte)) (k : ℕ) : Byte :=
  ((lastOf (fun msg => msg[k]?) msgs).or init[k]?).getD 0

/-- The latest bytes at the four marker positions are the markers.
Source: none: the condition on the messages. Kind: D -/
def LatestMarked (init : List Byte) (msgs : List (List Byte)) : Prop :=
  latestByte init msgs 0 = 0xAA ∧ latestByte init msgs 1 = 0x55 ∧
    latestByte init msgs 4 = 0x55 ∧ latestByte init msgs 5 = 0xAA

theorem byteAt_fill (init : List Byte) (msgs : List (List Byte)) (k : ℕ) :
    byteAt (fill init msgs) k = latestByte init msgs k := by
  unfold byteAt latestByte
  rw [List.getD_eq_getElem?_getD, getElem?_fill]

/-- What the marker test on the reused buffer amounts to. Source: none: infrastructure. Kind: L -/
theorem frameMarked_fill_iff {init : List Byte} {msgs : List (List Byte)} :
    frameMarked (fill init msgs) = true ↔ LatestMarked init msgs := by
  rw [frameMarked_iff]
  simp only [byteAt_fill, LatestMarked]

theorem byteAt_overlay_of_lt {msg : List Byte} (buf : List Byte) {k : ℕ} (h : k < msg.length) :
    byteAt (overlay msg buf) k = byteAt msg k := by
  unfold byteAt
  rw [List.getD_eq_getElem?_getD, List.getD_eq_getElem?_getD, getElem?_overlay,
    List.getElem?_eq_getElem h]
  rfl

/-- A message of at least six bytes is tested on its own bytes. Source: none: infrastructure.
Kind: L -/
theorem frameMarked_overlay_of_six_le {msg : List Byte} (buf : List Byte) (h : 6 ≤ msg.length) :
    frameMarked (overlay msg buf) = frameMarked msg := by
  simp only [frameMarked, byteAt_overlay_of_lt buf (show 0 < msg.length by omega),
    byteAt_overlay_of_lt buf (show 1 < msg.length by omega),
    byteAt_overlay_of_lt buf (show 4 < msg.length by omega),
    byteAt_overlay_of_lt buf (show 5 < msg.length by omega)]

/-! ## Sequences of reads

A read returns a message or fails (`none`); a failed read leaves the buffer alone. -/

/-- The messages among the results of a sequence of reads. Source: none: infrastructure. Kind: D -/
def received (results : List (Option (List Byte))) : List (List Byte) := results.filterMap id

/-- After read number `i` the buffer carries the markers: the latest bytes of the messages so far,
the `i`-th included, do.
Source: none: the condition on the messages. Kind: D -/
def MarkedAt (init : List Byte) (results : List (Option (List Byte))) (i : ℕ) : Prop :=
  LatestMarked init (received (results.take (i + 1)))

variable {init : List Byte} {results : List (Option (List Byte))}

theorem received_concat (results : List (Option (List Byte))) (result : Option (List Byte)) :
    received (results ++ [result]) = received results ++ result.toList := by
  cases result <;> simp [received]

/-- Later reads do not matter. Source: none: infrastructure. Kind: L -/
theorem markedAt_append_of_lt {i : ℕ} (h : i < results.length)
    (more : List (Option (List Byte))) :
    MarkedAt init (results ++ more) i ↔ MarkedAt init results i := by
  unfold MarkedAt
  rw [List.take_append_of_le_length (by omega)]

theorem markedAt_concat (init : List Byte) (results : List (Option (List Byte)))
    (result : Option (List Byte)) :
    MarkedAt init (results ++ [result]) results.length ↔
      LatestMarked init (received (results ++ [result])) := by
  unfold MarkedAt
  rw [List.take_of_length_le (by simp)]

/-- The test at the first message. Source: none: infrastructure. Kind: L -/
theorem markedAt_cons_zero (init msg : List Byte) (results : List (Option (List Byte))) :
    MarkedAt init (some msg :: results) 0 ↔ frameMarked (overlay msg init) = true := by
  unfold MarkedAt
  rw [← frameMarked_fill_iff]
  rfl

/-- The tests after the first read start from the buffer it leaves. Source: none: infrastructure.
Kind: L -/
theorem markedAt_cons_succ (init : List Byte) (result : Option (List Byte))
    (results : List (Option (List Byte))) (i : ℕ) :
    MarkedAt init (result :: results) (i + 1) ↔
      MarkedAt (fill init result.toList) results i := by
  unfold MarkedAt
  rw [← frameMarked_fill_iff, ← frameMarked_fill_iff]
  cases result <;> rfl

/-- At a message of six bytes or more the buffer carries the markers when the message does.
Source: none: infrastructure. Kind: L -/
theorem markedAt_iff_of_six_le {i : ℕ} {msg : List Byte} (hmsg : results[i]? = some (some msg))
    (hlen : 6 ≤ msg.length) : MarkedAt init results i ↔ frameMarked msg = true := by
  have htake : results.take (i + 1) = results.take i ++ [some msg] := by
    rw [List.take_add_one, hmsg]
    rfl
  unfold MarkedAt
  rw [← frameMarked_fill_iff, htake, received_concat, Option.toList_some, fill_concat,
    frameMarked_overlay_of_six_le _ hlen]

end SmartHome.Device
