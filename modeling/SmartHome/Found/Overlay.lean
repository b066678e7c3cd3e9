import Mathlib.Data.List.Induction
import SmartHome.Found.LastOf

/-!
# Buffers that are written over and never cleared

`overlay msg buf` is the buffer `buf` after `msg` has been copied to its front: the cells past
the end of `msg` keep what they held. A buffer reused for a sequence of messages
(`fill init msgs`) therefore mixes them: its cell `k` holds the `k`-th entry of the *last message
long enough to have one* (`getElem?_fill`), not of the last message. A message at least as long
as the part that is read hides the past (`take_overlay`).
-/

set_option autoImplicit false

namespace SmartHome.Found

variable {α : Type*}

/-- The buffer after `msg` is copied to its front.
Source: none: infrastructure. Kind: D -/
def overlay (msg buf : List α) : List α := msg ++ buf.drop msg.length

/-- A cell holds the message's entry where it has one and its old content elsewhere.
Source: none: infrastructure. Kind: L -/
theorem getElem?_overlay (msg buf : List α) (k : ℕ) : (overlay msg buf)[k]? = msg[k]?.or buf[k]? := by
  unfold overlay
  by_cases hk : k < msg.length
  · rw [List.getElem?_append_left hk, List.getElem?_eq_getElem hk]
    rfl
  · rw [Nat.not_lt] at hk
    rw [List.getElem?_append_right hk, List.getElem?_drop, List.getElem?_eq_none hk,
      Option.none_or, Nat.add_sub_cancel' hk]

/-- The front of the buffer, as far as the message reaches, is the message's.
Source: none: infrastructure. Kind: L -/
theorem take_overlay {msg : List α} (buf : List α) {n : ℕ} (h : n ≤ msg.length) :
    (overlay msg buf).take n = msg.take n := by
  rw [overlay, List.take_append_of_le_length h]

/-- The buffer after a sequence of messages, each copied to its front.
Source: none: infrastructure. Kind: D -/
def fill (init : List α) (msgs : List (List α)) : List α :=
  msgs.foldl (fun buf msg => overlay msg buf) init

@[simp] theorem fill_nil (init : List α) : fill init [] = init := rfl

/-- One more message. Source: none: infrastructure. Kind: L -/
theorem fill_concat (init : List α) (msgs : List (List α)) (msg : List α) :
    fill init (msgs ++ [msg]) = overlay msg (fill init msgs) := by
  simp [fill]

/-- **The content of a reused buffer**: cell `k` holds the `k`-th entry of the last message that
has one, and what it held at the start where no message has.
Source: none: infrastructure. Kind: P -/
theorem getElem?_fill (init : List α) (msgs : List (List α)) (k : ℕ) :
    (fill init msgs)[k]? = (lastOf (fun msg => msg[k]?) msgs).or init[k]? := by
  induction msgs using List.reverseRecOn with
  | nil => simp
  | append_singleton msgs msg ih =>
      rw [fill_concat, getElem?_overlay, ih, lastOf_concat, Option.or_assoc]

end SmartHome.Found
