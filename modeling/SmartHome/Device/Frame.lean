import Mathlib.Data.Int.Notation
import Mathlib.Data.List.Basic
import Mathlib.Tactic.Tauto

/-!
# Command frames

A command is the six bytes `AA 55 code status 55 AA`. Every module of the hub holds it in a byte
buffer and recognises it by the same test of bytes 0, 1, 4 and 5, written out in `receive_get`,
`socket_control_get` and `voice_get`; the test looks at the *buffer*, not at the number of bytes
received. `byteAt` is the C subscript on such a buffer (the buffers are never shorter than six
bytes, so the default is not met where the code reads).
-/

set_option autoImplicit false

namespace SmartHome.Device

/-- `unsigned char`. Source: none: infrastructure. Kind: D -/
abbrev Byte := UInt8

/-- The integer promotion of an `unsigned char`. Source: none: infrastructure. Kind: D -/
def Byte.asInt (b : Byte) : ℤ := b.toNat

theorem Byte.asInt_inj {a b : Byte} (h : a.asInt = b.asInt) : a = b := by
  unfold Byte.asInt at h
  exact UInt8.toNat_inj.mp (Int.ofNat.inj h)

/-- `buffer[k]`. Source: none: infrastructure. Kind: D -/
def byteAt (buffer : List Byte) (k : ℕ) : Byte := buffer.getD k 0

/-- The frame of a command.
Source: `smoke_interface.c` `smoke_get` and `voice_interface.c` `voice_get` (the initial value of
`buffer`, bytes 2 and 3 left open)
Kind: D -/
def frame (code status : Byte) : List Byte := [0xAA, 0x55, code, status, 0x55, 0xAA]

/-- The marker test on a buffer.
Source: `receive_interface.c` `receive_get`, `socket_interface.c` `socket_control_get`,
`voice_interface.c` `voice_get`
Kind: D -/
def frameMarked (buffer : List Byte) : Bool :=
  byteAt buffer 0 == 0xAA && byteAt buffer 1 == 0x55 && byteAt buffer 5 == 0xAA &&
    byteAt buffer 4 == 0x55

/-- The subscript reads the cell. Source: none: infrastructure. Kind: L -/
theorem byteAt_eq_of_getElem? {buffer : List Byte} {k : ℕ} {b : Byte} (h : buffer[k]? = some b) :
    byteAt buffer k = b := by
  simp [byteAt, h]

/-- Writing the byte that is there. Source: none: infrastructure. Kind: L -/
theorem set_eq_self_of_byteAt {buffer : List Byte} {k : ℕ} {b : Byte} (h : b = byteAt buffer k) :
    buffer.set k b = buffer := by
  apply List.ext_getElem?
  intro i
  rw [List.getElem?_set]
  split_ifs with hi hlt
  · subst hi
    rw [h, byteAt, List.getD_eq_getElem?_getD, List.getElem?_eq_getElem hlt, Option.getD_some]
  · rw [← hi, List.getElem?_eq_none (by omega)]
  · rfl

/-- The code byte of a frame. Source: none: infrastructure. Kind: L -/
@[simp] theorem byteAt_frame_two (code status : Byte) : byteAt (frame code status) 2 = code := rfl

/-- The status byte of a frame. Source: none: infrastructure. Kind: L -/
@[simp] theorem byteAt_frame_three (code status : Byte) :
    byteAt (frame code status) 3 = status := rfl

/-- A frame has six bytes. Source: none: infrastructure. Kind: L -/
@[simp] theorem length_frame (code status : Byte) : (frame code status).length = 6 := rfl

/-- What the marker test says. Source: none: infrastructure. Kind: L -/
theorem frameMarked_iff {buffer : List Byte} :
    frameMarked buffer = true ↔ byteAt buffer 0 = 0xAA ∧ byteAt buffer 1 = 0x55 ∧
      byteAt buffer 4 = 0x55 ∧ byteAt buffer 5 = 0xAA := by
  simp only [frameMarked, Bool.and_eq_true, beq_iff_eq]
  tauto

/-- **The six-byte messages that pass the test are the frames**: nothing else is accepted, and
every frame is.
Source: `receive_interface.c` `receive_get`
Kind: P -/
theorem length_six_and_frameMarked_iff {msg : List Byte} :
    msg.length = 6 ∧ frameMarked msg = true ↔ ∃ code status, msg = frame code status := by
  constructor
  · rintro ⟨hlen, hmark⟩
    obtain ⟨b₀, b₁, b₂, b₃, b₄, b₅, rfl⟩ : ∃ b₀ b₁ b₂ b₃ b₄ b₅, msg = [b₀, b₁, b₂, b₃, b₄, b₅] := by
      match msg, hlen with
      | [b₀, b₁, b₂, b₃, b₄, b₅], _ => exact ⟨b₀, b₁, b₂, b₃, b₄, b₅, rfl⟩
    obtain ⟨h₀, h₁, h₄, h₅⟩ := frameMarked_iff.mp hmark
    simp only [byteAt, List.getD_cons_zero, List.getD_cons_succ] at h₀ h₁ h₄ h₅
    subst h₀ h₁ h₄ h₅
    exact ⟨b₂, b₃, rfl⟩
  · rintro ⟨code, status, rfl⟩
    exact ⟨rfl, by simp [frameMarked, byteAt, frame]⟩

end SmartHome.Device
