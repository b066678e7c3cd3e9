import SmartHome.Device.Gdevice

/-!
# `smoke_get`: from sensor readings to alarm frames

The loop of `smoke_get` reads the sensor, and sends an alarm frame on `LOW`, a clear frame on a `HIGH`
while `switch_status` is set. `SmokeGet.poll` is one iteration: the variables the loop keeps, and the
message handed to `mq_send`. Whether the send succeeds makes no difference to the variables: the
error branch only skips the `sleep`.

`alarmFrames` is what the module is for, on the readings alone: an alarm for each `LOW`, a clear for
each `HIGH` that immediately follows a `LOW`. `poll_of_latched` is the latch invariant
(`Latched`: `switch_status` is set exactly when the latest reading was `LOW`) with what it sends.
-/

set_option autoImplicit false

namespace SmartHome.Producers

open SmartHome.Device SmartHome.Found

/-- The variables that the loop of `smoke_get` keeps from one iteration to the next.
Source: `smoke_interface.c` `smoke_get`
Kind: D -/
structure SmokeGet where
  switchStatus : ℤ
  buffer : List Byte
deriving DecidableEq, Repr

/-- Before the first iteration.
Source: `smoke_interface.c` `smoke_get`
Kind: D -/
def SmokeGet.init : SmokeGet := ⟨0, frame 0 0⟩

/-- One iteration: `status` is what `digitalRead` returns, the message is what `mq_send` is given.
Source: `smoke_interface.c` `smoke_get`
Kind: D -/
def SmokeGet.poll (t : SmokeGet) (status : ℤ) : SmokeGet × Option (List Byte) :=
  if status = low then
    let buffer := (t.buffer.set 2 0x45).set 3 0x00
    (⟨1, buffer⟩, some buffer)
  else if status = high ∧ t.switchStatus = 1 then
    let buffer := (t.buffer.set 2 0x45).set 3 0x01
    (⟨0, buffer⟩, some buffer)
  else (t, none)

/-- The alarm frame. Source: `smoke_interface.c` `smoke_get`. Kind: D -/
def alarm : List Byte := frame 0x45 0x00

/-- The clear frame. Source: `smoke_interface.c` `smoke_get`. Kind: D -/
def clear : List Byte := frame 0x45 0x01

theorem alarm_ne_clear : alarm ≠ clear := by decide

/-- The frame an iteration tries to send. -/
theorem poll_low (t : SmokeGet) {code status : Byte} (hbuffer : t.buffer = frame code status) :
    t.poll low = (⟨1, alarm⟩, some alarm) := by
  simp [SmokeGet.poll, hbuffer, frame, alarm]

theorem poll_high_of_set {t : SmokeGet} (hset : t.switchStatus = 1) {code status : Byte}
    (hbuffer : t.buffer = frame code status) : t.poll high = (⟨0, clear⟩, some clear) := by
  simp [SmokeGet.poll, hbuffer, hset, frame, clear]

theorem poll_high_of_clear {t : SmokeGet} (hclear : t.switchStatus = 0) : t.poll high = (t, none) := by
  simp [SmokeGet.poll, hclear]

theorem poll_other (t : SmokeGet) {reading : ℤ} (hlow : reading ≠ low) (hhigh : reading ≠ high) :
    t.poll reading = (t, none) := by
  simp [SmokeGet.poll, hlow, hhigh]

/-! ## What it is for -/

/-- The frame for a reading, given the reading before it: the alarm, the clear, or none.
Source: none: the purpose of `smoke_get`. Kind: D -/
def alarmFrame (previous : Option ℤ) (reading : ℤ) : Option (List Byte) :=
  if reading = low then some (frame 0x45 0)
  else if previous = some low then some (frame 0x45 1)
  else none

/-- The frames for a sequence of readings, `previous` being the reading before the first.
Source: none: the purpose of `smoke_get`. Kind: D -/
def alarmFrames : Option ℤ → List ℤ → List (List Byte)
  | _, [] => []
  | previous, reading :: readings =>
      (alarmFrame previous reading).toList ++ alarmFrames (some reading) readings

theorem alarmFrames_concat (previous : Option ℤ) (readings : List ℤ) (reading : ℤ) :
    alarmFrames previous (readings ++ [reading]) =
      alarmFrames previous readings ++
        (alarmFrame (readings.getLast?.or previous) reading).toList := by
  induction readings generalizing previous with
  | nil => simp [alarmFrames]
  | cons r readings ih =>
      have hlast : (r :: readings).getLast?.or previous = readings.getLast?.or (some r) := by
        cases h : readings.getLast? with
        | none => rw [List.getLast?_eq_none_iff.mp h]; rfl
        | some b => rw [List.getLast?_cons, h]; rfl
      rw [List.cons_append, alarmFrames, alarmFrames, ih, hlast, List.append_assoc]

/-- The invariant of the loop: the latch is set exactly when the latest reading was `LOW`, and the
buffer is a frame.
Source: `smoke_interface.c` `smoke_get`
Kind: D -/
structure Latched (readings : List ℤ) (t : SmokeGet) : Prop where
  latch : t.switchStatus = if readings.getLast? = some low then 1 else 0
  buffer : ∃ code status, t.buffer = frame code status

theorem latched_init : Latched [] SmokeGet.init := ⟨rfl, 0, 0, rfl⟩

/-- **One iteration**: the latch is kept, and the frame for the reading is handed to `mq_send`.
Source: `smoke_interface.c` `smoke_get`
Kind: L -/
theorem poll_of_latched {readings : List ℤ} {t : SmokeGet} (h : Latched readings t) {reading : ℤ}
    (hreading : reading = low ∨ reading = high) :
    Latched (readings ++ [reading]) (t.poll reading).1 ∧
      (t.poll reading).2 = alarmFrame readings.getLast? reading := by
  obtain ⟨code, status, hbuffer⟩ := h.buffer
  have hlatch := h.latch
  rcases hreading with rfl | rfl
  · rw [poll_low t hbuffer]
    exact ⟨⟨by simp, 0x45, 0, rfl⟩, rfl⟩
  · by_cases hlast : readings.getLast? = some low
    · rw [if_pos hlast] at hlatch
      rw [poll_high_of_set hlatch hbuffer]
      exact ⟨⟨by simp, 0x45, 1, rfl⟩, by simp [alarmFrame, hlast, clear]⟩
    · rw [if_neg hlast] at hlatch
      rw [poll_high_of_clear hlatch]
      exact ⟨⟨by simp [hlatch], code, status, hbuffer⟩,
        by simp [alarmFrame, hlast]⟩

end SmartHome.Producers
