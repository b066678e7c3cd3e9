import Mathlib.Data.Rat.Defs
import SmartHome.Controls.ControlList
import SmartHome.Device.Gdevice

/-!
# What one command handler does and says

The observable actions of a `receive_thread_handler` instance (`Event`), the `NULL` pointers it can
run into (`NullDeref`), and the pure expressions of its body, shared by the two readings of the
function: `Sequential.lean` runs it to completion at once, `Steps.lean` one memory access at a
time.

A face score is a rational. The code only asks whether it is above `0.5`, so a `NaN` behaves as any
score that is not, and an infinity as any score that is.
-/

set_option autoImplicit false

namespace SmartHome.Handler

open SmartHome.Device SmartHome.Controls SmartHome.Found

/-- A `NULL` the handler could go through: the device record, the node whose name the voice search
compares, or the `set` routine of a node it hands to `pthread_create`.
Source: `receive_interface.c` `receive_thread_handler`
Kind: D -/
inductive NullDeref where
  | pcurGdevice
  | pcontrol
  | setRoutine
deriving DecidableEq, Repr

/-- The calls of a handler: the lookup and the record it returned, `face_score` and what it
returned, the wiringPi calls made for a record, the start of a node's `set`, the text shown.
Source: `receive_interface.c` `receive_thread_handler`
Kind: D -/
inductive Event where
  | findGdeviceByKey (found : Option ℕ)
  | faceScore (score : ℚ)
  | gpio (pdev : ℕ) (call : GpioCall)
  | startSet (pcontrol : Control)
  | myoledShow (oledMsg : String)
deriving DecidableEq

/-- `face_result > 0.5`. Source: `receive_interface.c` `receive_thread_handler`. Kind: D -/
def accepted (faceResult : ℚ) : Bool := decide (1 / 2 < faceResult)

/-- `(receive_msg->buffer[3] == 0 ? LOW : HIGH)`.
Source: `receive_interface.c` `receive_thread_handler`
Kind: D -/
def requestedLevel (status : Byte) : ℤ := if status = 0 then low else high

/-- `success_or_failed` after the ungated branch, from what `set_gpio_gdevice_status` returned.
Source: `receive_interface.c` `receive_thread_handler`
Kind: D -/
def successOrFailed (ret : ℤ) : String := if ret = 0 then "success" else "failed"

/-- `buffer[2] == 0x45 && buffer[3] == 0x00`, as `smoke_status`.
Source: `receive_interface.c` `receive_thread_handler`
Kind: D -/
def smokeStatus (code status : Byte) : ℤ := if code = 0x45 ∧ status = 0 then 1 else -1

/-- The text of the OLED.
Source: `receive_interface.c` `receive_thread_handler`
Kind: D -/
def oledMsg (pdev : Gdevice) (smokeStatus : ℤ) (successOrFailed : String) : String :=
  if smokeStatus = 1 then "risk of fire exists"
  else
    let changeStatus := if pdev.gpioStatus = low then "Open" else "Close"
    pdev.devName ++ " " ++ changeStatus ++ " " ++ successOrFailed

/-- The byte written over the code after a face check.
Source: `receive_interface.c` `receive_thread_handler`
Kind: D -/
def faceReply (faceResult : ℚ) : Byte := if accepted faceResult then 0x47 else 0x46

/-- The test before the delayed relock.
Source: `receive_interface.c` `receive_thread_handler`
Kind: D -/
def relocks (pdev : Gdevice) (ret : ℤ) (faceResult : ℚ) : Bool :=
  decide (pdev.checkFaceStatus = 1) && decide (ret = 0) && accepted faceResult

/-- The wiringPi calls among the actions of a handler. Source: none: infrastructure. Kind: D -/
def gpioCalls (events : List Event) : List GpioCall :=
  events.filterMap fun
    | .gpio _ call => some call
    | _ => none

@[simp] theorem gpioCalls_append (l m : List Event) :
    gpioCalls (l ++ m) = gpioCalls l ++ gpioCalls m := List.filterMap_append ..

@[simp] theorem gpioCalls_gpio (d : ℕ) (calls : List GpioCall) :
    gpioCalls (calls.map (.gpio d)) = calls := by
  simp [gpioCalls, List.filterMap_map]

theorem mem_gpioCalls_iff {events : List Event} {call : GpioCall} :
    call ∈ gpioCalls events ↔ ∃ d, .gpio d call ∈ events := by
  unfold gpioCalls
  rw [List.mem_filterMap]
  constructor
  · rintro ⟨e, he, hcall⟩
    cases e with
    | gpio d call' => exact ⟨d, by rwa [← Option.some.inj hcall]⟩
    | _ => cases hcall
  · rintro ⟨d, hmem⟩
    exact ⟨_, hmem, rfl⟩

theorem accepted_iff {faceResult : ℚ} : accepted faceResult = true ↔ 1 / 2 < faceResult :=
  decide_eq_true_iff

theorem not_accepted_iff {faceResult : ℚ} : accepted faceResult = false ↔ ¬ 1 / 2 < faceResult :=
  decide_eq_false_iff_not

theorem requestedLevel_ne_neg_one (status : Byte) : requestedLevel status ≠ -1 := by
  unfold requestedLevel
  split_ifs <;> decide

end SmartHome.Handler
