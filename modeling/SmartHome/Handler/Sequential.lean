import SmartHome.Handler.Parts

/-!
# `receive_thread_handler`, run to completion

`receiveThreadHandler controlPhead score pdevhead buffer` is one run of the function with nobody
else running: `score` is what `face_score` returns if it is called, `pdevhead` the device table,
`buffer` the frame that `receive_msg->buffer` points to (`receive_get` allocates both the message
and its buffer before it starts a handler, so these two pointers are not `NULL`). The result is the
table, the buffer and the handler's actions in order, or the `NULL` it read through.

The function has five parts, kept apart below: the lookup, the command itself
(`commandPhase`, with the face check), the voice announcement (`voicePhase`), the OLED text, and
the delayed relock. A record is read through `deref`, which is where an unresolved command dies.

`receiveThreadHandler_of_find` is the one theorem later files use: on `main`'s control list a
command that resolves runs to the end, and its effect on the table, the buffer and the pins is
the one written there. `receiveThreadHandler_of_find_none` and `receiveThreadHandler_of_skip` are
the two other cases.
-/

set_option autoImplicit false

namespace SmartHome.Handler

open SmartHome.Device SmartHome.Controls SmartHome.Found

/-- What a run has changed and done so far. Source: none: infrastructure. Kind: D -/
structure Outcome where
  pdevhead : List Gdevice
  buffer : List Byte
  events : List Event
deriving DecidableEq

/-- One more action. Source: none: infrastructure. Kind: D -/
def Outcome.emit (s : Outcome) (es : List Event) : Outcome := { s with events := s.events ++ es }

/-- The local variables the later parts read.
Source: `receive_interface.c` `receive_thread_handler`
Kind: D -/
structure Locals where
  ret : ℤ
  faceResult : ℚ
  successOrFailed : String

/-- Reading through `pcur_gdevice`. Source: none: infrastructure. Kind: D -/
def deref (pdevhead : List Gdevice) (pcurGdevice : Option ℕ) : Except NullDeref Gdevice :=
  match pcurGdevice.bind (pdevhead[·]?) with
  | some pdev => .ok pdev
  | none => .error .pcurGdevice

/-- `set_gpio_gdevice_status(pcur_gdevice)`: the calls it makes are recorded, its value returned.
Source: `receive_interface.c` `receive_thread_handler`, `gdevice.c` `set_gpio_gdevice_status`
Kind: D -/
def drive (d : ℕ) (s : Outcome) : Outcome × ℤ :=
  let (calls, ret) := setGpioGdeviceStatus s.pdevhead[d]?
  (s.emit (calls.map (.gpio d)), ret)

/-- The command: the requested level is stored, and the pin driven behind the face check or
without it. A `NULL` record skips the whole part.
Source: `receive_interface.c` `receive_thread_handler`
Kind: D -/
def commandPhase (score : ℚ) (pcurGdevice : Option ℕ) (s : Outcome) :
    Except NullDeref (Outcome × Locals) :=
  match pcurGdevice with
  | none => .ok (s, ⟨-1, 0, "success"⟩)
  | some d => do
      let s := { s with
        pdevhead := setStatus s.pdevhead d (requestedLevel (byteAt s.buffer 3)) }
      let pdev ← deref s.pdevhead pcurGdevice
      if pdev.checkFaceStatus = 1 then
        let s := s.emit [.faceScore score]
        if accepted score then
          let (s, ret) := drive d s
          pure ({ s with buffer := s.buffer.set 2 0x47 }, ⟨ret, score, "success"⟩)
        else
          pure ({ s with buffer := s.buffer.set 2 0x46 }, ⟨-1, score, "success"⟩)
      else
        let (s, ret) := drive d s
        pure (s, ⟨ret, 0, successOrFailed ret⟩)

/-- The voice announcement, for a record that asks for it: the search, the fire test on the bytes
of the buffer, the start of the node's `set`. A search that finds no node starts nothing. Returns
`smoke_status`.
Source: `receive_interface.c` `receive_thread_handler`
Kind: D -/
def voicePhase (controlPhead : List Control) (pdev : Gdevice) (s : Outcome) :
    Except NullDeref (Outcome × ℤ) :=
  if pdev.voiceSetStatus = 1 ∧ controlPhead ≠ [] then
    match voiceSearch controlPhead with
    | none => .ok (s, -1)
    | some pcontrol =>
        if pcontrol.hasSet then
          .ok (s.emit [.startSet pcontrol], smokeStatus (byteAt s.buffer 2) (byteAt s.buffer 3))
        else .error .setRoutine
  else .ok (s, -1)

/-- The delayed relock, after an accepted face.
Source: `receive_interface.c` `receive_thread_handler`
Kind: D -/
def relockPhase (pcurGdevice : Option ℕ) (pdev : Gdevice) (l : Locals) (s : Outcome) : Outcome :=
  match pcurGdevice with
  | none => s
  | some d =>
      if relocks pdev l.ret l.faceResult then
        (drive d { s with pdevhead := setStatus s.pdevhead d high }).1
      else s

/-- A run of the handler.
Source: `receive_interface.c` `receive_thread_handler`
Kind: D -/
def receiveThreadHandler (controlPhead : List Control) (score : ℚ) (pdevhead : List Gdevice)
    (buffer : List Byte) : Except NullDeref Outcome :=
  if byteAt buffer 2 = 0x40 then .ok ⟨pdevhead, buffer, []⟩
  else do
    let pcurGdevice := findGdeviceByKey pdevhead (byteAt buffer 2).asInt
    let (s, l) ← commandPhase score pcurGdevice
      ⟨pdevhead, buffer, [.findGdeviceByKey pcurGdevice]⟩
    let pdev ← deref s.pdevhead pcurGdevice
    let (s, smoke) ← voicePhase controlPhead pdev s
    let pdev ← deref s.pdevhead pcurGdevice
    let s := s.emit [.myoledShow (oledMsg pdev smoke l.successOrFailed)]
    return relockPhase pcurGdevice pdev l s

/-! ## What a run amounts to -/

/-- The calls `set_gpio_gdevice_status` makes for a record at a level.
Source: `gdevice.c` `set_gpio_gdevice_status`
Kind: D -/
def driveCalls (pdev : Gdevice) (level : ℤ) : List GpioCall :=
  (setGpioGdeviceStatus (some { pdev with gpioStatus := level })).1

/-- The level a resolved command leaves in its record: the one requested, except that an accepted
face check ends with the relock.
Source: none: the meaning of a command. Kind: D -/
def settledStatus (pdev : Gdevice) (level : ℤ) (score : ℚ) : ℤ :=
  if pdev.checkFaceStatus = 1 ∧ accepted score = true then high else level

/-- The calls behind the gate: none for a rejected face.
Source: none: the meaning of a command. Kind: D -/
def gateCalls (pdev : Gdevice) (level : ℤ) (score : ℚ) : List GpioCall :=
  if pdev.checkFaceStatus = 1 ∧ accepted score = false then [] else driveCalls pdev level

/-- The calls of the relock: only after an accepted face.
Source: none: the meaning of a command. Kind: D -/
def relockCalls (pdev : Gdevice) (score : ℚ) : List GpioCall :=
  if pdev.checkFaceStatus = 1 ∧ accepted score = true then driveCalls pdev high else []

/-- The buffer after the reply of the face check.
Source: none: the meaning of a command. Kind: D -/
def repliedBuffer (pdev : Gdevice) (score : ℚ) (buffer : List Byte) : List Byte :=
  if pdev.checkFaceStatus = 1 then buffer.set 2 (faceReply score) else buffer

/-- The text shown for a resolved command; `buffer` is the buffer after the reply.
Source: none: the meaning of a command. Kind: D -/
def commandText (pdev : Gdevice) (level : ℤ) (buffer : List Byte) : String :=
  oledMsg { pdev with gpioStatus := level }
    (if pdev.voiceSetStatus = 1 then smokeStatus (byteAt buffer 2) (byteAt buffer 3) else -1)
    "success"

/-- The actions of a resolved command, in order.
Source: none: the meaning of a command. Kind: D -/
def commandEvents (d : ℕ) (pdev : Gdevice) (level : ℤ) (score : ℚ) (buffer : List Byte) :
    List Event :=
  [.findGdeviceByKey (some d)] ++
    (if pdev.checkFaceStatus = 1 then [.faceScore score] else []) ++
    (gateCalls pdev level score).map (.gpio d) ++
    (if pdev.voiceSetStatus = 1 then [.startSet ⟨"voice", true⟩] else []) ++
    [.myoledShow (commandText pdev level (repliedBuffer pdev score buffer))] ++
    (relockCalls pdev score).map (.gpio d)

variable {score : ℚ} {pdevhead : List Gdevice} {buffer : List Byte} {d : ℕ} {pdev : Gdevice}

theorem driveCalls_of_no_pin (hpin : pdev.gpioPin = -1) (level : ℤ) : driveCalls pdev level = [] := by
  simp [driveCalls, setGpioGdeviceStatus, pinModeCall, digitalWriteCall, hpin]

theorem gateCalls_of_pass (hpass : pdev.checkFaceStatus = 1 → 1 / 2 < score) (level : ℤ) :
    gateCalls pdev level score = driveCalls pdev level := by
  refine if_neg fun hreject => ?_
  exact not_accepted_iff.mp hreject.2 (hpass hreject.1)

theorem gateCalls_of_reject (hcheck : pdev.checkFaceStatus = 1) (hlow : ¬ 1 / 2 < score) (level : ℤ) :
    gateCalls pdev level score = [] := if_pos ⟨hcheck, not_accepted_iff.mpr hlow⟩

/-- The wiringPi calls of a resolved command: those behind the gate, then those of the relock. -/
theorem gpioCalls_commandEvents (d : ℕ) (pdev : Gdevice) (level : ℤ) (score : ℚ)
    (buffer : List Byte) :
    gpioCalls (commandEvents d pdev level score buffer) =
      gateCalls pdev level score ++ relockCalls pdev score := by
  have hfind : gpioCalls [.findGdeviceByKey (some d)] = [] := rfl
  have hface : gpioCalls (if pdev.checkFaceStatus = 1 then [.faceScore score] else []) = [] := by
    split_ifs <;> rfl
  have hvoice : gpioCalls (if pdev.voiceSetStatus = 1 then [.startSet ⟨"voice", true⟩] else []) =
      [] := by
    split_ifs <;> rfl
  have hshow : ∀ text, gpioCalls [.myoledShow text] = [] := fun _ => rfl
  simp only [commandEvents, gpioCalls_append, gpioCalls_gpio, hfind, hface, hvoice, hshow,
    List.nil_append, List.append_nil]

theorem deref_setStatus (hg : pdevhead[d]? = some pdev) (v : ℤ) :
    deref (setStatus pdevhead d v) (some d) = .ok { pdev with gpioStatus := v } := by
  simp [deref, getElem?_setStatus_self hg]

theorem drive_setStatus (hg : pdevhead[d]? = some pdev) (v : ℤ) (buffer : List Byte)
    (events : List Event) :
    drive d ⟨setStatus pdevhead d v, buffer, events⟩ =
      (⟨setStatus pdevhead d v, buffer, events ++ (driveCalls pdev v).map (.gpio d)⟩, 0) := by
  unfold drive
  rw [getElem?_setStatus_self hg]
  rfl

/-- The command part of a resolved command. Source: none: infrastructure. Kind: L -/
theorem commandPhase_of_find (hg : pdevhead[d]? = some pdev) (score : ℚ) (buffer : List Byte)
    (events : List Event) :
    commandPhase score (some d) ⟨pdevhead, buffer, events⟩ =
      .ok (⟨setStatus pdevhead d (requestedLevel (byteAt buffer 3)), repliedBuffer pdev score buffer,
          events ++ (if pdev.checkFaceStatus = 1 then [.faceScore score] else []) ++
            (gateCalls pdev (requestedLevel (byteAt buffer 3)) score).map (.gpio d)⟩,
        ⟨if pdev.checkFaceStatus = 1 ∧ accepted score = false then -1 else 0,
          if pdev.checkFaceStatus = 1 then score else 0, "success"⟩) := by
  unfold commandPhase
  simp only [deref_setStatus hg, bind, Except.bind, pure, Except.pure]
  by_cases hcheck : pdev.checkFaceStatus = 1
  · cases haccept : accepted score with
    | true =>
        simp [hcheck, haccept, Outcome.emit, drive_setStatus hg, repliedBuffer, gateCalls, faceReply]
    | false => simp [hcheck, haccept, Outcome.emit, repliedBuffer, gateCalls, faceReply]
  · simp [hcheck, drive_setStatus hg, repliedBuffer, gateCalls, successOrFailed]

/-- The announcement part of a run on `main`'s control list. Source: none: infrastructure.
Kind: L -/
theorem voicePhase_mainControls (pdev : Gdevice) (s : Outcome) :
    voicePhase mainControls pdev s =
      .ok (s.emit (if pdev.voiceSetStatus = 1 then [.startSet ⟨"voice", true⟩] else []),
        if pdev.voiceSetStatus = 1 then smokeStatus (byteAt s.buffer 2) (byteAt s.buffer 3)
        else -1) := by
  have hne : mainControls ≠ [] := by decide
  unfold voicePhase
  by_cases hvoice : pdev.voiceSetStatus = 1
  · rw [if_pos ⟨hvoice, hne⟩, if_pos hvoice, if_pos hvoice, voiceSearch_mainControls]
    rfl
  · rw [if_neg fun h => hvoice h.1, if_neg hvoice, if_neg hvoice]
    simp [Outcome.emit]

/-- The relock part of a resolved command. Source: none: infrastructure. Kind: L -/
theorem relockPhase_of_find (hg : pdevhead[d]? = some pdev) (level : ℤ) (score : ℚ)
    (buffer : List Byte) (events : List Event) :
    relockPhase (some d) { pdev with gpioStatus := level }
        ⟨if pdev.checkFaceStatus = 1 ∧ accepted score = false then -1 else 0,
          if pdev.checkFaceStatus = 1 then score else 0, "success"⟩
        ⟨setStatus pdevhead d level, buffer, events⟩ =
      ⟨setStatus pdevhead d (settledStatus pdev level score), buffer,
        events ++ (relockCalls pdev score).map (.gpio d)⟩ := by
  unfold relockPhase settledStatus relockCalls
  by_cases hgate : pdev.checkFaceStatus = 1 ∧ accepted score = true
  · have hyes : relocks { pdev with gpioStatus := level }
        (if pdev.checkFaceStatus = 1 ∧ accepted score = false then -1 else 0)
        (if pdev.checkFaceStatus = 1 then score else 0) = true := by
      simp [relocks, hgate.1, hgate.2]
    simp only [hyes, if_true, if_pos hgate, setStatus_setStatus, drive_setStatus hg]
  · have hnot : relocks { pdev with gpioStatus := level }
        (if pdev.checkFaceStatus = 1 ∧ accepted score = false then -1 else 0)
        (if pdev.checkFaceStatus = 1 then score else 0) = false := by
      by_cases hcheck : pdev.checkFaceStatus = 1
      · have haccept : accepted score = false := by simpa [hcheck] using hgate
        simp [relocks, hcheck, haccept]
      · simp [relocks, hcheck]
    simp [hnot, hgate]

/-- **A command that resolves runs to completion on `main`'s control list**: the record found gets
its settled level, no other record changes, and the actions are the command's.
Source: `receive_interface.c` `receive_thread_handler`
Kind: P -/
theorem receiveThreadHandler_of_find (h40 : byteAt buffer 2 ≠ 0x40)
    (hfind : findGdeviceByKey pdevhead (byteAt buffer 2).asInt = some d)
    (hg : pdevhead[d]? = some pdev) :
    receiveThreadHandler mainControls score pdevhead buffer =
      .ok ⟨setStatus pdevhead d (settledStatus pdev (requestedLevel (byteAt buffer 3)) score),
        repliedBuffer pdev score buffer,
        commandEvents d pdev (requestedLevel (byteAt buffer 3)) score buffer⟩ := by
  unfold receiveThreadHandler
  rw [if_neg h40]
  simp only [hfind, commandPhase_of_find hg, bind, Except.bind, pure, Except.pure,
    deref_setStatus hg, voicePhase_mainControls, Outcome.emit, relockPhase_of_find hg]
  rfl

/-- A command that resolves to no record reads through `NULL`.
Source: `receive_interface.c` `receive_thread_handler`
Kind: P -/
theorem receiveThreadHandler_of_find_none (controlPhead : List Control)
    (h40 : byteAt buffer 2 ≠ 0x40)
    (hfind : findGdeviceByKey pdevhead (byteAt buffer 2).asInt = none) :
    receiveThreadHandler controlPhead score pdevhead buffer = .error .pcurGdevice := by
  unfold receiveThreadHandler
  rw [if_neg h40]
  simp only [hfind, commandPhase, bind, Except.bind]
  rfl

/-- A frame with code `0x40` is dropped. Source: `receive_interface.c` `receive_thread_handler`.
Kind: L -/
theorem receiveThreadHandler_of_skip (controlPhead : List Control) (h40 : byteAt buffer 2 = 0x40) :
    receiveThreadHandler controlPhead score pdevhead buffer = .ok ⟨pdevhead, buffer, []⟩ :=
  if_pos h40

end SmartHome.Handler
