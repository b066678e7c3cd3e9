import SmartHome.Found.Justified
import SmartHome.Handler.Dispatch

/-!
# What a command leaves behind when its face is rejected, and what it reports

`receive_thread_handler` writes the requested level into the record before it asks for a face, and
writes the result into `success_or_failed` on one of its three paths only.

* `changesNothing_iff` — a rejected request leaves the table and the pins as they were exactly when it
  asked for the level the record had: the accepted path ends by writing `HIGH` back, the rejected path
  writes nothing back.
* `truthful_iff` — the text on the OLED says `success` for a level that has been driven, or gives the
  fire warning, exactly when the fire warning is due or the device has a pin and no face was rejected.
  The value of `set_gpio_gdevice_status` is tested, but it is `0` for every record; after a rejected face
  `ret` is `-1` and the text still says `success`.
-/

set_option autoImplicit false

namespace SmartHome.Handler

open SmartHome.Device SmartHome.Controls SmartHome.Found

/-! ## A rejected face -/

/-- **The run has changed nothing**: every record has the fields it had, and the wiringPi calls leave
the pins, whatever their state is made of, as they were.
Source: none: what a rejected request should do. Kind: D -/
structure ChangesNothing {σ : Type*} (actuate : σ → GpioCall → σ) (pdevhead : List Gdevice)
    (out : Outcome) : Prop where
  table : out.pdevhead = pdevhead
  pins : ∀ pins, (gpioCalls out.events).foldl actuate pins = pins

variable {pdevhead : List Gdevice} {c : Command} {d : ℕ} {pdev : Gdevice}

/-- Storing a level changes nothing when it is the level stored already. -/
theorem setStatus_eq_self_iff (hg : pdevhead[d]? = some pdev) (v : ℤ) :
    setStatus pdevhead d v = pdevhead ↔ v = pdev.gpioStatus := by
  constructor
  · intro h
    have hrecord := getElem?_setStatus_self hg v
    rw [h, hg] at hrecord
    exact (congrArg Gdevice.gpioStatus (Option.some.inj hrecord)).symm
  · rintro rfl
    apply List.ext_getElem?
    intro j
    rw [getElem?_setStatus]
    by_cases hj : d = j
    · subst hj
      simp [hg]
    · simp [hj]

theorem accepted_eq_false_iff {score : ℚ} : accepted score = false ↔ score ≤ 1 / 2 := by
  rw [not_accepted_iff, Rat.not_lt]

/-- The run of a request with a rejected face. -/
theorem Command.runs_rejected (htarget : c.target pdevhead = some d) (hg : pdevhead[d]? = some pdev)
    (hscore : c.score ≤ 1 / 2) (buffer : List Byte) :
    receiveThreadHandler mainControls c.score pdevhead (overlay c.frame buffer) =
      .ok ⟨setStatus pdevhead d (requestedLevel c.status),
        repliedBuffer pdev c.score (overlay c.frame buffer),
        commandEvents d pdev (requestedLevel c.status) c.score (overlay c.frame buffer)⟩ := by
  have hsettled : settledStatus pdev (requestedLevel c.status) c.score = requestedLevel c.status := by
    simp [settledStatus, accepted_eq_false_iff.mpr hscore]
  rw [Command.runs htarget hg, hsettled]

/-- **When a rejected request changes nothing**: exactly when it asked for the level that is stored.
Source: `receive_interface.c` `receive_thread_handler`
Kind: P -/
theorem changesNothing_iff {σ : Type*} (actuate : σ → GpioCall → σ) (pdevhead : List Gdevice)
    (c : Command) (d : ℕ) (pdev : Gdevice) (buffer : List Byte)
    (htarget : c.target pdevhead = some d) (hg : pdevhead[d]? = some pdev)
    (hcheck : pdev.checkFaceStatus = 1) (hscore : c.score ≤ 1 / 2) :
    (∃ out, receiveThreadHandler mainControls c.score pdevhead (overlay c.frame buffer) = .ok out ∧
        ChangesNothing actuate pdevhead out) ↔
      requestedLevel c.status = pdev.gpioStatus := by
  rw [Command.runs_rejected htarget hg hscore]
  constructor
  · rintro ⟨out, hout, hnothing⟩
    obtain rfl := Except.ok.inj hout
    exact (setStatus_eq_self_iff hg _).mp hnothing.table
  · intro hstored
    refine ⟨_, rfl, (setStatus_eq_self_iff hg _).mpr hstored, fun pins => ?_⟩
    rw [gpioCalls_commandEvents]
    simp [gateCalls, relockCalls, hcheck, accepted_eq_false_iff.mpr hscore]

theorem target_lock (status : Byte) (score : ℚ) :
    Command.target (gdeviceTable shippedCalls) ⟨0x44, status, score⟩ = some 4 := by
  rw [gdeviceTable_shippedCalls]
  rfl

theorem getElem?_lock :
    (gdeviceTable shippedCalls)[4]? = some ⟨"lock", 0x44, 7, output, high, 1, 1⟩ := by
  rw [gdeviceTable_shippedCalls]
  rfl

/-- A command to close the lock, which is closed, with a face that is not recognised.
Source: `ini/gdevice.ini`
Kind: L -/
theorem changesNothing_lock_close :
    ∃ out, receiveThreadHandler mainControls 0 (gdeviceTable shippedCalls)
        (overlay (frame 0x44 1) []) = .ok out ∧
      ChangesNothing (fun calls call => calls ++ [call]) (gdeviceTable shippedCalls) out :=
  (changesNothing_iff (fun calls call => calls ++ [call]) (gdeviceTable shippedCalls) ⟨0x44, 1, 0⟩ 4
    ⟨"lock", 0x44, 7, output, high, 1, 1⟩ [] (target_lock 1 0) getElem?_lock rfl
    (by decide +kernel)).mpr rfl

/-- **A rejected face leaves the lock recorded as open**: the record says `LOW`, the pin is `HIGH`.
Source: `receive_interface.c` `receive_thread_handler`, `ini/gdevice.ini`
Kind: P -/
theorem rejected_open_is_stored :
    ¬ ∃ out, receiveThreadHandler mainControls 0 (gdeviceTable shippedCalls)
        (overlay (frame 0x44 0) []) = .ok out ∧
      ChangesNothing (fun calls call => calls ++ [call]) (gdeviceTable shippedCalls) out := by
  rintro ⟨out, hout, hnothing⟩
  have hrun := Command.runs_rejected (target_lock 0 0) getElem?_lock (by decide +kernel) []
  obtain rfl := Except.ok.inj (hrun.symm.trans hout)
  have hstored := (setStatus_eq_self_iff getElem?_lock low).mp hnothing.table
  exact high_ne_low hstored.symm

/-! ## The text on the OLED -/

/-- The text that reports the level as reached: `Open` is `LOW`, `Close` is `HIGH`.
Source: `receive_interface.c` `receive_thread_handler`
Kind: D -/
def successText (pdev : Gdevice) (level : ℤ) : String :=
  oledMsg { pdev with gpioStatus := level } (-1) "success"

/-- **The text is truthful**: a level reported as reached is the level requested, and has been driven
on the device's pin earlier in the run; any other text is the fire warning or says `failed`.
Source: none: the purpose of the OLED text. Kind: D -/
structure TruthfulText (d : ℕ) (pdev : Gdevice) (requested : ℤ) (earlier : List Event)
    (text : String) : Prop where
  success : ∀ level, level = low ∨ level = high → text = successText pdev level →
    level = requested ∧ .gpio d (.digitalWrite pdev.gpioPin level) ∈ earlier
  other : (∀ level, level = low ∨ level = high → text ≠ successText pdev level) →
    text = "risk of fire exists" ∨
      ∃ level, text = oledMsg { pdev with gpioStatus := level } (-1) "failed"

/-- Every text of the run is truthful.
Source: none: the purpose of the OLED text. Kind: D -/
def Truthful (d : ℕ) (pdev : Gdevice) (requested : ℤ) (events : List Event) : Prop :=
  Justified (fun earlier e => ∀ text, e = .myoledShow text →
    TruthfulText d pdev requested earlier text) events

/-- The fire warning is due: an announced device outside the gate, and the fire alarm for it.
Source: none: the condition on the record and the command. Kind: D -/
def WarnsOfFire (pdev : Gdevice) (c : Command) : Prop :=
  pdev.voiceSetStatus = 1 ∧ pdev.checkFaceStatus ≠ 1 ∧ c.code = 0x45 ∧ c.status = 0

instance (pdev : Gdevice) (c : Command) : Decidable (WarnsOfFire pdev c) :=
  inferInstanceAs (Decidable (_ ∧ _))

theorem successText_eq (pdev : Gdevice) (level : ℤ) : successText pdev level =
    pdev.devName ++ " " ++ (if level = low then "Open" else "Close") ++ " " ++ "success" := by
  simp [successText, oledMsg]

/-- The warning of fire does not end like a success. -/
theorem fire_ne_successText (pdev : Gdevice) (level : ℤ) :
    "risk of fire exists" ≠ successText pdev level := by
  intro h
  have hlast := congrArg (fun s : String => s.toList.reverse.take 2) h
  rw [successText_eq] at hlast
  simp only [String.toList_append, List.reverse_append] at hlast
  revert hlast
  simp

/-- The two levels are reported differently. -/
theorem successText_inj {pdev : Gdevice} {level level' : ℤ} (hlevel : level = low ∨ level = high)
    (hlevel' : level' = low ∨ level' = high) (h : successText pdev level = successText pdev level') :
    level = level' := by
  rw [successText_eq, successText_eq] at h
  simp only [String.append_assoc, String.append_right_inj] at h
  rcases hlevel with rfl | rfl <;> rcases hlevel' with rfl | rfl
  · rfl
  · revert h; decide
  · revert h; decide
  · rfl

/-- The code byte after the reply of the face check. -/
theorem byteAt_replied_code (pdev : Gdevice) (c : Command) (buffer : List Byte) :
    byteAt (repliedBuffer pdev c.score (overlay c.frame buffer)) 2 =
      if pdev.checkFaceStatus = 1 then faceReply c.score else c.code := by
  unfold repliedBuffer
  split_ifs
  · simp [overlay, Command.frame, Device.frame, byteAt]
  · exact byteAt_code c buffer

theorem byteAt_replied_status (pdev : Gdevice) (c : Command) (buffer : List Byte) :
    byteAt (repliedBuffer pdev c.score (overlay c.frame buffer)) 3 = c.status := by
  unfold repliedBuffer
  split_ifs
  · simp [overlay, Command.frame, Device.frame, byteAt]
  · exact byteAt_status c buffer

theorem faceReply_ne_alarm (score : ℚ) : faceReply score ≠ 0x45 := by
  unfold faceReply
  split_ifs <;> decide

/-- What a command shows: the fire warning where it is due, and otherwise always a success. -/
theorem commandText_replied (pdev : Gdevice) (c : Command) (buffer : List Byte) :
    commandText pdev (requestedLevel c.status) (repliedBuffer pdev c.score (overlay c.frame buffer)) =
      if WarnsOfFire pdev c then "risk of fire exists"
      else successText pdev (requestedLevel c.status) := by
  unfold commandText successText
  rw [byteAt_replied_code, byteAt_replied_status]
  by_cases hvoice : pdev.voiceSetStatus = 1
  · by_cases hcheck : pdev.checkFaceStatus = 1
    · -- the reply has replaced the code
      have hquiet : ¬ WarnsOfFire pdev c := fun h => h.2.1 hcheck
      simp [hvoice, hcheck, hquiet, smokeStatus, faceReply_ne_alarm]
    · by_cases hfire : c.code = 0x45 ∧ c.status = 0
      · have hwarns : WarnsOfFire pdev c := ⟨hvoice, hcheck, hfire⟩
        rw [if_pos hwarns, if_pos hvoice, if_neg hcheck, smokeStatus, if_pos hfire]
        rfl
      · have hquiet : ¬ WarnsOfFire pdev c := fun h => hfire h.2.2
        rw [if_neg hquiet, if_pos hvoice, if_neg hcheck, smokeStatus, if_neg hfire]
  · have hquiet : ¬ WarnsOfFire pdev c := fun h => hvoice h.1
    rw [if_neg hquiet, if_neg hvoice]

/-- The actions of a resolved command before the text.
Source: none: the meaning of a command. Kind: D -/
def eventsBeforeText (d : ℕ) (pdev : Gdevice) (level : ℤ) (score : ℚ) : List Event :=
  [.findGdeviceByKey (some d)] ++
    (if pdev.checkFaceStatus = 1 then [.faceScore score] else []) ++
    (gateCalls pdev level score).map (.gpio d) ++
    (if pdev.voiceSetStatus = 1 then [.startSet ⟨"voice", true⟩] else [])

theorem commandEvents_eq (d : ℕ) (pdev : Gdevice) (level : ℤ) (score : ℚ) (buffer : List Byte) :
    commandEvents d pdev level score buffer = eventsBeforeText d pdev level score ++
      .myoledShow (commandText pdev level (repliedBuffer pdev score buffer)) ::
        (relockCalls pdev score).map (.gpio d) := by
  simp [commandEvents, eventsBeforeText]

theorem mem_eventsBeforeText_ne_show {level : ℤ} {score : ℚ} {e : Event}
    (he : e ∈ eventsBeforeText d pdev level score) (text : String) : e ≠ .myoledShow text := by
  rintro rfl
  unfold eventsBeforeText at he
  split_ifs at he <;> simp at he

/-- The pin is driven before the text when there is a pin, and no face was rejected. -/
theorem gpio_mem_eventsBeforeText_iff {level : ℤ} (hlevel : level ≠ -1) {score : ℚ} :
    .gpio d (.digitalWrite pdev.gpioPin level) ∈ eventsBeforeText d pdev level score ↔
      pdev.gpioPin ≠ -1 ∧ (pdev.checkFaceStatus = 1 → 1 / 2 < score) := by
  have hcalls : .gpio d (.digitalWrite pdev.gpioPin level) ∈ eventsBeforeText d pdev level score ↔
      .digitalWrite pdev.gpioPin level ∈ gateCalls pdev level score := by
    unfold eventsBeforeText
    split_ifs <;> simp
  have hdrive : .digitalWrite pdev.gpioPin level ∈ driveCalls pdev level ↔ pdev.gpioPin ≠ -1 := by
    simp only [driveCalls, setGpioGdeviceStatus, List.mem_append]
    simp only [pinModeCall, digitalWriteCall]
    split_ifs <;> simp_all
  rw [hcalls]
  by_cases hpass : pdev.checkFaceStatus = 1 → 1 / 2 < score
  · rw [gateCalls_of_pass hpass, hdrive, and_iff_left hpass]
  · obtain ⟨hcheck, hlow⟩ := Classical.not_imp.mp hpass
    rw [gateCalls_of_reject hcheck hlow]
    exact iff_of_false List.not_mem_nil fun h => hpass h.2

/-- A run is truthful when the one text it shows is. -/
theorem truthful_commandEvents_iff {requested level : ℤ} {score : ℚ} {buffer : List Byte} :
    Truthful d pdev requested (commandEvents d pdev level score buffer) ↔
      TruthfulText d pdev requested (eventsBeforeText d pdev level score)
        (commandText pdev level (repliedBuffer pdev score buffer)) := by
  unfold Truthful
  rw [commandEvents_eq, justified_append_cons_iff]
  · constructor
    · intro h
      exact h _ rfl
    · rintro h text htext
      obtain rfl := Event.myoledShow.inj htext
      exact h
  · intro e he earlier text htext
    exact absurd htext (mem_eventsBeforeText_ne_show he text)
  · intro e he earlier text htext
    subst htext
    simp at he

theorem requestedLevel_eq (status : Byte) :
    requestedLevel status = low ∨ requestedLevel status = high := by
  unfold requestedLevel
  split_ifs
  · exact .inl rfl
  · exact .inr rfl

/-- **When the OLED text is truthful**: exactly when it is the fire warning, or the device has a pin and
no face was rejected.
Source: `receive_interface.c` `receive_thread_handler`, `gdevice.c` `set_gpio_gdevice_status`
Kind: P -/
theorem truthful_iff (pdevhead : List Gdevice) (c : Command) (d : ℕ) (pdev : Gdevice)
    (buffer : List Byte) (htarget : c.target pdevhead = some d) (hg : pdevhead[d]? = some pdev) :
    (∃ out, receiveThreadHandler mainControls c.score pdevhead (overlay c.frame buffer) = .ok out ∧
        Truthful d pdev (requestedLevel c.status) out.events) ↔
      WarnsOfFire pdev c ∨
        (pdev.gpioPin ≠ -1 ∧ (pdev.checkFaceStatus = 1 → 1 / 2 < c.score)) := by
  have hdriven : .gpio d (.digitalWrite pdev.gpioPin (requestedLevel c.status)) ∈
      eventsBeforeText d pdev (requestedLevel c.status) c.score ↔
        pdev.gpioPin ≠ -1 ∧ (pdev.checkFaceStatus = 1 → 1 / 2 < c.score) :=
    gpio_mem_eventsBeforeText_iff (requestedLevel_ne_neg_one c.status)
  have hrun : (∃ out, receiveThreadHandler mainControls c.score pdevhead (overlay c.frame buffer) =
      .ok out ∧ Truthful d pdev (requestedLevel c.status) out.events) ↔
      TruthfulText d pdev (requestedLevel c.status)
        (eventsBeforeText d pdev (requestedLevel c.status) c.score)
        (if WarnsOfFire pdev c then "risk of fire exists"
          else successText pdev (requestedLevel c.status)) := by
    rw [Command.runs htarget hg, ← commandText_replied pdev c buffer, ← truthful_commandEvents_iff]
    simp
  rw [hrun, ← hdriven]
  by_cases hfire : WarnsOfFire pdev c
  · rw [if_pos hfire]
    refine iff_of_true ⟨fun level _ h => ?_, fun _ => .inl rfl⟩ (.inl hfire)
    exact absurd h (fire_ne_successText pdev level)
  · rw [if_neg hfire, or_iff_right hfire]
    constructor
    · intro h
      exact (h.success _ (requestedLevel_eq c.status) rfl).2
    · intro h
      refine ⟨fun level hlevel htext => ?_, fun hother => ?_⟩
      · obtain rfl := successText_inj (requestedLevel_eq c.status) hlevel htext
        exact ⟨rfl, h⟩
      · exact absurd rfl (hother _ (requestedLevel_eq c.status))

/-- An accepted face at the lock.
Source: `ini/gdevice.ini`
Kind: L -/
theorem truthful_lock_open :
    ∃ out, receiveThreadHandler mainControls (9 / 10) (gdeviceTable shippedCalls)
        (overlay (frame 0x44 0) []) = .ok out ∧
      Truthful 4 ⟨"lock", 0x44, 7, output, high, 1, 1⟩ low out.events :=
  (truthful_iff (gdeviceTable shippedCalls) ⟨0x44, 0, 9 / 10⟩ 4
    ⟨"lock", 0x44, 7, output, high, 1, 1⟩ [] (target_lock 0 (9 / 10)) getElem?_lock).mpr
    (by decide +kernel)

/-- **A rejected face is reported as `lock Open success`.**
Source: `receive_interface.c` `receive_thread_handler`, `ini/gdevice.ini`
Kind: P -/
theorem rejected_open_reported :
    ¬ ∃ out, receiveThreadHandler mainControls 0 (gdeviceTable shippedCalls)
        (overlay (frame 0x44 0) []) = .ok out ∧
      Truthful 4 ⟨"lock", 0x44, 7, output, high, 1, 1⟩ low out.events := by
  rintro ⟨out, hout, htruthful⟩
  have hrun := Command.runs (target_lock 0 0) getElem?_lock []
  obtain rfl := Except.ok.inj (hrun.symm.trans hout)
  have htext := truthful_commandEvents_iff.mp htruthful
  obtain ⟨-, hdriven⟩ := htext.success low (.inl rfl) (by decide +kernel)
  revert hdriven
  decide +kernel

end SmartHome.Handler
