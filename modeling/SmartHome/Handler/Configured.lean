import SmartHome.Device.Configuration
import SmartHome.Handler.Trace

/-!
# What the configuration text promises about the pins

`set_gpio_gdevice_status` leaves a pin or a mode alone where the record has `-1`; the builder starts a
record with zeros, which are the pin `0`, the mode `INPUT` and no face check. A field that is left out,
or whose text is not accepted, so turns into a setting.

* `onlyConfigured_iff` — a sequence of commands drives only pins that the device's own entries set, as
  outputs, exactly when each record a command drives has the pin `-1` set, or a pin set and the mode
  `OUTPUT`.
* `failsClosed_iff` — a device that its section asks to be protected is never driven without a
  recognised face exactly when its last `check_face_status` reads as `1`, or it has the pin `-1` set, or
  no frame addresses it: any other value than `0` asks for a check, and the handler tests for `1`.

The entries of a record are those of its block (`gdeviceTable_eq`).
-/

set_option autoImplicit false

namespace SmartHome.Handler

open SmartHome.Device SmartHome.Controls SmartHome.Found

/-- The command gets through the gate of the record.
Source: none: the meaning of a command. Kind: D -/
def PassesGate (pdev : Gdevice) (score : ℚ) : Prop := pdev.checkFaceStatus = 1 → 1 / 2 < score

/-- The entries set the pin to `-1`, or to a pin with the mode `OUTPUT`. The mode is that of the last
entry with a text the handler knows: after `OUTPUT` an unknown one, such as `-1`, leaves `OUTPUT`.
Source: none: the condition on the configuration. Kind: D -/
def ConfiguredOutput (entries : List IniCall) : Prop :=
  lastOf (setting .gpioPin) entries = some (-1) ∨
    ((lastOf (setting .gpioPin) entries).isSome = true ∧
      lastOf (setting .gpioMode) entries = some output)

/-- **A `digitalWrite` is configured**: it comes immediately after the `pinMode` of its pin to `OUTPUT`,
and the entries of its record set this pin, not `-1`, and this mode.
Source: none: the purpose of the configuration. Kind: D -/
def ConfiguredWrite (calls : List IniCall) (earlier : List Event) (e : Event) : Prop :=
  ∀ d pin level, e = .gpio d (.digitalWrite pin level) →
    earlier.getLast? = some (.gpio d (.pinMode pin output)) ∧
      ∃ b, (blocks IniCall.sectionName calls)[d]? = some b ∧
        lastOf (setting .gpioPin) b.2 = some pin ∧ pin ≠ -1 ∧
        lastOf (setting .gpioMode) b.2 = some output

instance (entries : List IniCall) : Decidable (ConfiguredOutput entries) :=
  inferInstanceAs (Decidable (_ ∨ _))

/-- Every `digitalWrite` is configured; a mode text that is neither `OUTPUT` nor `INPUT` takes no
configured mode back.
Source: none: the purpose of the configuration. Kind: D -/
def OnlyConfigured (calls : List IniCall) (events : List Event) : Prop :=
  Justified (ConfiguredWrite calls) events

variable {calls : List IniCall} {d : ℕ} {b : String × List IniCall}

theorem getElem?_gdeviceTable (hb : (blocks IniCall.sectionName calls)[d]? = some b) :
    (gdeviceTable calls)[d]? = some (record b.1 b.2) := by
  rw [gdeviceTable_eq, List.getElem?_map, hb]
  rfl

theorem gpioPin_record (sectionName : String) (entries : List IniCall) :
    (record sectionName entries).gpioPin = (lastOf (setting .gpioPin) entries).getD 0 := rfl

theorem gpioMode_record (sectionName : String) (entries : List IniCall) :
    (record sectionName entries).gpioMode = (lastOf (setting .gpioMode) entries).getD 0 := rfl

theorem checkFaceStatus_record (sectionName : String) (entries : List IniCall) :
    (record sectionName entries).checkFaceStatus =
      (lastOf (setting .checkFaceStatus) entries).getD 0 := rfl

theorem gpioPin_eq_neg_one_iff {sectionName : String} {entries : List IniCall} :
    (record sectionName entries).gpioPin = -1 ↔ lastOf (setting .gpioPin) entries = some (-1) := by
  rw [gpioPin_record, Option.getD_eq_iff]
  simp

theorem checkFaceStatus_eq_one_iff {sectionName : String} {entries : List IniCall} :
    (record sectionName entries).checkFaceStatus = 1 ↔
      lastOf (setting .checkFaceStatus) entries = some 1 := by
  rw [checkFaceStatus_record, Option.getD_eq_iff]
  simp

/-! ## Only configured outputs -/

theorem ConfiguredWrite.append_left (l m : List Event) (e : Event) (h : ConfiguredWrite calls m e) :
    ConfiguredWrite calls (l ++ m) e := by
  intro d pin level he
  obtain ⟨hlast, hconfigured⟩ := h d pin level he
  refine ⟨?_, hconfigured⟩
  rw [List.getLast?_append, hlast]
  rfl

/-- What `set_gpio_gdevice_status` does for a record whose output is configured. -/
theorem justified_driveCalls (hb : (blocks IniCall.sectionName calls)[d]? = some b)
    (hconfigured : ConfiguredOutput b.2) {level : ℤ} (hlevel : level ≠ -1) :
    Justified (ConfiguredWrite calls) ((driveCalls (record b.1 b.2) level).map (.gpio d)) := by
  by_cases hnone : (record b.1 b.2).gpioPin = -1
  · rw [driveCalls_of_no_pin hnone]
    exact Justified.nil
  · rw [gpioPin_record] at hnone
    obtain ⟨hpin, hmode⟩ : (lastOf (setting .gpioPin) b.2).isSome = true ∧
        lastOf (setting .gpioMode) b.2 = some output :=
      hconfigured.resolve_left fun hminus => hnone (by rw [hminus]; rfl)
    obtain ⟨pin, hpin⟩ := Option.isSome_iff_exists.mp hpin
    rw [hpin, Option.getD_some] at hnone
    have hcalls : driveCalls (record b.1 b.2) level =
        [.pinMode pin output] ++ [.digitalWrite pin level] := by
      simp [driveCalls, setGpioGdeviceStatus, pinModeCall, digitalWriteCall, gpioPin_record,
        gpioMode_record, hpin, hmode, hnone, hlevel]
    rw [hcalls, List.map_append]
    refine justified_concat.mpr ⟨?_, ?_⟩
    · refine Justified.of_forall fun e he earlier d' pin' level' hwrite => ?_
      subst hwrite
      simp at he
    · rintro d' pin' level' hwrite
      obtain ⟨rfl, hcall⟩ := Event.gpio.inj hwrite
      obtain ⟨rfl, -⟩ := GpioCall.digitalWrite.inj hcall
      exact ⟨rfl, b, hb, hpin, hnone, hmode⟩

/-- The actions of a command for a record that is configured, if the command passes its gate. -/
theorem justified_commandEvents (hb : (blocks IniCall.sectionName calls)[d]? = some b) {score : ℚ}
    (hconfigured : PassesGate (record b.1 b.2) score → ConfiguredOutput b.2) {level : ℤ}
    (hlevel : level ≠ -1) (buffer : List Byte) :
    Justified (ConfiguredWrite calls) (commandEvents d (record b.1 b.2) level score buffer) := by
  have hgate : Justified (ConfiguredWrite calls)
      ((gateCalls (record b.1 b.2) level score).map (.gpio d)) := by
    by_cases hpass : PassesGate (record b.1 b.2) score
    · rw [gateCalls_of_pass hpass]
      exact justified_driveCalls hb (hconfigured hpass) hlevel
    · obtain ⟨hcheck, hlow⟩ := Classical.not_imp.mp hpass
      rw [gateCalls_of_reject hcheck hlow]
      exact Justified.nil
  have hrelock : Justified (ConfiguredWrite calls)
      ((relockCalls (record b.1 b.2) score).map (.gpio d)) := by
    unfold relockCalls
    split_ifs with haccept
    · exact justified_driveCalls hb (hconfigured fun _ => accepted_iff.mp haccept.2) (by decide)
    · exact Justified.nil
  -- the other actions are no `digitalWrite`
  have hquiet : ∀ events : List Event, gpioCalls events = [] →
      Justified (ConfiguredWrite calls) events := by
    intro events hcalls
    refine Justified.of_forall fun e he earlier d' pin level' hwrite => ?_
    have hmem : .digitalWrite pin level' ∈ gpioCalls events := mem_gpioCalls_iff.mpr ⟨d', hwrite ▸ he⟩
    rw [hcalls] at hmem
    exact absurd hmem List.not_mem_nil
  have hleft : ∀ l m e, ConfiguredWrite calls m e → ConfiguredWrite calls (l ++ m) e :=
    ConfiguredWrite.append_left
  have hfind := hquiet [.findGdeviceByKey (some d)] rfl
  have hface := hquiet (if (record b.1 b.2).checkFaceStatus = 1 then [.faceScore score] else [])
    (by split_ifs <;> rfl)
  have hvoice := hquiet (if (record b.1 b.2).voiceSetStatus = 1 then [.startSet ⟨"voice", true⟩] else [])
    (by split_ifs <;> rfl)
  have hshow := hquiet [.myoledShow (commandText (record b.1 b.2) level
    (repliedBuffer (record b.1 b.2) score buffer))] rfl
  unfold commandEvents
  exact ((((hfind.append_left hleft hface).append_left hleft hgate).append_left hleft
    hvoice).append_left hleft hshow).append_left hleft hrelock

/-- A command that passes the gate of a record with a pin drives it. -/
theorem exists_write_mem_events {c : Command} (htarget : c.target (gdeviceTable calls) = some d)
    (hb : (blocks IniCall.sectionName calls)[d]? = some b) (hpass : PassesGate (record b.1 b.2) c.score)
    (hpin : (record b.1 b.2).gpioPin ≠ -1) :
    .gpio d (.digitalWrite (record b.1 b.2).gpioPin (requestedLevel c.status)) ∈
      c.events (gdeviceTable calls) := by
  rw [Command.events_of_target htarget (getElem?_gdeviceTable hb), commandEvents_eq]
  apply List.mem_append_left
  exact (gpio_mem_eventsBeforeText_iff (requestedLevel_ne_neg_one c.status)).mpr ⟨hpin, hpass⟩

theorem OnlyConfigured.of_mem {events : List Event} (h : OnlyConfigured calls events) {pin level : ℤ}
    (hmem : .gpio d (.digitalWrite pin level) ∈ events) :
    ∃ b, (blocks IniCall.sectionName calls)[d]? = some b ∧ lastOf (setting .gpioPin) b.2 = some pin ∧
      pin ≠ -1 ∧ lastOf (setting .gpioMode) b.2 = some output := by
  obtain ⟨earlier, later, hsplit⟩ := List.append_of_mem hmem
  exact (h earlier _ later hsplit d pin level rfl).2

/-- **When only configured outputs are driven**: exactly when each record that a command drives has a
configured output.
Source: `receive_interface.c` `gdevice_ini_handler`, `gdevice.c` `set_gpio_gdevice_status`
Kind: P -/
theorem onlyConfigured_iff (calls : List IniCall) (buffer : List Byte) (commands : List Command)
    (hres : ∀ c ∈ commands, c.Resolves (gdeviceTable calls)) :
    (∃ s, handleFrames ⟨gdeviceTable calls, buffer, []⟩ commands = .ok s ∧
        OnlyConfigured calls s.events) ↔
      ∀ c ∈ commands, ∀ d b, c.target (gdeviceTable calls) = some d →
        (blocks IniCall.sectionName calls)[d]? = some b → PassesGate (record b.1 b.2) c.score →
          ConfiguredOutput b.2 := by
  obtain ⟨s, hs, -, hevents⟩ := exists_handleFrames_events (gdeviceTable calls) buffer commands hres
  have hrun : (∃ s, handleFrames ⟨gdeviceTable calls, buffer, []⟩ commands = .ok s ∧
      OnlyConfigured calls s.events) ↔
      OnlyConfigured calls (commands.flatMap (Command.events (gdeviceTable calls))) := by
    rw [hs, ← hevents]
    simp
  rw [hrun]
  constructor
  · intro h c hc d b htarget hb hpass
    by_cases hpin : (record b.1 b.2).gpioPin = -1
    · exact .inl (gpioPin_eq_neg_one_iff.mp hpin)
    · have hmem := List.mem_flatMap.mpr ⟨c, hc, exists_write_mem_events htarget hb hpass hpin⟩
      obtain ⟨b', hb', hset, -, hmode⟩ := h.of_mem hmem
      obtain rfl : b = b' := Option.some.inj (hb.symm.trans hb')
      exact .inr ⟨by rw [hset]; rfl, hmode⟩
  · intro h
    refine Justified.flatMap ConfiguredWrite.append_left fun c hc => ?_
    rcases htarget : c.target (gdeviceTable calls) with _ | d
    · rw [Command.events_of_dropped htarget]
      exact Justified.nil
    · obtain ⟨pdev, hg, -⟩ := exists_getElem?_of_find (Command.target_eq_some_iff.mp htarget).2
      have hg' := hg
      rw [gdeviceTable_eq, List.getElem?_map] at hg'
      obtain ⟨b, hb, rfl⟩ := Option.map_eq_some_iff.mp hg'
      rw [Command.events_of_target htarget hg]
      exact justified_commandEvents hb (h c hc d b htarget hb) (requestedLevel_ne_neg_one c.status) _

/-- The shipped configuration sets every output it drives.
Source: `ini/gdevice.ini`
Kind: L -/
theorem onlyConfigured_shipped :
    ∃ s, handleFrames ⟨gdeviceTable shippedCalls, [], []⟩
        [⟨0x41, 0, 0⟩, ⟨0x44, 0, 9 / 10⟩, ⟨0x45, 0, 0⟩] = .ok s ∧
      OnlyConfigured shippedCalls s.events := by
  have hall : ∀ b ∈ blocks IniCall.sectionName shippedCalls, ConfiguredOutput b.2 := by decide +kernel
  exact (onlyConfigured_iff shippedCalls [] [⟨0x41, 0, 0⟩, ⟨0x44, 0, 9 / 10⟩, ⟨0x45, 0, 0⟩]
    (by decide +kernel)).mpr fun c _ d b _ hb _ => hall b (List.mem_of_getElem? hb)

/-- **A lamp without a pin drives pin `0`**, as an input.
Source: `receive_interface.c` `gdevice_ini_handler`, `gdevice.c` `set_gpio_gdevice_status`
Kind: P -/
theorem pinless_lamp_drives_pin_zero :
    ¬ ∃ s, handleFrames ⟨gdeviceTable [⟨"lamp", "key", "0x41"⟩], [], []⟩ [⟨0x41, 0, 0⟩] = .ok s ∧
      OnlyConfigured [⟨"lamp", "key", "0x41"⟩] s.events := by
  rintro ⟨s, hs, honly⟩
  obtain ⟨s', hs', -, hevents⟩ := exists_handleFrames_events
    (gdeviceTable [⟨"lamp", "key", "0x41"⟩]) [] [⟨0x41, 0, 0⟩] (by decide +kernel)
  obtain rfl := Except.ok.inj (hs.symm.trans hs')
  have hmem : .gpio 0 (.digitalWrite 0 low) ∈ s.events := by
    rw [hevents]
    decide +kernel
  obtain ⟨b, hb, hpin, -⟩ := honly.of_mem hmem
  obtain rfl : ("lamp", [⟨"lamp", "key", "0x41"⟩]) = b := Option.some.inj hb
  cases hpin

/-! ## Failing closed -/

/-- The text spells the number zero: blanks, a sign, digits `0`, and nothing else.
Source: none: the texts that say that no face is needed. Kind: D -/
def spellsZero (value : String) : Bool :=
  let digits := (skipSign value).2
  !digits.isEmpty && digits.all (· == '0')

/-- The text of a `check_face_status` entry.
Source: `receive_interface.c` `gdevice_ini_handler`
Kind: D -/
def checkFaceText (c : IniCall) : Option String :=
  if c.name = "check_face_status" then some c.value else none

/-- The section asks for a face: its last `check_face_status` is not a spelling of zero.
Source: `gdevice.h` `struct gdevice` (the comment on `check_face_status`)
Kind: D -/
def AsksForFace (calls : List IniCall) (sectionName : String) : Prop :=
  ∃ value, lastOf checkFaceText (sectionEntries sectionName calls) = some value ∧
    spellsZero value = false

/-- A pin is driven only after a recognised face.
Source: none: the purpose of the face check. Kind: D -/
def FaceBeforeWrite (earlier : List Event) (e : Event) : Prop :=
  ∀ d pin level, e = .gpio d (.digitalWrite pin level) →
    ∃ score, 1 / 2 < score ∧ .faceScore score ∈ earlier

/-- **Record `d` is protected**: after any commands, a command for it drives a pin only after a
recognised face in its own run.
Source: none: the purpose of the face check. Kind: D -/
def FailsClosed (pdevhead : List Gdevice) (d : ℕ) : Prop :=
  ∀ buffer commands (c : Command), (∀ c' ∈ commands, Command.Resolves pdevhead c') →
    c.target pdevhead = some d → ∃ s out,
      handleFrames ⟨pdevhead, buffer, []⟩ commands = .ok s ∧
      receiveThreadHandler mainControls c.score s.pdevhead (overlay c.frame s.buffer) = .ok out ∧
      Justified FaceBeforeWrite out.events

/-- Behind the gate only an accepted face leads to a wiringPi call. -/
theorem score_of_mem_gpioCalls {pdev : Gdevice} (hcheck : pdev.checkFaceStatus = 1) {level : ℤ}
    {score : ℚ} {buffer : List Byte} {call : GpioCall}
    (hmem : call ∈ gpioCalls (commandEvents d pdev level score buffer)) : 1 / 2 < score := by
  rw [gpioCalls_commandEvents] at hmem
  by_contra hlow
  simp [gateCalls_of_reject hcheck hlow, relockCalls, not_accepted_iff.mpr hlow] at hmem

/-- **The actions of one command** are protected when the record asks for a face or has no pin, and only
then. -/
theorem justified_faceBeforeWrite_iff {pdev : Gdevice} {level : ℤ} (hlevel : level ≠ -1) {score : ℚ}
    {buffer : List Byte} : Justified FaceBeforeWrite (commandEvents d pdev level score buffer) ↔
      pdev.checkFaceStatus = 1 ∨ pdev.gpioPin = -1 := by
  constructor
  · intro h
    by_contra hopen
    rw [not_or] at hopen
    have hwrite : .gpio d (.digitalWrite pdev.gpioPin level) ∈
        commandEvents d pdev level score buffer := by
      rw [commandEvents_eq]
      apply List.mem_append_left
      exact (gpio_mem_eventsBeforeText_iff hlevel).mpr ⟨hopen.2, fun hcheck => absurd hcheck hopen.1⟩
    obtain ⟨earlier, later, hsplit⟩ := List.append_of_mem hwrite
    obtain ⟨score', -, hface⟩ := h earlier _ later hsplit _ _ _ rfl
    have hmem : .faceScore score' ∈ commandEvents d pdev level score buffer := by
      rw [hsplit]
      exact List.mem_append_left _ hface
    simp only [commandEvents, if_neg hopen.1] at hmem
    split_ifs at hmem <;> simp at hmem
  · rintro (hcheck | hpin) earlier e later hsplit d' pin level' hwrite
    · have hmem : .digitalWrite pin level' ∈ gpioCalls (commandEvents d pdev level score buffer) := by
        refine mem_gpioCalls_iff.mpr ⟨d', ?_⟩
        rw [hsplit, hwrite]
        simp
      refine ⟨score, score_of_mem_gpioCalls hcheck hmem, ?_⟩
      -- the score stands before every wiringPi call
      subst hwrite
      simp only [commandEvents, if_pos hcheck, List.cons_append] at hsplit
      rcases earlier with _ | ⟨e₁, _ | ⟨e₂, earlier⟩⟩
      · cases hsplit
      · cases hsplit
      · obtain ⟨-, hsplit⟩ := List.cons.inj hsplit
        obtain ⟨rfl, -⟩ := List.cons.inj hsplit
        simp
    · have hmem : .digitalWrite pin level' ∈ gpioCalls (commandEvents d pdev level score buffer) := by
        refine mem_gpioCalls_iff.mpr ⟨d', ?_⟩
        rw [hsplit, hwrite]
        simp
      rw [gpioCalls_commandEvents] at hmem
      simp [gateCalls, relockCalls, driveCalls_of_no_pin hpin] at hmem

/-- **Which records are protected**: those whose own entries set the check to `1` or the pin to `-1`, and
those that no frame addresses. -/
theorem failsClosed_gdeviceTable_iff (hb : (blocks IniCall.sectionName calls)[d]? = some b) :
    FailsClosed (gdeviceTable calls) d ↔
      lastOf (setting .checkFaceStatus) b.2 = some 1 ∨ lastOf (setting .gpioPin) b.2 = some (-1) ∨
        ∀ c : Command, c.target (gdeviceTable calls) ≠ some d := by
  have hg := getElem?_gdeviceTable hb
  have hactions : ∀ c : Command, c.target (gdeviceTable calls) = some d →
      (Justified FaceBeforeWrite (c.events (gdeviceTable calls)) ↔
        lastOf (setting .checkFaceStatus) b.2 = some 1 ∨
          lastOf (setting .gpioPin) b.2 = some (-1)) := by
    intro c htarget
    rw [Command.events_of_target htarget hg,
      justified_faceBeforeWrite_iff (requestedLevel_ne_neg_one c.status), checkFaceStatus_eq_one_iff,
      gpioPin_eq_neg_one_iff]
  have hresolves : ∀ c : Command, c.target (gdeviceTable calls) = some d →
      c.Resolves (gdeviceTable calls) := by
    intro c htarget
    right
    rw [(Command.target_eq_some_iff.mp htarget).2]
    rfl
  constructor
  · intro h
    by_cases haddressed : ∃ c : Command, c.target (gdeviceTable calls) = some d
    · obtain ⟨c, htarget⟩ := haddressed
      obtain ⟨s, out, hs, hout, hjustified⟩ := h [] [] c (by simp) htarget
      obtain rfl := Except.ok.inj hs
      obtain ⟨out', hout', -, hevents⟩ := Command.runs_events (hresolves c htarget) rfl []
      obtain rfl := Except.ok.inj (hout.symm.trans hout')
      rw [hevents, hactions c htarget] at hjustified
      exact hjustified.elim .inl fun hpin => .inr (.inl hpin)
    · exact .inr (.inr (not_exists.mp haddressed))
  · intro h buffer commands c hres htarget
    obtain ⟨s, hs, hconfig, -⟩ := exists_handleFrames_events (gdeviceTable calls) buffer commands hres
    obtain ⟨out, hout, -, hevents⟩ := Command.runs_events (hresolves c htarget) hconfig s.buffer
    refine ⟨s, out, hs, hout, ?_⟩
    rw [hevents, hactions c htarget]
    rcases h with hcheck | hpin | hsilent
    · exact .inl hcheck
    · exact .inr hpin
    · exact absurd htarget (hsilent c)

/-- **When face protection fails closed**: a record whose section asks for a face is protected exactly
when its own entries set the check to `1` or the pin to `-1`, or no frame addresses it.
Source: `receive_interface.c` `gdevice_ini_handler`, `receive_thread_handler`
Kind: P -/
theorem failsClosed_iff (calls : List IniCall) (d : ℕ) (b : String × List IniCall)
    (hb : (blocks IniCall.sectionName calls)[d]? = some b) :
    (AsksForFace calls b.1 → FailsClosed (gdeviceTable calls) d) ↔
      (AsksForFace calls b.1 →
        lastOf (setting .checkFaceStatus) b.2 = some 1 ∨ lastOf (setting .gpioPin) b.2 = some (-1) ∨
          ∀ c : Command, c.target (gdeviceTable calls) ≠ some d) :=
  imp_congr_right fun _ => failsClosed_gdeviceTable_iff hb

/-- The lock of the shipped configuration.
Source: `ini/gdevice.ini`
Kind: L -/
theorem failsClosed_lock :
    AsksForFace shippedCalls "lock" ∧ FailsClosed (gdeviceTable shippedCalls) 4 := by
  have hasks : AsksForFace shippedCalls "lock" := ⟨"1", by decide +kernel, by decide +kernel⟩
  refine ⟨hasks, ?_⟩
  exact (failsClosed_iff shippedCalls 4 ("lock", shippedCalls.take 6) (by decide +kernel)).mpr
    (fun _ => .inl (by decide +kernel)) hasks

/-- The lock, with `check_face_status=2`.
Source: none: an example. Kind: D -/
def lockCheckTwo : List IniCall :=
  [⟨"lock", "key", "0x44"⟩, ⟨"lock", "gpio_pin", "7"⟩, ⟨"lock", "gpio_mode", "OUTPUT"⟩,
    ⟨"lock", "check_face_status", "2"⟩]

/-- **`check_face_status=2` leaves the lock open**: a frame drives its pin, and no face is asked for.
Source: `receive_interface.c` `receive_thread_handler`
Kind: P -/
theorem check_two_unprotected :
    ¬ (AsksForFace lockCheckTwo "lock" → FailsClosed (gdeviceTable lockCheckTwo) 0) := by
  intro h
  have hasks : AsksForFace lockCheckTwo "lock" := ⟨"2", by decide +kernel, by decide +kernel⟩
  have hb : (blocks IniCall.sectionName lockCheckTwo)[0]? = some ("lock", lockCheckTwo) := by
    decide +kernel
  rcases (failsClosed_gdeviceTable_iff hb).mp (h hasks) with hcheck | hpin | hsilent
  · revert hcheck
    decide +kernel
  · revert hpin
    decide +kernel
  · exact hsilent ⟨0x44, 0, 0⟩ (by decide +kernel)

end SmartHome.Handler
