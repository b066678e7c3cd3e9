import SmartHome.Device.FrameBuffer
import SmartHome.Device.IniHandler
import SmartHome.Handler.Sequential

/-!
# Commands handled one at a time

`handleFrames` runs the handler to completion on one frame after another, all written to the same
buffer, and keeps the table, the buffer and the actions. What a sequence of commands leaves behind is
stated by `LastWriterWins`, from the commands alone: a device outside the gate shows, on its record
and on its pin, what the last command that resolves to it asked for; the pin of a device behind the
gate has been driven exactly when some command for it was accepted, and then stands `HIGH`; nothing
else in the table changes.

`handled_concat` is the step: one more command acts on its own record (`settles`) and on its own pin
(`drives`) and leaves the rest alone; for a pin this needs that no other device has it (`OwnPin`).
`handleFrames_lastWriterWins` is the run.
-/

set_option autoImplicit false

namespace SmartHome.Handler

open SmartHome.Device SmartHome.Controls SmartHome.Found

/-- A valid frame, and the score `face_score` returns if its handler asks.
Source: `receive_interface.c` `receive_thread_handler`
Kind: D -/
structure Command where
  code : Byte
  status : Byte
  score : ℚ
deriving DecidableEq

/-- The frame of a command. Source: none: infrastructure. Kind: D -/
def Command.frame (c : Command) : List Byte := Device.frame c.code c.status

/-- One message is received into the buffer and handled to completion.
Source: `receive_interface.c` `receive_get`, `receive_thread_handler`
Kind: D -/
def handleMessage (score : ℚ) (s : Outcome) (msg : List Byte) : Except NullDeref Outcome := do
  let out ← receiveThreadHandler mainControls score s.pdevhead (overlay msg s.buffer)
  return { out with events := s.events ++ out.events }

/-- Frames handled one at a time, in order.
Source: `receive_interface.c` `receive_get`, `receive_thread_handler`
Kind: D -/
def handleFrames (s : Outcome) (commands : List Command) : Except NullDeref Outcome :=
  commands.foldlM (fun s c => handleMessage c.score s c.frame) s

/-! ## What the commands ask for -/

/-- The record a command resolves to: none for the code `0x40`, else the first with its key.
Source: none: the meaning of a command. Kind: D -/
def Command.target (pdevhead : List Gdevice) (c : Command) : Option ℕ :=
  if c.code = 0x40 then none else findGdeviceByKey pdevhead c.code.asInt

/-- The code is `0x40` or the key of some record.
Source: none: the condition on the commands. Kind: D -/
def Command.Resolves (pdevhead : List Gdevice) (c : Command) : Prop :=
  c.code = 0x40 ∨ (findGdeviceByKey pdevhead c.code.asInt).isSome = true

/-- The level a command asks of record `d`: `LOW` for the status byte zero, `HIGH` for any other.
Source: none: the meaning of a command. Kind: D -/
def Command.request (pdevhead : List Gdevice) (d : ℕ) (c : Command) : Option ℤ :=
  if c.target pdevhead = some d then some (if c.status = 0 then low else high) else none

/-- Devices with a pin have pins of their own.
Source: none: the condition on the table. Kind: D -/
def PinsDistinct (pdevhead : List Gdevice) : Prop :=
  pdevhead.Pairwise fun pdev pdev' => pdev.gpioPin ≠ -1 → pdev.gpioPin ≠ pdev'.gpioPin

instance (pdevhead : List Gdevice) : Decidable (PinsDistinct pdevhead) :=
  inferInstanceAs (Decidable (List.Pairwise _ _))

instance (pdevhead : List Gdevice) (c : Command) : Decidable (c.Resolves pdevhead) :=
  inferInstanceAs (Decidable (_ ∨ _))

/-- No other record has the pin of record `d`.
Source: none: the condition on the table. Kind: D -/
def OwnPin (pdevhead : List Gdevice) (d : ℕ) (pdev : Gdevice) : Prop :=
  ∀ (d' : ℕ) (pdev' : Gdevice), pdevhead[d']? = some pdev' → pdev'.gpioPin = pdev.gpioPin → d' = d

/-- **Last writer wins, and nothing else is touched.**
Source: none: the purpose of the dispatcher. Kind: D -/
structure LastWriterWins (pdevhead : List Gdevice) (commands : List Command) (s : Outcome) :
    Prop where
  /-- A device outside the gate shows the last request for it. -/
  ungated : ∀ (d : ℕ) (pdev : Gdevice), pdevhead[d]? = some pdev → pdev.checkFaceStatus ≠ 1 →
    s.pdevhead[d]? = some { pdev with
      gpioStatus := (lastOf (Command.request pdevhead d) commands).getD pdev.gpioStatus } ∧
    (pdev.gpioPin ≠ -1 → lastLevel pdev.gpioPin (gpioCalls s.events) =
      lastOf (Command.request pdevhead d) commands)
  /-- The pin of a device behind the gate is driven for accepted commands only, and is relocked. -/
  gated : ∀ (d : ℕ) (pdev : Gdevice), pdevhead[d]? = some pdev → pdev.checkFaceStatus = 1 →
    pdev.gpioPin ≠ -1 →
    ((lastLevel pdev.gpioPin (gpioCalls s.events)).isSome = true ↔
      ∃ c ∈ commands, c.target pdevhead = some d ∧ 1 / 2 < c.score) ∧
    ∀ v, lastLevel pdev.gpioPin (gpioCalls s.events) = some v → v = high
  /-- The order of the list and everything but `gpio_status` in it. -/
  config : s.pdevhead.map Gdevice.config = pdevhead.map Gdevice.config

/-! ## What one command does -/

/-- The level a command leaves in record `d`.
Source: none: the meaning of a command. Kind: D -/
def settles (pdevhead : List Gdevice) (d : ℕ) (pdev : Gdevice) (c : Command) : Option ℤ :=
  if c.target pdevhead = some d then some (settledStatus pdev (requestedLevel c.status) c.score)
  else none

/-- The level a command leaves on the pin of record `d`.
Source: none: the meaning of a command. Kind: D -/
def drives (pdevhead : List Gdevice) (d : ℕ) (pdev : Gdevice) (c : Command) : Option ℤ :=
  if c.target pdevhead = some d then
    if pdev.checkFaceStatus = 1 then if accepted c.score then some high else none
    else some (requestedLevel c.status)
  else none

/-- What is true after the commands have been handled, record by record and pin by pin.
Source: `receive_interface.c` `receive_thread_handler`
Kind: D -/
structure Handled (pdevhead : List Gdevice) (commands : List Command) (s : Outcome) : Prop where
  config : s.pdevhead.map Gdevice.config = pdevhead.map Gdevice.config
  record : ∀ (d : ℕ) (pdev : Gdevice), pdevhead[d]? = some pdev → s.pdevhead[d]? = some { pdev with
    gpioStatus := (lastOf (settles pdevhead d pdev) commands).getD pdev.gpioStatus }
  pin : ∀ (d : ℕ) (pdev : Gdevice), pdevhead[d]? = some pdev → pdev.gpioPin ≠ -1 →
    OwnPin pdevhead d pdev → lastLevel pdev.gpioPin (gpioCalls s.events) =
      lastOf (drives pdevhead d pdev) commands

variable {pdevhead : List Gdevice} {commands : List Command} {s : Outcome}

theorem byteAt_code (c : Command) (buffer : List Byte) :
    byteAt (overlay c.frame buffer) 2 = c.code := byteAt_overlay_of_lt _ (by simp [Command.frame])

theorem byteAt_status (c : Command) (buffer : List Byte) :
    byteAt (overlay c.frame buffer) 3 = c.status := byteAt_overlay_of_lt _ (by simp [Command.frame])

theorem Command.target_eq_some_iff {c : Command} {d : ℕ} :
    c.target pdevhead = some d ↔ c.code ≠ 0x40 ∧ findGdeviceByKey pdevhead c.code.asInt = some d := by
  unfold Command.target
  split_ifs with h40 <;> simp [h40]

/-- A command with a target runs to completion. Source: none: infrastructure. Kind: L -/
theorem Command.runs {c : Command} {d : ℕ} {pdev : Gdevice} (htarget : c.target pdevhead = some d)
    (hg : pdevhead[d]? = some pdev) (buffer : List Byte) :
    receiveThreadHandler mainControls c.score pdevhead (overlay c.frame buffer) =
      .ok ⟨setStatus pdevhead d (settledStatus pdev (requestedLevel c.status) c.score),
        repliedBuffer pdev c.score (overlay c.frame buffer),
        commandEvents d pdev (requestedLevel c.status) c.score (overlay c.frame buffer)⟩ := by
  obtain ⟨h40, hfind⟩ := Command.target_eq_some_iff.mp htarget
  rw [receiveThreadHandler_of_find (by rwa [byteAt_code]) (by rwa [byteAt_code]) hg, byteAt_status]

theorem PinsDistinct.ownPin (hpins : PinsDistinct pdevhead) {d : ℕ} {pdev : Gdevice}
    (hg : pdevhead[d]? = some pdev) (hpin : pdev.gpioPin ≠ -1) : OwnPin pdevhead d pdev := by
  intro d' pdev' hg' hsame
  obtain ⟨hd, rfl⟩ := List.getElem?_eq_some_iff.mp hg
  obtain ⟨hd', rfl⟩ := List.getElem?_eq_some_iff.mp hg'
  have hpair := List.pairwise_iff_getElem.mp hpins
  rcases Nat.lt_trichotomy d' d with hlt | heq | hgt
  · exact absurd hsame (hpair d' d hd' hd hlt (hsame ▸ hpin))
  · exact heq
  · exact absurd hsame.symm (hpair d d' hd hd' hgt hpin)

theorem lastLevel_driveCalls (pin : ℤ) (pdev : Gdevice) {level : ℤ} (hlevel : level ≠ -1) :
    lastLevel pin (driveCalls pdev level) =
      if pdev.gpioPin = pin ∧ pin ≠ -1 then some level else none := by
  rw [driveCalls, lastLevel_setGpio]
  by_cases hpin : pdev.gpioPin = pin
  · subst hpin
    simp [hlevel]
  · simp [hpin]

/-- The level a resolved command leaves on a pin: its own, and no other. -/
theorem lastLevel_command (pin : ℤ) (pdev : Gdevice) (c : Command) :
    lastLevel pin (gateCalls pdev (requestedLevel c.status) c.score ++ relockCalls pdev c.score) =
      if pdev.gpioPin = pin ∧ pin ≠ -1 then
        if pdev.checkFaceStatus = 1 then if accepted c.score then some high else none
        else some (requestedLevel c.status)
      else none := by
  have hrequest := lastLevel_driveCalls pin pdev (requestedLevel_ne_neg_one c.status)
  have hhigh := lastLevel_driveCalls pin pdev (show high ≠ -1 by decide)
  unfold gateCalls relockCalls
  rw [lastLevel_append]
  by_cases hcheck : pdev.checkFaceStatus = 1
  · cases haccept : accepted c.score with
    | true =>
        by_cases hpin : pdev.gpioPin = pin ∧ pin ≠ -1
        · simp [hcheck, hhigh, hpin]
        · simp [hcheck, hhigh, hrequest, hpin]
    | false => simp [hcheck]
  · simp [hcheck, hrequest]

theorem handled_init (pdevhead : List Gdevice) (buffer : List Byte) :
    Handled pdevhead [] ⟨pdevhead, buffer, []⟩ where
  config := rfl
  record d pdev hg := by simpa using hg
  pin d pdev hg hpin hown := rfl

/-- A dropped frame changes nothing. -/
theorem handled_skip (h : Handled pdevhead commands s) {c : Command}
    (htarget : c.target pdevhead = none) {s' : Outcome} (hdev : s'.pdevhead = s.pdevhead)
    (hev : s'.events = s.events) : Handled pdevhead (commands ++ [c]) s' := by
  refine ⟨hdev ▸ h.config, fun d pdev hg => ?_, fun d pdev hg hpin hown => ?_⟩
  · have hsilent : settles pdevhead d pdev c = none := by simp [settles, htarget]
    rw [lastOf_concat, hsilent, Option.none_or, hdev]
    exact h.record d pdev hg
  · have hsilent : drives pdevhead d pdev c = none := by simp [drives, htarget]
    rw [lastOf_concat, hsilent, Option.none_or, hev]
    exact h.pin d pdev hg hpin hown

/-- A resolved command acts on its record and its pin, and leaves the others alone. -/
theorem handled_find (h : Handled pdevhead commands s) {c : Command}
    {d₀ : ℕ} {pdev₀ : Gdevice} (htarget : c.target pdevhead = some d₀)
    (hg₀ : pdevhead[d₀]? = some pdev₀) {s' : Outcome}
    (hdev : s'.pdevhead =
      setStatus s.pdevhead d₀ (settledStatus pdev₀ (requestedLevel c.status) c.score))
    (hev : gpioCalls s'.events = gpioCalls s.events ++
      (gateCalls pdev₀ (requestedLevel c.status) c.score ++ relockCalls pdev₀ c.score)) :
    Handled pdevhead (commands ++ [c]) s' := by
  refine ⟨?_, fun d pdev hg => ?_, fun d pdev hg hpin hown => ?_⟩
  · rw [hdev, map_config_setStatus, h.config]
  · rw [hdev, lastOf_concat]
    have hrecord := h.record d pdev hg
    by_cases hd : d₀ = d
    · subst hd
      obtain rfl : pdev₀ = pdev := Option.some.inj (hg₀.symm.trans hg)
      rw [getElem?_setStatus_self hrecord]
      simp [settles, htarget]
    · have hsilent : settles pdevhead d pdev c = none := by simp [settles, htarget, hd]
      rw [getElem?_setStatus_ne _ hd, hrecord, hsilent, Option.none_or]
  · rw [hev, lastLevel_append, lastLevel_command, lastOf_concat, h.pin d pdev hg hpin hown]
    congr 1
    by_cases hd : d₀ = d
    · subst hd
      obtain rfl : pdev₀ = pdev := Option.some.inj (hg₀.symm.trans hg)
      simp [drives, htarget, hpin]
    · -- another record with this pin would be this record
      have hother : pdev₀.gpioPin ≠ pdev.gpioPin := fun hsame => hd (hown d₀ pdev₀ hg₀ hsame)
      simp [drives, htarget, hd, hother]

theorem settledStatus_gpioStatus (pdev : Gdevice) (v level : ℤ) (score : ℚ) :
    settledStatus { pdev with gpioStatus := v } level score = settledStatus pdev level score := rfl

theorem gateCalls_gpioStatus (pdev : Gdevice) (v level : ℤ) (score : ℚ) :
    gateCalls { pdev with gpioStatus := v } level score = gateCalls pdev level score := rfl

theorem relockCalls_gpioStatus (pdev : Gdevice) (v : ℤ) (score : ℚ) :
    relockCalls { pdev with gpioStatus := v } score = relockCalls pdev score := rfl

/-- **One more command**: it is handled without a crash, and what it leaves behind is added to what the
earlier ones left.
Source: `receive_interface.c` `receive_thread_handler`
Kind: L -/
theorem handled_concat (h : Handled pdevhead commands s) {c : Command}
    (hres : c.Resolves pdevhead) :
    ∃ s', handleMessage c.score s c.frame = .ok s' ∧ Handled pdevhead (commands ++ [c]) s' := by
  unfold handleMessage
  by_cases h40 : c.code = 0x40
  · rw [receiveThreadHandler_of_skip mainControls ((byteAt_code c s.buffer).trans h40)]
    refine ⟨_, rfl, handled_skip h (by simp [Command.target, h40]) rfl (List.append_nil _)⟩
  · obtain ⟨d₀, hfind₀⟩ := Option.isSome_iff_exists.mp (hres.resolve_left h40)
    obtain ⟨pdev₀, hg₀, -⟩ := exists_getElem?_of_find hfind₀
    have htarget : c.target pdevhead = some d₀ := Command.target_eq_some_iff.mpr ⟨h40, hfind₀⟩
    have htarget' : c.target s.pdevhead = some d₀ := by
      rw [Command.target_eq_some_iff, findGdeviceByKey_of_map_config h.config]
      exact ⟨h40, hfind₀⟩
    rw [Command.runs htarget' (h.record d₀ pdev₀ hg₀)]
    refine ⟨_, rfl, handled_find h htarget hg₀ ?_ ?_⟩
    · rw [settledStatus_gpioStatus]
    · rw [gpioCalls_append, gpioCalls_commandEvents, gateCalls_gpioStatus, relockCalls_gpioStatus]

/-- Any number of commands. -/
theorem exists_handled (buffer : List Byte)
    (hres : ∀ c ∈ commands, c.Resolves pdevhead) :
    ∃ s, handleFrames ⟨pdevhead, buffer, []⟩ commands = .ok s ∧ Handled pdevhead commands s := by
  induction commands using List.reverseRecOn with
  | nil => exact ⟨_, rfl, handled_init pdevhead buffer⟩
  | append_singleton commands c ih =>
      obtain ⟨s, hs, hhandled⟩ := ih fun c' hc' => hres c' (List.mem_append_left _ hc')
      have hc : c.Resolves pdevhead := hres c (List.mem_append_right _ List.mem_cons_self)
      obtain ⟨s', hs', hhandled'⟩ := handled_concat hhandled hc
      refine ⟨s', ?_, hhandled'⟩
      unfold handleFrames at hs ⊢
      rw [List.foldlM_append, hs]
      simp only [bind, Except.bind, List.foldlM_cons, hs']
      rfl

/-! ## What the commands leave behind -/

theorem settles_of_ungated {d : ℕ} {pdev : Gdevice} (hcheck : pdev.checkFaceStatus ≠ 1) :
    settles pdevhead d pdev = Command.request pdevhead d := by
  funext c
  simp [settles, Command.request, settledStatus, requestedLevel, hcheck]

theorem drives_of_ungated {d : ℕ} {pdev : Gdevice} (hcheck : pdev.checkFaceStatus ≠ 1) :
    drives pdevhead d pdev = Command.request pdevhead d := by
  funext c
  unfold drives Command.request requestedLevel
  rw [if_neg hcheck]

/-- Behind the gate a command drives the pin when its face was accepted, and leaves it `HIGH`. -/
theorem drives_eq_some_iff {d : ℕ} {pdev : Gdevice} (hcheck : pdev.checkFaceStatus = 1)
    {c : Command} {v : ℤ} : drives pdevhead d pdev c = some v ↔
      (c.target pdevhead = some d ∧ 1 / 2 < c.score) ∧ v = high := by
  unfold drives
  rw [if_pos hcheck]
  split_ifs with htarget haccept
  · rw [accepted_iff] at haccept
    constructor
    · intro h
      exact ⟨⟨htarget, haccept⟩, (Option.some.inj h).symm⟩
    · rintro ⟨-, rfl⟩
      rfl
  · rw [accepted_iff] at haccept
    exact ⟨fun h => by simp at h, fun h => absurd h.1.2 haccept⟩
  · exact ⟨fun h => by simp at h, fun h => absurd h.1.1 htarget⟩

theorem Handled.lastWriterWins (h : Handled pdevhead commands s) (hpins : PinsDistinct pdevhead) :
    LastWriterWins pdevhead commands s where
  ungated d pdev hg hcheck := by
    have hrecord := h.record d pdev hg
    rw [settles_of_ungated hcheck] at hrecord
    refine ⟨hrecord, fun hpin => ?_⟩
    rw [h.pin d pdev hg hpin (hpins.ownPin hg hpin), drives_of_ungated hcheck]
  gated d pdev hg hcheck hpin := by
    rw [h.pin d pdev hg hpin (hpins.ownPin hg hpin)]
    refine ⟨?_, fun v hv => ?_⟩
    · rw [lastOf_isSome_iff]
      constructor
      · rintro ⟨c, hc, hdrives⟩
        obtain ⟨v, hv⟩ := Option.isSome_iff_exists.mp hdrives
        exact ⟨c, hc, ((drives_eq_some_iff hcheck).mp hv).1⟩
      · rintro ⟨c, hc, haccept⟩
        refine ⟨c, hc, ?_⟩
        rw [(drives_eq_some_iff hcheck).mpr ⟨haccept, rfl⟩]
        rfl
    · obtain ⟨c, -, hc⟩ := exists_mem_of_lastOf_eq_some _ hv
      exact ((drives_eq_some_iff hcheck).mp hc).2
  config := h.config

/-- **Last writer wins, without interference**: on a table whose pins are distinct, any sequence of
commands that resolve (or are dropped), handled one at a time, is handled without a crash, and leaves
behind what `LastWriterWins` says.
Source: `receive_interface.c` `receive_thread_handler`
Kind: P -/
theorem handleFrames_lastWriterWins (pdevhead : List Gdevice) (hpins : PinsDistinct pdevhead)
    (buffer : List Byte) (commands : List Command) (hres : ∀ c ∈ commands, c.Resolves pdevhead) :
    ∃ s, handleFrames ⟨pdevhead, buffer, []⟩ commands = .ok s ∧
      LastWriterWins pdevhead commands s := by
  obtain ⟨s, hs, h⟩ := exists_handled buffer hres
  exact ⟨s, hs, h.lastWriterWins hpins⟩

/-- Two commands for the living-room lamp, one for the lock and a dropped one, on the shipped
configuration.
Source: `ini/gdevice.ini`
Kind: L -/
theorem handleFrames_lastWriterWins_shipped :
    ∃ s, handleFrames ⟨gdeviceTable shippedCalls, [], []⟩
        [⟨0x41, 0, 0⟩, ⟨0x44, 0, 9 / 10⟩, ⟨0x40, 1, 0⟩, ⟨0x41, 1, 0⟩] = .ok s ∧
      LastWriterWins (gdeviceTable shippedCalls)
        [⟨0x41, 0, 0⟩, ⟨0x44, 0, 9 / 10⟩, ⟨0x40, 1, 0⟩, ⟨0x41, 1, 0⟩] s :=
  handleFrames_lastWriterWins (gdeviceTable shippedCalls) (by decide +kernel) []
    [⟨0x41, 0, 0⟩, ⟨0x44, 0, 9 / 10⟩, ⟨0x40, 1, 0⟩, ⟨0x41, 1, 0⟩] (by decide +kernel)

end SmartHome.Handler
