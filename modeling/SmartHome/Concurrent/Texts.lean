import SmartHome.Concurrent.System
import SmartHome.Device.DeviceFile

/-!
# What can be displayed

Handlers write the level of a device and read it again for their text, so with several at work a
text may show the level that another one has stored. This file says what it cannot show. In every
interleaving a text is the fire warning, or the name of a configured device with `Open` or `Close`
and the word `success`: no handler gets to `failed`, because `set_gpio_gdevice_status` fails for
`NULL` only (`displayable_after`).

With a device file this bounds the buffers. The parser copies at most `MAX_SECTION - 1` characters
of the name of a section, so `strcpy` into `dev_name` and `sprintf` into `oled_msg` stay inside
their arrays, whatever the file holds and however the handlers overlap (`fits_after`).
-/

set_option autoImplicit false

namespace SmartHome.Concurrent

open SmartHome.Device SmartHome.Controls SmartHome.Found SmartHome.Handler SmartHome.Ini SmartHome.Queue

/-- A text the display can be given.
Source: `receive_interface.c` `receive_thread_handler`
Kind: D -/
def Displayable (pdevhead : List Gdevice) (text : String) : Prop :=
  text = "risk of fire exists" ∨ ∃ pdev ∈ pdevhead,
    text = pdev.devName ++ " Open success" ∨ text = pdev.devName ++ " Close success"

variable {controlPhead : List Control} {score : ℚ} {tid : ℕ} {m : Memory} {h : HandlerThread}
  {pdevhead : List Gdevice}

/-- The text of a record in memory is displayable: its name is the configured one. -/
theorem displayable_oledMsg (hconf : m.pdevhead.map Gdevice.config = pdevhead.map Gdevice.config)
    {d : ℕ} {pdev : Gdevice} (hg : m.pdevhead[d]? = some pdev) (smokeStatus : ℤ) :
    Displayable pdevhead (oledMsg pdev smokeStatus "success") := by
  obtain ⟨pdev', hg', hconfig⟩ := exists_getElem?_of_map_config hconf hg
  have hname : pdev'.devName = pdev.devName := (congrArg Gdevice.devName hconfig :)
  by_cases hsmoke : smokeStatus = 1
  · exact Or.inl (by simp [oledMsg, hsmoke])
  · refine Or.inr ⟨pdev', List.mem_of_getElem? hg', ?_⟩
    rw [hname]
    by_cases hlow : pdev.gpioStatus = low
    · exact Or.inl (by simp [oledMsg, hsmoke, hlow, String.append_assoc])
    · exact Or.inr (by simp [oledMsg, hsmoke, hlow, String.append_assoc])

/-- What a step does to the display: it can show such a text, and the word stays `success`.
Source: `receive_interface.c` `receive_thread_handler`
Kind: D -/
structure Displays (pdevhead : List Gdevice) (tid : ℕ) (m : Memory) (x : Memory × HandlerThread) :
    Prop where
  word : x.2.successOrFailed = "success"
  texts : ∃ es : List Event, x.1.events = m.events ++ es.map (Prod.mk tid) ∧
    ∀ text, .myoledShow text ∈ es → Displayable pdevhead text

theorem Displays.quiet {x : Memory × HandlerThread} (hevents : x.1.events = m.events)
    (hword : x.2.successOrFailed = "success") : Displays pdevhead tid m x :=
  ⟨hword, [], by simp [hevents], by simp⟩

theorem Displays.emit {h' : HandlerThread} {es : List Event} (hes : ∀ text, .myoledShow text ∉ es)
    (hword : h'.successOrFailed = "success") : Displays pdevhead tid m (m.emit tid es, h') :=
  ⟨hword, es, rfl, fun text htext => absurd htext (hes text)⟩

/-- **A handler's step**: only one point of the body shows a text.
Source: `receive_interface.c` `receive_thread_handler`
Kind: L -/
theorem displays_step (hconf : m.pdevhead.map Gdevice.config = pdevhead.map Gdevice.config)
    (hword : h.successOrFailed = "success") (tid : ℕ) (controlPhead : List Control) (score : ℚ) :
    Displays pdevhead tid m (h.step controlPhead score tid m) := by
  have hthrough : ∀ {k : ℕ → Gdevice → Memory × HandlerThread},
      (∀ d pdev, m.pdevhead[d]? = some pdev → Displays pdevhead tid m (k d pdev)) →
        Displays pdevhead tid m (h.through m k) := fun hk =>
    HandlerThread.through_induction (P := Displays pdevhead tid m) (.quiet rfl hword)
      fun d pdev _ hg => hk d pdev hg
  unfold HandlerThread.step
  cases h.pc with
  | idTest | level | fireCode | fireStatus | reply | exited => exact .quiet rfl hword
  | lookup | face => exact .emit (by simp) hword
  | store | gate | relockTest | relockStore => exact hthrough fun _ _ _ => .quiet rfl hword
  | pinMode => exact hthrough fun _ _ _ => .emit (by simp) hword
  | digitalWrite site =>
      refine hthrough fun d pdev _ => .emit (by simp) ?_
      cases site with
      | ungated => rfl
      | accepted | relock => exact hword
  | voiceTest =>
      refine hthrough fun d pdev _ => ?_
      split_ifs
      · cases voiceSearch controlPhead with
        | none => exact .quiet rfl hword
        | some pcontrol => exact .quiet rfl hword
      · exact .quiet rfl hword
  | startSet pcontrol =>
      simp only
      split_ifs
      · exact .emit (by simp) hword
      · exact .quiet rfl hword
  | oled =>
      refine hthrough fun d pdev hg => ⟨hword, _, rfl, fun text htext => ?_⟩
      obtain rfl : text = oledMsg pdev h.smokeStatus h.successOrFailed := by simpa using htext
      rw [hword]
      exact displayable_oledMsg hconf hg _

/-! ## The whole hub -/

/-- The invariant of the hub.
Source: `receive_interface.c` `receive_get`, `receive_thread_handler`
Kind: D -/
structure Displaying (pdevhead : List Gdevice) (s : System) : Prop where
  config : s.mem.pdevhead.map Gdevice.config = pdevhead.map Gdevice.config
  words : ∀ h ∈ s.handlers, h.successOrFailed = "success"
  texts : ∀ tid text, (tid, Event.myoledShow text) ∈ s.mem.events → Displayable pdevhead text

variable {s : System}

theorem displaying_handler (hs : Displaying pdevhead s) (hh : s.handlers[tid]? = some h) :
    Displaying pdevhead { s with
      mem := (h.step controlPhead score tid s.mem).1
      handlers := s.handlers.set tid (h.step controlPhead score tid s.mem).2 } := by
  obtain ⟨hword, es, hevents, htexts⟩ := displays_step hs.config
    (hs.words h (List.mem_of_getElem? hh)) tid controlPhead score
  refine ⟨(h.step_effect controlPhead score tid s.mem).config.trans hs.config, fun h' hh' => ?_,
    fun i text he => ?_⟩
  · rcases List.mem_or_eq_of_mem_set hh' with hold | rfl
    · exact hs.words h' hold
    · exact hword
  · simp only [hevents, List.mem_append, List.mem_map, Prod.mk.injEq] at he
    rcases he with he | ⟨e, he, -, rfl⟩
    · exact hs.texts i text he
    · exact htexts text he

theorem displaying_step (s : System) (a : Act) (hs : Displaying pdevhead s) :
    Displaying pdevhead (s.step controlPhead a) := by
  apply System.step_induction a hs
  · exact fun _ _ _ => ⟨hs.config, hs.words, hs.texts⟩
  · exact fun _ _ => ⟨hs.config, hs.words, hs.texts⟩
  · refine fun _ => ⟨hs.config, fun h hh => ?_, hs.texts⟩
    rcases List.mem_append.mp hh with hold | hnew
    · exact hs.words h hold
    · rw [List.mem_singleton.mp hnew]
      rfl
  · exact fun tid score h _ hh => displaying_handler hs hh
  · exact ⟨hs.config, hs.words, hs.texts⟩

theorem displaying_after (controlPhead : List Control) (pdevhead : List Gdevice) (acts : List Act) :
    Displaying pdevhead (System.after controlPhead pdevhead acts) := by
  have hinit : Displaying pdevhead (System.init pdevhead) :=
    ⟨rfl, fun _ hh => absurd hh List.not_mem_nil, fun _ _ he => absurd he List.not_mem_nil⟩
  exact run_invariant displaying_step hinit acts

/-- **What can be displayed**, on every device table and in every interleaving: the fire warning, or
the name of a configured device with `Open` or `Close` and `success`.
Source: `receive_interface.c` `receive_get`, `receive_thread_handler`
Kind: P -/
theorem displayable_after (controlPhead : List Control) (pdevhead : List Gdevice) (acts : List Act) :
    ∀ tid text, (tid, Event.myoledShow text) ∈ (System.after controlPhead pdevhead acts).mem.events →
      Displayable pdevhead text :=
  (displaying_after controlPhead pdevhead acts).texts

/-- One command, handled until its text is shown. Source: none: a run. Kind: D -/
def oneCommandShown : List Act :=
  [.mqReceive (some (frame 0x41 0)), .memcpy, .pthreadCreate] ++ List.replicate 11 (.handler 0 0)

/-- On the shipped configuration the living room lamp is reported.
Source: `receive_interface.c` `receive_thread_handler`
Kind: L -/
theorem displayable_oneCommandShown :
    Displayable (gdeviceTable shippedCalls) "livRmLed Open success" :=
  displayable_after mainControls (gdeviceTable shippedCalls) oneCommandShown 0 _ (by decide +kernel)

/-! ## The buffers -/

/-- `char dev_name[128]`. Source: `gdevice.h` `struct gdevice`. Kind: D -/
def devNameSize : ℕ := 128

/-- `char oled_msg[512]`. Source: `receive_interface.c` `receive_thread_handler`. Kind: D -/
def oledMsgSize : ℕ := 512

/-- A string, one character for each byte, and its terminator fit. Source: none: infrastructure.
Kind: D -/
def FitsIn (size : ℕ) (s : String) : Prop := s.length < size

/-- A text for short names is short. -/
theorem Displayable.length_le {text : String} (ht : Displayable pdevhead text) {n : ℕ}
    (hnames : ∀ pdev ∈ pdevhead, pdev.devName.length ≤ n) : text.length ≤ n + 19 := by
  have hfire : "risk of fire exists".length = 19 := by decide
  have hopen : " Open success".length = 13 := by decide
  have hclose : " Close success".length = 14 := by decide
  rcases ht with rfl | ⟨pdev, hpdev, rfl | rfl⟩
  · omega
  · have := hnames pdev hpdev
    rw [String.length_append]
    omega
  · have := hnames pdev hpdev
    rw [String.length_append]
    omega

/-- The names that `receive_init` reads. Source: `receive_interface.c` `receive_init`. Kind: L -/
theorem length_devName_receiveInit (file : Option (List Char)) (myoledInit : ℤ) :
    ∀ pdev ∈ (receiveInit file myoledInit).pdevhead, pdev.devName.length < maxSection := by
  cases file with
  | none =>
      rw [receiveInit_none]
      exact fun pdev hpdev => absurd hpdev List.not_mem_nil
  | some text =>
      rw [receiveInit_some]
      intro pdev hpdev
      have hhanded : ∀ c ∈ iniCalls text, HandedOn c := fun c hc => handedOn_of_mem_iniCalls hc
      have hconf := configurable_gdeviceTable hhanded
      exact (hconf.records pdev hpdev).devName.fits

/-- **Nothing goes over the end of a buffer**: whatever the device file holds, the name of every
device fits into `dev_name`; and in every interleaving of the hub that runs on it, every text fits
into `oled_msg`.
Source: `receive_interface.c` `gdevice_ini_handler`, `receive_init`, `receive_thread_handler`,
`ini.c` `ini_parse_stream`
Kind: P -/
theorem fits_after (file : Option (List Char)) (myoledInit : ℤ) (controlPhead : List Control)
    (acts : List Act) :
    (∀ pdev ∈ (receiveInit file myoledInit).pdevhead, FitsIn devNameSize pdev.devName) ∧
      ∀ tid text, (tid, Event.myoledShow text) ∈
          (System.after controlPhead (receiveInit file myoledInit).pdevhead acts).mem.events →
        FitsIn oledMsgSize text := by
  have hnames := length_devName_receiveInit file myoledInit
  have hsection : maxSection = 50 := rfl
  constructor
  · intro pdev hpdev
    have hname := hnames pdev hpdev
    unfold FitsIn devNameSize
    omega
  · intro tid text htext
    have hshown := (displaying_after controlPhead (receiveInit file myoledInit).pdevhead acts).texts tid
      text htext
    have hlength := hshown.length_le fun pdev hpdev => (hnames pdev hpdev).le
    unfold FitsIn oledMsgSize
    omega

end SmartHome.Concurrent
