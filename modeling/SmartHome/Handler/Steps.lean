import SmartHome.Found.Runs
import SmartHome.Handler.Sequential

/-!
# `receive_thread_handler`, one shared access at a time

Handlers run as threads that share the device table and the frame buffer. `HandlerThread.step` is one
step of one of them: one read or write of shared memory, or one call, at the point of the body
named by `Pc`. `set_gpio_gdevice_status` takes two steps, one for each of its calls. A local
variable of the body is a field of `HandlerThread`; `code` and `status` are what an observer notes, the
byte the lookup was made with and the byte the level was taken from.

What one step can do to the shared memory is said once, by `HandlerThread.step_effect`: only the reply
of the face check writes the frame, only `gpio_status` is written in the table, and actions are
recorded under the handler's number, wiringPi calls among them only from inside
`set_gpio_gdevice_status`. Later files use it and never the branches of the body again, except for
the handler they are about.

`step_alone` connects this reading of the function with the one in `Sequential.lean`: a handler that
nobody disturbs ends exactly where `receiveThreadHandler` says, or dies of the `NULL` it names.
-/

set_option autoImplicit false

namespace SmartHome.Handler

open SmartHome.Device SmartHome.Controls SmartHome.Found

/-! ## The thread and the memory it shares -/

/-- What the handlers share: the device table, `receive_msg->buffer`, the actions so far with the
number of the handler that took them, and the `NULL` the process died of.
Source: `receive_interface.c` `receive_thread_handler`
Kind: D -/
structure Memory where
  pdevhead : List Gdevice
  buffer : List Byte
  events : List (ℕ × Event)
  crashed : Option NullDeref
deriving DecidableEq

/-- The three places that call `set_gpio_gdevice_status`.
Source: `receive_interface.c` `receive_thread_handler`
Kind: D -/
inductive Site where
  | accepted
  | ungated
  | relock
deriving DecidableEq, Repr

/-- What the body does next. `store` holds the status byte just read, the steps of the announcement
the node the search stopped at.
Source: `receive_interface.c` `receive_thread_handler`
Kind: D -/
inductive Pc where
  | idTest
  | lookup
  | level
  | store (status : Byte)
  | gate
  | face
  | pinMode (site : Site)
  | digitalWrite (site : Site)
  | reply
  | voiceTest
  | fireCode (pcontrol : Control)
  | fireStatus (pcontrol : Control)
  | startSet (pcontrol : Control)
  | oled
  | relockTest
  | relockStore
  | exited
deriving DecidableEq, Repr

/-- The local variables of a handler, and the two bytes an observer notes.
Source: `receive_interface.c` `receive_thread_handler`
Kind: D -/
structure HandlerThread where
  pc : Pc
  pcurGdevice : Option ℕ
  ret : ℤ
  faceResult : ℚ
  smokeStatus : ℤ
  successOrFailed : String
  code : Option Byte
  status : Option Byte
deriving DecidableEq

/-- A handler just started.
Source: `receive_interface.c` `receive_thread_handler`
Kind: D -/
def HandlerThread.init : HandlerThread := ⟨.idTest, none, -1, 0, -1, "success", none, none⟩

/-- Actions of handler `tid`. Source: none: infrastructure. Kind: D -/
def Memory.emit (m : Memory) (tid : ℕ) (es : List Event) : Memory :=
  { m with events := m.events ++ es.map (Prod.mk tid) }

/-- Going through `pcur_gdevice`: to the record, or to the end of the process.
Source: none: infrastructure. Kind: D -/
def HandlerThread.through (h : HandlerThread) (m : Memory) (k : ℕ → Gdevice → Memory × HandlerThread) :
    Memory × HandlerThread :=
  match h.pcurGdevice with
  | none => ({ m with crashed := some .pcurGdevice }, h)
  | some d =>
      match m.pdevhead[d]? with
      | none => ({ m with crashed := some .pcurGdevice }, h)
      | some pdev => k d pdev

/-- Where the body goes on after `set_gpio_gdevice_status`, with the value it returned. The relock
drops the value.
Source: `receive_interface.c` `receive_thread_handler`
Kind: D -/
def HandlerThread.driven (h : HandlerThread) (ret : ℤ) : Site → HandlerThread
  | .accepted => { h with pc := .reply, ret := ret }
  | .ungated => { h with pc := .voiceTest, ret := ret, successOrFailed := Handler.successOrFailed ret }
  | .relock => { h with pc := .exited }

/-- One step of handler `tid`; `score` is what `face_score` returns if this step calls it.
Source: `receive_interface.c` `receive_thread_handler`
Kind: D -/
def HandlerThread.step (controlPhead : List Control) (score : ℚ) (tid : ℕ) (m : Memory)
    (h : HandlerThread) : Memory × HandlerThread :=
  match h.pc with
  | .idTest => (m, { h with pc := if byteAt m.buffer 2 = 0x40 then .exited else .lookup })
  | .lookup =>
      let found := findGdeviceByKey m.pdevhead (byteAt m.buffer 2).asInt
      (m.emit tid [.findGdeviceByKey found],
        { h with
          pc := if found.isSome then .level else .voiceTest
          pcurGdevice := found
          code := some (byteAt m.buffer 2) })
  | .level =>
      (m, { h with pc := .store (byteAt m.buffer 3), status := some (byteAt m.buffer 3) })
  | .store status => h.through m fun d _ =>
      ({ m with pdevhead := setStatus m.pdevhead d (requestedLevel status) },
        { h with pc := .gate })
  | .gate => h.through m fun _ pdev =>
      (m, { h with pc := if pdev.checkFaceStatus = 1 then .face else .pinMode .ungated })
  | .face =>
      (m.emit tid [.faceScore score],
        { h with
          pc := if accepted score then .pinMode .accepted else .reply
          faceResult := score })
  | .pinMode site => h.through m fun d pdev =>
      (m.emit tid ((pinModeCall pdev).map (.gpio d)), { h with pc := .digitalWrite site })
  | .digitalWrite site => h.through m fun d pdev =>
      (m.emit tid ((digitalWriteCall pdev).map (.gpio d)),
        h.driven (setGpioGdeviceStatus (some pdev)).2 site)
  | .reply =>
      ({ m with buffer := m.buffer.set 2 (faceReply h.faceResult) }, { h with pc := .voiceTest })
  | .voiceTest => h.through m fun _ pdev =>
      if pdev.voiceSetStatus = 1 ∧ controlPhead ≠ [] then
        match voiceSearch controlPhead with
        | none => (m, { h with pc := .oled })
        | some pcontrol => (m, { h with pc := .fireCode pcontrol })
      else (m, { h with pc := .oled })
  | .fireCode pcontrol =>
      (m, { h with
        pc := if byteAt m.buffer 2 = 0x45 then .fireStatus pcontrol else .startSet pcontrol })
  | .fireStatus pcontrol =>
      (m, { h with
        pc := .startSet pcontrol
        smokeStatus := if byteAt m.buffer 3 = 0 then 1 else h.smokeStatus })
  | .startSet pcontrol =>
      if pcontrol.hasSet then (m.emit tid [.startSet pcontrol], { h with pc := .oled })
      else ({ m with crashed := some .setRoutine }, h)
  | .oled => h.through m fun _ pdev =>
      (m.emit tid [.myoledShow (oledMsg pdev h.smokeStatus h.successOrFailed)],
        { h with pc := .relockTest })
  | .relockTest => h.through m fun _ pdev =>
      (m, { h with pc := if relocks pdev h.ret h.faceResult then .relockStore else .exited })
  | .relockStore => h.through m fun d _ =>
      ({ m with pdevhead := setStatus m.pdevhead d high }, { h with pc := .pinMode .relock })
  | .exited => (m, h)

/-! ## What one step can do -/

variable {controlPhead : List Control} {score : ℚ} {tid : ℕ} {m : Memory} {h : HandlerThread}

/-- A step through `pcur_gdevice` is the step at the record, or the crash. -/
theorem HandlerThread.through_induction {P : Memory × HandlerThread → Prop}
    {k : ℕ → Gdevice → Memory × HandlerThread}
    (hcrash : P ({ m with crashed := some .pcurGdevice }, h))
    (hk : ∀ d pdev, h.pcurGdevice = some d → m.pdevhead[d]? = some pdev → P (k d pdev)) :
    P (h.through m k) := by
  unfold HandlerThread.through
  cases hd : h.pcurGdevice with
  | none => exact hcrash
  | some d =>
      cases hg : m.pdevhead[d]? with
      | none => simpa only [hg] using hcrash
      | some pdev => simpa only [hg] using hk d pdev hd hg

/-- The handler is inside `set_gpio_gdevice_status` for record `d`.
Source: `receive_interface.c` `receive_thread_handler`
Kind: D -/
def HandlerThread.Driving (h : HandlerThread) (d : ℕ) : Prop :=
  h.pcurGdevice = some d ∧ ∃ site, h.pc = .pinMode site ∨ h.pc = .digitalWrite site

/-- The effects a step can have on the shared memory: only the reply of the face check writes the
frame, only `gpio_status` is written in the table, actions go under the handler's number, and pins
are driven only inside `set_gpio_gdevice_status` and for the handler's own record.
Source: `receive_interface.c` `receive_thread_handler`
Kind: D -/
structure Effect (tid : ℕ) (m : Memory) (h : HandlerThread) (m' : Memory) : Prop where
  buffer : m'.buffer = if h.pc = .reply then m.buffer.set 2 (faceReply h.faceResult) else m.buffer
  config : m'.pdevhead.map Gdevice.config = m.pdevhead.map Gdevice.config
  events : ∃ es : List Event, m'.events = m.events ++ es.map (Prod.mk tid) ∧
    ∀ d call, Event.gpio d call ∈ es → h.Driving d

theorem Effect.quiet (hpc : h.pc ≠ .reply) (crashed : Option NullDeref) :
    Effect tid m h { m with crashed := crashed } :=
  ⟨(if_neg hpc).symm, rfl, [], by simp, by simp⟩

theorem Effect.emit (hpc : h.pc ≠ .reply) {es : List Event}
    (hes : ∀ d call, Event.gpio d call ∈ es → h.Driving d) : Effect tid m h (m.emit tid es) :=
  ⟨(if_neg hpc).symm, rfl, es, rfl, hes⟩

theorem Effect.setStatus (hpc : h.pc ≠ .reply) (d : ℕ) (v : ℤ) :
    Effect tid m h { m with pdevhead := Device.setStatus m.pdevhead d v } :=
  ⟨(if_neg hpc).symm, map_config_setStatus .., [], by simp, by simp⟩

theorem Effect.through (hpc : h.pc ≠ .reply) {k : ℕ → Gdevice → Memory × HandlerThread}
    (hk : ∀ d pdev, h.pcurGdevice = some d → Effect tid m h (k d pdev).1) :
    Effect tid m h (h.through m k).1 :=
  HandlerThread.through_induction (P := fun x => Effect tid m h x.1) (Effect.quiet hpc _)
    fun d pdev hd _ => hk d pdev hd

/-- The calls of `set_gpio_gdevice_status` are made for the handler's record. -/
theorem Effect.gpio {d : ℕ} {calls : List GpioCall} (hd : h.pcurGdevice = some d)
    (hpc : ∃ site, h.pc = .pinMode site ∨ h.pc = .digitalWrite site) :
    Effect tid m h (m.emit tid (calls.map (.gpio d))) := by
  have hreply : h.pc ≠ .reply := by
    obtain ⟨site, hpc | hpc⟩ := hpc <;> simp [hpc]
  apply Effect.emit hreply
  intro d' call hmem
  obtain ⟨c, -, hc⟩ := List.mem_map.mp hmem
  cases hc
  exact ⟨hd, hpc⟩

/-- **What a step can do to the shared memory.**
Source: `receive_interface.c` `receive_thread_handler`
Kind: P -/
theorem HandlerThread.step_effect (controlPhead : List Control) (score : ℚ) (tid : ℕ) (m : Memory)
    (h : HandlerThread) : Effect tid m h (h.step controlPhead score tid m).1 := by
  by_cases hreply : h.pc = .reply
  · refine ⟨?_, ?_, [], ?_, by simp⟩
    all_goals simp [HandlerThread.step, hreply]
  · have hquiet : ∀ crashed, Effect tid m h { m with crashed := crashed } := Effect.quiet hreply
    unfold HandlerThread.step
    cases hpc : h.pc with
    | idTest => exact hquiet m.crashed
    | lookup => exact Effect.emit hreply (by simp)
    | level => exact hquiet m.crashed
    | store status => exact Effect.through hreply fun d _ _ => Effect.setStatus hreply d _
    | gate => exact Effect.through hreply fun _ _ _ => hquiet m.crashed
    | face => exact Effect.emit hreply (by simp)
    | pinMode site =>
        exact Effect.through hreply fun d _ hd => Effect.gpio hd ⟨site, Or.inl hpc⟩
    | digitalWrite site =>
        exact Effect.through hreply fun d _ hd => Effect.gpio hd ⟨site, Or.inr hpc⟩
    | reply => exact absurd hpc hreply
    | voiceTest =>
        apply Effect.through hreply
        intro _ pdev _
        split_ifs
        · cases voiceSearch controlPhead with
          | none => exact hquiet m.crashed
          | some pcontrol => exact hquiet m.crashed
        · exact hquiet m.crashed
    | fireCode pcontrol => exact hquiet m.crashed
    | fireStatus pcontrol => exact hquiet m.crashed
    | startSet pcontrol =>
        simp only
        split_ifs
        · exact Effect.emit hreply (by simp)
        · exact hquiet _
    | oled => exact Effect.through hreply fun _ _ _ => Effect.emit hreply (by simp)
    | relockTest => exact Effect.through hreply fun _ _ _ => hquiet m.crashed
    | relockStore => exact Effect.through hreply fun d _ _ => Effect.setStatus hreply d _
    | exited => exact hquiet m.crashed

/-! ## A handler nobody disturbs -/

/-- Handler `tid` moving alone.
Source: `receive_interface.c` `receive_thread_handler`
Kind: D -/
def HandlerThread.alone (controlPhead : List Control) (tid : ℕ) (x : Memory × HandlerThread)
    (score : ℚ) : Memory × HandlerThread :=
  x.2.step controlPhead score tid x.1

/-- The memory `m` after handler `tid` has done what a run to completion records.
Source: none: infrastructure. Kind: D -/
def Memory.after (m : Memory) (tid : ℕ) (s : Outcome) : Memory :=
  { m with
    pdevhead := s.pdevhead
    buffer := s.buffer
    events := m.events ++ s.events.map (Prod.mk tid) }

/-- A thread ends as a run to completion says: at the end of the body with the same effects, or in
the same crash.
Source: none: infrastructure. Kind: D -/
def EndsAs (m : Memory) (tid : ℕ) (x : Memory × HandlerThread) : Except NullDeref Outcome → Prop
  | .ok s => x.1 = m.after tid s ∧ x.2.pc = .exited
  | .error e => x.1.crashed = some e

variable (controlPhead score tid m) {s : Outcome} {d : ℕ} {pdev : Gdevice}

theorem Memory.after_emit (s : Outcome) (es : List Event) :
    (m.after tid s).emit tid es = m.after tid (s.emit es) := by
  simp [Memory.after, Memory.emit, Outcome.emit]

@[simp] theorem Memory.after_pdevhead (s : Outcome) :
    (m.after tid s).pdevhead = s.pdevhead := rfl

@[simp] theorem Memory.after_buffer (s : Outcome) :
    (m.after tid s).buffer = s.buffer := rfl

/-- The two steps of `set_gpio_gdevice_status`. -/
theorem drive_alone {site : Site} (hpc : h.pc = .pinMode site) (hd : h.pcurGdevice = some d)
    (hg : s.pdevhead[d]? = some pdev) :
    Repeats (HandlerThread.alone controlPhead tid) score (m.after tid s, h)
      (m.after tid (drive d s).1, h.driven (drive d s).2 site) := by
  have hmode : HandlerThread.alone controlPhead tid (m.after tid s, h) score =
      (m.after tid (s.emit ((pinModeCall pdev).map (.gpio d))), { h with pc := .digitalWrite site }) := by
    simp [HandlerThread.alone, HandlerThread.step, HandlerThread.through, hpc, hd, hg,
      Memory.after_emit]
  have hlevel : HandlerThread.alone controlPhead tid
      (m.after tid (s.emit ((pinModeCall pdev).map (.gpio d))), { h with pc := .digitalWrite site })
        score = (m.after tid (drive d s).1, h.driven (drive d s).2 site) := by
    simp only [HandlerThread.alone, HandlerThread.step, HandlerThread.through, hd,
      Memory.after_pdevhead, Memory.after_emit, drive, hg, setGpioGdeviceStatus, Outcome.emit,
      List.map_append, List.append_assoc]
    cases site <;> simp [HandlerThread.driven, hd]
  exact Repeats.head hmode (Repeats.single hlevel)

theorem face_alone (hpc : h.pc = .face) :
    HandlerThread.alone controlPhead tid (m.after tid s, h) score =
      (m.after tid (s.emit [.faceScore score]),
        { h with
          pc := if accepted score then .pinMode .accepted else .reply
          faceResult := score }) := by
  simp [HandlerThread.alone, HandlerThread.step, hpc, Memory.after_emit]

theorem reply_alone (hpc : h.pc = .reply) :
    HandlerThread.alone controlPhead tid (m.after tid s, h) score =
      (m.after tid { s with buffer := s.buffer.set 2 (faceReply h.faceResult) },
        { h with pc := .voiceTest }) := by
  simp only [HandlerThread.alone, HandlerThread.step, hpc]
  rfl

/-- The steps of the command part. -/
theorem command_alone (c : Byte) (hg : s.pdevhead[d]? = some pdev) :
    ∃ s' l, commandPhase score (some d) s = .ok (s', l) ∧
      s'.pdevhead = setStatus s.pdevhead d (requestedLevel (byteAt s.buffer 3)) ∧
      Repeats (HandlerThread.alone controlPhead tid) score
        (m.after tid s, ⟨.level, some d, -1, 0, -1, "success", some c, none⟩)
        (m.after tid s', ⟨.voiceTest, some d, l.ret, l.faceResult, -1, l.successOrFailed, some c,
          some (byteAt s.buffer 3)⟩) := by
  have hstored := getElem?_setStatus_self hg (requestedLevel (byteAt s.buffer 3))
  -- the level is read and stored, and the gate read
  have hstart : Repeats (HandlerThread.alone controlPhead tid) score
      (m.after tid s, ⟨.level, some d, -1, 0, -1, "success", some c, none⟩)
      (m.after tid { s with pdevhead := setStatus s.pdevhead d (requestedLevel (byteAt s.buffer 3)) },
        ⟨if pdev.checkFaceStatus = 1 then .face else .pinMode .ungated, some d, -1, 0, -1, "success",
          some c, some (byteAt s.buffer 3)⟩) :=
    ⟨3, by simp [run, HandlerThread.alone, HandlerThread.step, HandlerThread.through, hg, hstored,
      Memory.after]⟩
  unfold commandPhase
  simp only [deref_setStatus hg, bind, Except.bind, pure, Except.pure]
  by_cases hcheck : pdev.checkFaceStatus = 1
  · rw [if_pos hcheck] at hstart ⊢
    have hface := hstart.trans (Repeats.single (face_alone controlPhead score tid m rfl))
    cases haccept : accepted score with
    | true =>
        rw [haccept] at hface
        have hdriven := hface.trans (drive_alone controlPhead score tid m rfl rfl hstored)
        have hreply := hdriven.trans (Repeats.single (reply_alone controlPhead score tid m rfl))
        refine ⟨_, _, rfl, rfl, ?_⟩
        simpa only [HandlerThread.driven, faceReply, haccept, if_true] using hreply
    | false =>
        rw [haccept] at hface
        have hreply := hface.trans (Repeats.single (reply_alone controlPhead score tid m rfl))
        refine ⟨_, _, rfl, rfl, ?_⟩
        simpa only [faceReply, haccept, Bool.false_eq_true, if_false] using hreply
  · rw [if_neg hcheck] at hstart ⊢
    have hdriven := hstart.trans (drive_alone controlPhead score tid m rfl rfl hstored)
    exact ⟨_, _, rfl, rfl, hdriven⟩

/-- The steps of the fire test. -/
theorem fire_alone {pcontrol : Control} (hpc : h.pc = .fireCode pcontrol)
    (hsmoke : h.smokeStatus = -1) :
    Repeats (HandlerThread.alone controlPhead tid) score (m.after tid s, h)
      (m.after tid s, { h with
        pc := .startSet pcontrol
        smokeStatus := smokeStatus (byteAt s.buffer 2) (byteAt s.buffer 3) }) := by
  by_cases hcode : byteAt s.buffer 2 = 0x45
  · refine ⟨2, ?_⟩
    by_cases hstatus : byteAt s.buffer 3 = 0
    all_goals simp [run, HandlerThread.alone, HandlerThread.step, hpc, hcode, hsmoke, smokeStatus,
      hstatus]
  · refine ⟨1, ?_⟩
    simp [run, HandlerThread.alone, HandlerThread.step, hpc, hcode, hsmoke, smokeStatus]

/-- The steps of the announcement. -/
theorem voice_alone (hpc : h.pc = .voiceTest) (hd : h.pcurGdevice = some d)
    (hsmoke : h.smokeStatus = -1) (hg : s.pdevhead[d]? = some pdev) :
    match voicePhase controlPhead pdev s with
    | .ok (s', smoke) => s'.pdevhead = s.pdevhead ∧
        Repeats (HandlerThread.alone controlPhead tid) score (m.after tid s, h)
          (m.after tid s', { h with pc := .oled, smokeStatus := smoke })
    | .error e => ∃ x, Repeats (HandlerThread.alone controlPhead tid) score (m.after tid s, h) x ∧
        x.1.crashed = some e := by
  unfold voicePhase
  split_ifs with hvoice
  · cases hsearch : voiceSearch controlPhead with
    | none =>
        refine ⟨rfl, Repeats.single ?_⟩
        simp [HandlerThread.alone, HandlerThread.step, HandlerThread.through, hpc, hd, hg, hvoice,
          hsearch, hsmoke]
    | some pcontrol =>
        have hfound : HandlerThread.alone controlPhead tid (m.after tid s, h) score =
            (m.after tid s, { h with pc := .fireCode pcontrol }) := by
          simp [HandlerThread.alone, HandlerThread.step, HandlerThread.through, hpc, hd, hg, hvoice,
            hsearch]
        have hfire := (Repeats.single hfound).trans (fire_alone controlPhead score tid m rfl hsmoke)
        cases hset : pcontrol.hasSet with
        | true =>
            simp only [hset, if_true]
            refine ⟨rfl, hfire.trans (Repeats.single ?_)⟩
            simp [HandlerThread.alone, HandlerThread.step, hset, Memory.after_emit]
        | false =>
            simp only [hset, Bool.false_eq_true, if_false]
            refine ⟨_, hfire.trans (Repeats.single rfl), ?_⟩
            simp [HandlerThread.alone, HandlerThread.step, hset]
  · refine ⟨rfl, Repeats.single ?_⟩
    simp [HandlerThread.alone, HandlerThread.step, HandlerThread.through, hpc, hd, hg, hvoice, hsmoke]

theorem oled_alone (hpc : h.pc = .oled) (hd : h.pcurGdevice = some d)
    (hg : s.pdevhead[d]? = some pdev) :
    HandlerThread.alone controlPhead tid (m.after tid s, h) score =
      (m.after tid (s.emit [.myoledShow (oledMsg pdev h.smokeStatus h.successOrFailed)]),
        { h with pc := .relockTest }) := by
  simp [HandlerThread.alone, HandlerThread.step, HandlerThread.through, hpc, hd, hg,
    Memory.after_emit]

/-- The steps of the relock. -/
theorem relock_alone {l : Locals} (hpc : h.pc = .relockTest)
    (hd : h.pcurGdevice = some d) (hg : s.pdevhead[d]? = some pdev) (hret : h.ret = l.ret)
    (hface : h.faceResult = l.faceResult) :
    ∃ h', Repeats (HandlerThread.alone controlPhead tid) score (m.after tid s, h)
      (m.after tid (relockPhase (some d) pdev l s), h') ∧ h'.pc = .exited := by
  unfold relockPhase
  rw [← hret, ← hface]
  by_cases hrelock : relocks pdev h.ret h.faceResult = true
  · have hstored := getElem?_setStatus_self hg high
    have hstart : Repeats (HandlerThread.alone controlPhead tid) score (m.after tid s, h)
        (m.after tid { s with pdevhead := setStatus s.pdevhead d high },
          { h with pc := .pinMode .relock }) :=
      ⟨2, by simp [run, HandlerThread.alone, HandlerThread.step, HandlerThread.through, hpc, hd, hg,
        hrelock, Memory.after]⟩
    simp only [hrelock, if_true]
    exact ⟨_, hstart.trans (drive_alone controlPhead score tid m rfl hd hstored), rfl⟩
  · refine ⟨{ h with pc := .exited }, Repeats.single ?_, rfl⟩
    simp [HandlerThread.alone, HandlerThread.step, HandlerThread.through, hpc, hd, hg, hrelock]

/-- **A handler nobody disturbs does what a run to completion says**: it reaches the end of its body
with the same table, frame and actions, or dies of the same `NULL`.
Source: `receive_interface.c` `receive_thread_handler`
Kind: P -/
theorem step_alone :
    ∃ x, Repeats (HandlerThread.alone controlPhead tid) score (m, HandlerThread.init) x ∧
      EndsAs m tid x (receiveThreadHandler controlPhead score m.pdevhead m.buffer) := by
  by_cases h40 : byteAt m.buffer 2 = 0x40
  · rw [receiveThreadHandler_of_skip controlPhead h40]
    refine ⟨_, Repeats.single rfl, ?_⟩
    simp [HandlerThread.alone, HandlerThread.step, HandlerThread.init, h40, EndsAs, Memory.after]
  · have hid : HandlerThread.alone controlPhead tid (m, HandlerThread.init) score =
        (m, { HandlerThread.init with pc := .lookup }) := by
      simp [HandlerThread.alone, HandlerThread.step, HandlerThread.init, h40]
    cases hfind : findGdeviceByKey m.pdevhead (byteAt m.buffer 2).asInt with
    | none =>
        rw [receiveThreadHandler_of_find_none controlPhead h40 hfind]
        refine ⟨_, Repeats.head hid (Repeats.head rfl (Repeats.single rfl)), ?_⟩
        simp [HandlerThread.alone, HandlerThread.step, HandlerThread.init, HandlerThread.through, hfind,
          EndsAs]
    | some d =>
        obtain ⟨pdev, hg, -⟩ := exists_getElem?_of_find hfind
        have hlookup : HandlerThread.alone controlPhead tid
            (m, { HandlerThread.init with pc := .lookup }) score =
            (m.after tid ⟨m.pdevhead, m.buffer, [.findGdeviceByKey (some d)]⟩,
              ⟨.level, some d, -1, 0, -1, "success", some (byteAt m.buffer 2), none⟩) := by
          simp [HandlerThread.alone, HandlerThread.step, HandlerThread.init, hfind, Memory.emit,
            Memory.after]
        obtain ⟨s, l, hcommand, htable, hsteps⟩ := command_alone controlPhead score tid m
          (s := ⟨m.pdevhead, m.buffer, [.findGdeviceByKey (some d)]⟩) (byteAt m.buffer 2) hg
        have hstart := Repeats.head hid (Repeats.head hlookup hsteps)
        have hgs : s.pdevhead[d]? =
            some { pdev with gpioStatus := requestedLevel (byteAt m.buffer 3) } := by
          rw [htable]
          exact getElem?_setStatus_self hg _
        have hderef : deref s.pdevhead (some d) =
            .ok { pdev with gpioStatus := requestedLevel (byteAt m.buffer 3) } := by
          simp [deref, hgs]
        have hvoice := voice_alone controlPhead score tid m (s := s)
          (h := ⟨.voiceTest, some d, l.ret, l.faceResult, -1, l.successOrFailed,
            some (byteAt m.buffer 2), some (byteAt m.buffer 3)⟩) rfl rfl rfl hgs
        unfold receiveThreadHandler
        rw [if_neg h40]
        simp only [hfind, hcommand, bind, Except.bind, pure, Except.pure, hderef]
        cases hphase : voicePhase controlPhead
            { pdev with gpioStatus := requestedLevel (byteAt m.buffer 3) } s with
        | error e =>
            rw [hphase] at hvoice
            obtain ⟨x, hx, hcrash⟩ := hvoice
            exact ⟨x, hstart.trans hx, hcrash⟩
        | ok r =>
            obtain ⟨s', smoke⟩ := r
            rw [hphase] at hvoice
            obtain ⟨htable', hx⟩ := hvoice
            have hgs' := htable'.symm ▸ hgs
            have hderef' : deref s'.pdevhead (some d) =
                .ok { pdev with gpioStatus := requestedLevel (byteAt m.buffer 3) } := by
              rw [htable']
              exact hderef
            have holed := oled_alone controlPhead score tid m (s := s')
              (h := ⟨.oled, some d, l.ret, l.faceResult, smoke, l.successOrFailed,
                some (byteAt m.buffer 2), some (byteAt m.buffer 3)⟩) rfl rfl hgs'
            obtain ⟨h', hrelock, hexit⟩ := relock_alone controlPhead score tid m
              (s := s'.emit [.myoledShow (oledMsg
                { pdev with gpioStatus := requestedLevel (byteAt m.buffer 3) } smoke
                l.successOrFailed)])
              (h := ⟨.relockTest, some d, l.ret, l.faceResult, smoke, l.successOrFailed,
                some (byteAt m.buffer 2), some (byteAt m.buffer 3)⟩) (l := l) rfl rfl hgs' rfl rfl
            simp only [hderef']
            exact ⟨_, hstart.trans (hx.trans (Repeats.head holed hrelock)), rfl, hexit⟩

end SmartHome.Handler
