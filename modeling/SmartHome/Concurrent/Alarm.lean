import SmartHome.Found.Runs
import SmartHome.Handler.Dispatch
import SmartHome.Producers.SmokeGet
import SmartHome.Queue.ReceiveGet

/-!
# The fire alarm, from the sensor to the beeper

`AlarmRun` puts `smoke_get` and the dispatcher at the two ends of the message queue: a poll of the sensor
may append a frame, other producers append frames for other devices, and the head of the queue is
received and handled to completion. `smoke_get`'s sends succeed, and nobody else sends the code
`0x45`.

`AlarmFollows` is what the alarm is for, on the readings alone. `alarmFollows_of_allowed` proves it of
every state of every such run. The invariant (`Carried`) has three parts: the latch of `smoke_get`
(`Latched`), the queue discipline (of the messages handled and those still waiting, the `0x45` ones
are exactly what `smoke_get` has sent, in order), and what the handled messages have left on the
beeper's pin (`Handled`).
-/

set_option autoImplicit false

namespace SmartHome.Concurrent

open SmartHome.Device SmartHome.Controls SmartHome.Found SmartHome.Handler SmartHome.Producers
  SmartHome.Queue

/-- The sensor thread, the queue, the dispatcher (or the `NULL` it died of), and the record of an
observer: the readings, and what `smoke_get` has sent.
Source: `smoke_interface.c` `smoke_get`, `receive_interface.c` `receive_get`
Kind: D -/
structure AlarmRun where
  smoke : SmokeGet
  queue : List (List Byte)
  hub : Except NullDeref Outcome
  readings : List ℤ
  sent : List (List Byte)

/-- What happens: an iteration of `smoke_get`, a message of another producer, or the handling of the head
of the queue.
Source: `smoke_interface.c` `smoke_get`, `receive_interface.c` `receive_get`
Kind: D -/
inductive AlarmAct where
  | poll (reading : ℤ)
  | send (msg : List Byte)
  | handle (score : ℚ)

/-- At the start.
Source: `smoke_interface.c` `smoke_get`, `receive_interface.c` `receive_get`
Kind: D -/
def AlarmRun.init (pdevhead : List Gdevice) : AlarmRun :=
  ⟨SmokeGet.init, [], .ok ⟨pdevhead, clearedBuffer, []⟩, [], []⟩

/-- One step.
Source: `smoke_interface.c` `smoke_get`, `receive_interface.c` `receive_get`
Kind: D -/
def AlarmRun.step (s : AlarmRun) : AlarmAct → AlarmRun
  | .poll reading =>
      let x := s.smoke.poll reading
      { s with
        smoke := x.1
        queue := s.queue ++ x.2.toList
        readings := s.readings ++ [reading]
        sent := s.sent ++ x.2.toList }
  | .send msg => { s with queue := s.queue ++ [msg] }
  | .handle score =>
      match s.queue with
      | [] => s
      | msg :: queue =>
          { s with queue := queue, hub := s.hub.bind fun out => handleMessage score out msg }

/-- The sensor reads `LOW` or `HIGH`; the other producers send frames that resolve, with codes other than
`0x45`.
Source: none: the condition on the environment. Kind: D -/
def AlarmAct.Allowed (pdevhead : List Gdevice) : AlarmAct → Prop
  | .poll reading => reading = low ∨ reading = high
  | .send msg => ∃ c : Command, msg = c.frame ∧ c.code ≠ 0x45 ∧ c.Resolves pdevhead
  | .handle _ => True

/-- What `digitalRead` returned in a poll. Source: `smoke_interface.c` `smoke_get`. Kind: D -/
def AlarmAct.reading : AlarmAct → Option ℤ
  | .poll reading => some reading
  | .send _ | .handle _ => none

/-- A message with the alarm's code. Source: none: infrastructure. Kind: D -/
def ofSmoke (msg : List Byte) : Bool := byteAt msg 2 == 0x45

/-- **The alarm follows the sensor**: after these readings `smoke_get` has sent the frames for them
and nothing else; and once they are handled, the beeper's pin has never been driven if no reading was
`LOW`, and otherwise was last driven `LOW` exactly if the latest reading is `LOW`.
Source: none: the purpose of the alarm. Kind: D -/
structure AlarmFollows (pdev : Gdevice) (readings : List ℤ) (s : AlarmRun) : Prop where
  sent : s.sent = alarmFrames none readings
  pin : (∀ msg ∈ s.queue, ofSmoke msg = false) → ∃ out, s.hub = .ok out ∧
    (low ∉ readings → lastLevel pdev.gpioPin (gpioCalls out.events) = none) ∧
    (low ∈ readings → ∃ v, lastLevel pdev.gpioPin (gpioCalls out.events) = some v ∧
      (v = low ↔ readings.getLast? = some low))

/-! ## The invariant -/

/-- The invariant of the run.
Source: `smoke_interface.c` `smoke_get`, `receive_interface.c` `receive_thread_handler`
Kind: D -/
structure Carried (pdevhead : List Gdevice) (s : AlarmRun) : Prop where
  smoke : Latched s.readings s.smoke
  readings : ∀ reading ∈ s.readings, reading = low ∨ reading = high
  sent : s.sent = alarmFrames none s.readings
  queue : ∀ msg ∈ s.queue, ∃ c : Command, msg = c.frame ∧ c.Resolves pdevhead
  hub : ∃ out handled, s.hub = .ok out ∧ Handled pdevhead handled out ∧
    (handled.map Command.frame ++ s.queue).filter ofSmoke = s.sent

theorem carried_init (pdevhead : List Gdevice) : Carried pdevhead (AlarmRun.init pdevhead) where
  smoke := latched_init
  readings reading h := by simp [AlarmRun.init] at h
  sent := rfl
  queue msg h := by simp [AlarmRun.init] at h
  hub := ⟨_, [], rfl, handled_init pdevhead clearedBuffer, rfl⟩

variable {pdevhead : List Gdevice} {s : AlarmRun}

/-- What `smoke_get` sends has the alarm's code. -/
theorem ofSmoke_alarmFrame {previous : Option ℤ} {reading : ℤ} {msg : List Byte}
    (h : alarmFrame previous reading = some msg) : ∃ status, msg = frame 0x45 status := by
  unfold alarmFrame at h
  split_ifs at h
  · exact ⟨0, (Option.some.inj h).symm⟩
  · exact ⟨1, (Option.some.inj h).symm⟩

theorem carried_poll {d : ℕ} (hfind : findGdeviceByKey pdevhead 0x45 = some d)
    (hs : Carried pdevhead s) {reading : ℤ} (hreading : reading = low ∨ reading = high) :
    Carried pdevhead (s.step (.poll reading)) := by
  obtain ⟨hsmoke, hmsg⟩ := poll_of_latched hs.smoke hreading
  obtain ⟨out, handled, hhub, hhandled, hqueue⟩ := hs.hub
  simp only [AlarmRun.step, hmsg]
  refine ⟨hsmoke, ?_, ?_, ?_, out, handled, hhub, hhandled, ?_⟩
  · intro r hr
    rcases List.mem_append.mp hr with hold | hnew
    · exact hs.readings r hold
    · rw [List.mem_singleton.mp hnew]
      exact hreading
  · rw [alarmFrames_concat, ← hs.sent, Option.or_none]
  · intro msg hmem
    rcases List.mem_append.mp hmem with hold | hnew
    · exact hs.queue msg hold
    · obtain ⟨status, rfl⟩ := ofSmoke_alarmFrame (Option.mem_toList.mp hnew)
      refine ⟨⟨0x45, status, 0⟩, rfl, Or.inr ?_⟩
      have hcode : Byte.asInt 0x45 = 0x45 := rfl
      rw [hcode, hfind]
      rfl
  · rw [← List.append_assoc, List.filter_append, hqueue]
    congr 1
    rw [List.filter_eq_self]
    intro msg hmem
    obtain ⟨status, rfl⟩ := ofSmoke_alarmFrame (Option.mem_toList.mp hmem)
    rfl

theorem carried_send (hs : Carried pdevhead s) {c : Command} (hcode : c.code ≠ 0x45)
    (hres : c.Resolves pdevhead) : Carried pdevhead (s.step (.send c.frame)) := by
  obtain ⟨out, handled, hhub, hhandled, hqueue⟩ := hs.hub
  refine ⟨hs.smoke, hs.readings, hs.sent, ?_, out, handled, hhub, hhandled, ?_⟩
  · intro msg hmem
    rcases List.mem_append.mp hmem with hold | hnew
    · exact hs.queue msg hold
    · exact ⟨c, List.mem_singleton.mp hnew, hres⟩
  · have hother : ofSmoke c.frame = false := by
      simpa [ofSmoke, Command.frame] using hcode
    simp only [AlarmRun.step]
    rw [← List.append_assoc, List.filter_append, hqueue]
    simp [hother]

theorem carried_handle (hs : Carried pdevhead s) (score : ℚ) :
    Carried pdevhead (s.step (.handle score)) := by
  cases hq : s.queue with
  | nil => simpa only [AlarmRun.step, hq] using hs
  | cons msg queue =>
      obtain ⟨out, handled, hhub, hhandled, hqueue⟩ := hs.hub
      have hmem : ∀ m ∈ queue, m ∈ s.queue := fun m hm => hq ▸ List.mem_cons_of_mem _ hm
      obtain ⟨c, rfl, hres⟩ := hs.queue msg (hq ▸ List.mem_cons_self)
      have hres' : Command.Resolves pdevhead { c with score := score } := hres
      have hframe : Command.frame { c with score := score } = c.frame := rfl
      obtain ⟨out', hout', hhandled'⟩ := handled_concat hhandled hres'
      simp only [AlarmRun.step, hq]
      refine ⟨hs.smoke, hs.readings, hs.sent, fun m hm => hs.queue m (hmem m hm), out',
        handled ++ [{ c with score := score }], ?_, hhandled', ?_⟩
      · rw [hhub]
        exact hout'
      · rw [hq] at hqueue
        simpa only [hframe, List.map_append, List.map_cons, List.map_nil, List.append_assoc,
          List.singleton_append] using hqueue

theorem carried_step {d : ℕ} (hfind : findGdeviceByKey pdevhead 0x45 = some d) (s : AlarmRun)
    (a : AlarmAct) (hallowed : a.Allowed pdevhead) (hs : Carried pdevhead s) :
    Carried pdevhead (s.step a) := by
  cases a with
  | poll reading => exact carried_poll hfind hs hallowed
  | send msg =>
      obtain ⟨c, rfl, hcode, hres⟩ := hallowed
      exact carried_send hs hcode hres
  | handle score => exact carried_handle hs score

/-- The observer's readings are those of the polls. -/
theorem readings_run (s : AlarmRun) (acts : List AlarmAct) :
    (run AlarmRun.step s acts).readings = s.readings ++ acts.filterMap AlarmAct.reading := by
  induction acts generalizing s with
  | nil => exact (List.append_nil _).symm
  | cons a acts ih =>
      rw [run_cons, ih]
      cases a with
      | poll reading => simp [AlarmRun.step, AlarmAct.reading]
      | send msg => rfl
      | handle score =>
          simp only [AlarmRun.step]
          split <;> rfl

/-! ## From the sensor to the pin -/

/-- The level a message of `smoke_get` asks for. Source: none: the meaning of a command. Kind: D -/
def smokeLevel (msg : List Byte) : Option ℤ :=
  if ofSmoke msg then some (if byteAt msg 3 = 0 then low else high) else none

variable {d : ℕ} {pdev : Gdevice}

/-- Only the code `0x45` resolves to the beeper. -/
theorem target_eq_some_iff (hfind : findGdeviceByKey pdevhead 0x45 = some d) {c : Command} :
    c.target pdevhead = some d ↔ c.code = 0x45 := by
  obtain ⟨g, hg, hkey⟩ := exists_getElem?_of_find hfind
  unfold Command.target
  constructor
  · intro h
    split_ifs at h with h40
    obtain ⟨g', hg', hkey'⟩ := exists_getElem?_of_find h
    rw [hg] at hg'
    cases hg'
    have hcode : Byte.asInt 0x45 = c.code.asInt := hkey.symm.trans hkey'
    exact (Byte.asInt_inj hcode).symm
  · intro h
    have hcode : Byte.asInt 0x45 = 0x45 := rfl
    rw [h, if_neg (by decide), hcode, hfind]

theorem drives_eq_smokeLevel (hfind : findGdeviceByKey pdevhead 0x45 = some d)
    (hcheck : pdev.checkFaceStatus ≠ 1) (c : Command) :
    drives pdevhead d pdev c = smokeLevel c.frame := by
  rw [drives_of_ungated hcheck]
  by_cases hcode : c.code = 0x45
  · simp [Command.request, target_eq_some_iff hfind, hcode, smokeLevel, ofSmoke, Command.frame]
  · simp [Command.request, target_eq_some_iff hfind, hcode, smokeLevel, ofSmoke, Command.frame]

/-- The level the frames for a sequence of readings ask for last. -/
theorem lastOf_alarmFrames {readings : List ℤ} (h : ∀ r ∈ readings, r = low ∨ r = high) :
    lastOf smokeLevel (alarmFrames none readings) =
      if low ∈ readings then some (if readings.getLast? = some low then low else high) else none := by
  induction readings using List.reverseRecOn with
  | nil => rfl
  | append_singleton readings reading ih =>
      have ih := ih fun r hr => h r (List.mem_append_left _ hr)
      rw [alarmFrames_concat, Option.or_none, lastOf_append, ih]
      rcases h reading (by simp) with rfl | rfl
      · have halarm : lastOf smokeLevel (alarmFrame readings.getLast? low).toList = some low := rfl
        rw [halarm]
        simp
      · by_cases hlast : readings.getLast? = some low
        · have hclear : lastOf smokeLevel (alarmFrame readings.getLast? high).toList = some high := by
            simp only [alarmFrame, high_ne_low, if_false, hlast, if_true]
            rfl
          have hmem : low ∈ readings := List.mem_of_getLast? hlast
          rw [hclear]
          simp [hmem]
        · have hnone : lastOf smokeLevel (alarmFrame readings.getLast? high).toList = none := by
            simp only [alarmFrame, high_ne_low, if_false, hlast]
            rfl
          rw [hnone, Option.none_or]
          simp [hlast]

theorem Carried.alarmFollows (hs : Carried pdevhead s)
    (hfind : findGdeviceByKey pdevhead 0x45 = some d) (hg : pdevhead[d]? = some pdev)
    (hcheck : pdev.checkFaceStatus ≠ 1) (hpin : pdev.gpioPin ≠ -1) (hown : OwnPin pdevhead d pdev) :
    AlarmFollows pdev s.readings s := by
  refine ⟨hs.sent, fun hdone => ?_⟩
  obtain ⟨out, handled, hhub, hhandled, hqueue⟩ := hs.hub
  have hsmokeOnly : ∀ msg : List Byte, ofSmoke msg = false → smokeLevel msg = none := by
    intro msg hmsg
    simp [smokeLevel, hmsg]
  -- what the handled messages left on the pin is what `smoke_get` last asked for
  have hlevel : lastLevel pdev.gpioPin (gpioCalls out.events) =
      lastOf smokeLevel (alarmFrames none s.readings) := by
    calc lastLevel pdev.gpioPin (gpioCalls out.events)
        = lastOf (drives pdevhead d pdev) handled := hhandled.pin d pdev hg hpin hown
      _ = lastOf (fun c : Command => smokeLevel c.frame) handled := by
          rw [show drives pdevhead d pdev = fun c => smokeLevel c.frame from
            funext (drives_eq_smokeLevel hfind hcheck)]
      _ = lastOf smokeLevel (handled.map Command.frame) := (lastOf_map smokeLevel _ _).symm
      _ = lastOf smokeLevel (handled.map Command.frame ++ s.queue) := by
          have hsilent : lastOf smokeLevel s.queue = none :=
            (lastOf_eq_none_iff _).mpr fun msg hmsg => hsmokeOnly msg (hdone msg hmsg)
          rw [lastOf_append, hsilent, Option.none_or]
      _ = lastOf smokeLevel ((handled.map Command.frame ++ s.queue).filter ofSmoke) :=
          (lastOf_filter _ fun msg _ hmsg => hsmokeOnly msg hmsg).symm
      _ = lastOf smokeLevel (alarmFrames none s.readings) := by rw [hqueue, hs.sent]
  rw [lastOf_alarmFrames hs.readings] at hlevel
  refine ⟨out, hhub, fun hno => ?_, fun hlow => ?_⟩
  · rw [hlevel, if_neg hno]
  · rw [if_pos hlow] at hlevel
    refine ⟨_, hlevel, ?_⟩
    split_ifs with hlast
    · exact iff_of_true rfl hlast
    · exact iff_of_false high_ne_low hlast

/-- **The alarm follows the sensor, end to end**: if the beeper is found under `0x45`, needs no face and
has a pin of its own, then in every state of every run on readings `LOW` and `HIGH`, with any
resolving frames of other codes interleaved, the frames sent and the beeper's pin are as
`AlarmFollows` says of the readings of its polls.
Source: `smoke_interface.c` `smoke_get`, `receive_interface.c` `receive_thread_handler`
Kind: P -/
theorem alarmFollows_of_allowed (pdevhead : List Gdevice) (d : ℕ) (pdev : Gdevice)
    (hfind : findGdeviceByKey pdevhead 0x45 = some d) (hg : pdevhead[d]? = some pdev)
    (hcheck : pdev.checkFaceStatus ≠ 1) (hpin : pdev.gpioPin ≠ -1) (hown : OwnPin pdevhead d pdev)
    (acts : List AlarmAct) (hallowed : ∀ a ∈ acts, a.Allowed pdevhead) :
    AlarmFollows pdev (acts.filterMap AlarmAct.reading)
      (run AlarmRun.step (AlarmRun.init pdevhead) acts) := by
  have hmeets : Meets AlarmRun.step (fun _ a => AlarmAct.Allowed pdevhead a)
      (AlarmRun.init pdevhead) acts := Meets.of_forall_mem hallowed
  have hcarried := hmeets.invariant (carried_step hfind) (carried_init pdevhead)
  have hreadings : (run AlarmRun.step (AlarmRun.init pdevhead) acts).readings =
      acts.filterMap AlarmAct.reading := readings_run _ acts
  rw [← hreadings]
  exact hcarried.alarmFollows hfind hg hcheck hpin hown

/-- A fire and its end, with a command for a lamp in between.
Source: none: a run. Kind: D -/
def fireAndEnd : List AlarmAct :=
  [.poll high, .poll low, .send (frame 0x41 0), .handle 0, .handle 0, .poll high, .poll high, .handle 0]

/-- On the shipped configuration all frames are handled, and the beeper is last driven `HIGH`.
Source: `ini/gdevice.ini`
Kind: L -/
theorem alarmFollows_shipped :
    (run AlarmRun.step (AlarmRun.init (gdeviceTable shippedCalls)) fireAndEnd).queue = [] ∧
      (run AlarmRun.step (AlarmRun.init (gdeviceTable shippedCalls)) fireAndEnd).hub.toOption.bind
        (fun out => lastLevel 9 (gpioCalls out.events)) = some high ∧
      AlarmFollows ⟨"beep", 0x45, 9, output, high, 0, 1⟩ [high, low, high, high]
        (run AlarmRun.step (AlarmRun.init (gdeviceTable shippedCalls)) fireAndEnd) := by
  have hpins : PinsDistinct (gdeviceTable shippedCalls) := by decide +kernel
  have hg : (gdeviceTable shippedCalls)[3]? = some ⟨"beep", 0x45, 9, output, high, 0, 1⟩ := by
    decide +kernel
  refine ⟨by decide +kernel, by decide +kernel, ?_⟩
  refine alarmFollows_of_allowed (gdeviceTable shippedCalls) 3 _ (by decide +kernel) hg (by decide)
    (by decide) (hpins.ownPin hg (by decide)) fireAndEnd ?_
  intro a ha
  simp only [fireAndEnd, List.mem_cons, List.not_mem_nil, or_false] at ha
  rcases ha with rfl | rfl | rfl | rfl | rfl | rfl | rfl | rfl
  · exact Or.inr rfl
  · exact Or.inl rfl
  · exact ⟨⟨0x41, 0, 0⟩, rfl, by decide, by decide +kernel⟩
  · trivial
  · trivial
  · exact Or.inr rfl
  · exact Or.inr rfl
  · trivial

end SmartHome.Concurrent
