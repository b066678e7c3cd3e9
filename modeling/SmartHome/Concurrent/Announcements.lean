import SmartHome.Concurrent.Commands

/-!
# Whether each announcement speaks its own command

An announcement is a thread started with the address of the shared frame; it reads the six bytes when it
gets to run. Even with handlers that never overlap, the frame may have changed by then: the next `memcpy`
writes it, and so does the reply of the next face check.

`AnnouncesOwn` compares what was written to the serial line with what the frames asked for
(`announcement`). It holds in every state of a sequential run in which the frame keeps its six bytes
while an announcement is pending (`FrameKept`, `announcesOwn_of_frameKept`); two announced commands, and
a first announcement that is late, are enough to break it (`late_announcement_repeats_next`).

Two invariants carry this. `OnFrame` follows the handler at work through its body: what the frame holds
compared with its message, until its announcement is started. `Speaks` says that the strings written,
and the six bytes once for each pending announcement, are those that the handlers past that point
asked for.
-/

set_option autoImplicit false

namespace SmartHome.Concurrent

open SmartHome.Device SmartHome.Controls SmartHome.Found SmartHome.Handler SmartHome.Queue
open scoped List

/-! ## Announcements written, announcements asked for -/

/-- The record a message addresses: none for the code `0x40`.
Source: none: the meaning of a command. Kind: D -/
def addressed (pdevhead : List Gdevice) (msg : List Byte) : Option Gdevice :=
  if byteAt msg 2 = 0x40 then none
  else (findGdeviceByKey pdevhead (byteAt msg 2).asInt).bind (pdevhead[·]?)

/-- The announcement a message asks for, if its record is announced: the message, its code replaced by
the reply of the face check where the record asks for a face.
Source: none: the meaning of a command. Kind: D -/
def announcement (pdevhead : List Gdevice) (msg : List Byte) (faceResult : ℚ) : Option (List Byte) :=
  (addressed pdevhead msg).bind fun pdev =>
    if pdev.voiceSetStatus = 1 then some (repliedBuffer pdev faceResult msg) else none

/-- **Each announcement speaks its own command**: once every handler has exited, no message is in hand
and no announcement pending, each message has had its handler, and the strings written are those the
messages asked for.
Source: none: the purpose of the announcements. Kind: D -/
def AnnouncesOwn (pdevhead : List Gdevice) (s : System) : Prop :=
  (∀ h ∈ s.handlers, h.pc = .exited) → s.recv.pc = .receiving →
    s.serial.length = announcements s.mem.events →
      s.dequeued.length = s.handlers.length ∧
        s.serial ~ (s.dequeued.zip s.handlers).filterMap fun x =>
          announcement pdevhead x.1 x.2.faceResult

/-! ## The conditions -/

/-- The message is a complete valid frame whose code is dropped or has a record.
Source: none: the condition on the queue. Kind: D -/
def ResolvingFrame (pdevhead : List Gdevice) (msg : List Byte) : Prop :=
  (msg.length = 6 ∧ frameMarked msg = true) ∧
    (byteAt msg 2 = 0x40 ∨ (findGdeviceByKey pdevhead (byteAt msg 2).asInt).isSome = true)

/-- Messages are complete valid frames that resolve.
Source: none: the condition on the queue. Kind: D -/
def DeliversResolving (pdevhead : List Gdevice) : Act → Prop
  | .mqReceive (some msg) => ResolvingFrame pdevhead msg
  | _ => True

/-- The next message is dequeued only when every handler has exited.
Source: none: the condition on the schedule. Kind: D -/
def Sequential (s : System) : Act → Prop
  | .mqReceive _ => ∀ h ∈ s.handlers, h.pc = .exited
  | _ => True

/-- While an announcement is pending the step writes no other byte over the six bytes of the frame.
Source: none: the condition on the schedule. Kind: D -/
def FrameKept (s : System) (a : Act) : Prop :=
  s.serial.length < announcements s.mem.events →
    ∀ k < 6, ∀ b ∈ s.frameWrite a k, b = byteAt s.mem.buffer k

instance (pdevhead : List Gdevice) (msg : List Byte) : Decidable (ResolvingFrame pdevhead msg) :=
  inferInstanceAs (Decidable (_ ∧ _))

instance (pdevhead : List Gdevice) (a : Act) : Decidable (DeliversResolving pdevhead a) :=
  match a with
  | .mqReceive (some msg) => inferInstanceAs (Decidable (ResolvingFrame pdevhead msg))
  | .mqReceive none | .memcpy | .pthreadCreate | .handler _ _ | .voiceSet =>
      inferInstanceAs (Decidable True)

instance (s : System) (a : Act) : Decidable (Sequential s a) :=
  match a with
  | .mqReceive _ => inferInstanceAs (Decidable (∀ h ∈ s.handlers, h.pc = .exited))
  | .memcpy | .pthreadCreate | .handler _ _ | .voiceSet => inferInstanceAs (Decidable True)

instance (s : System) (a : Act) : Decidable (FrameKept s a) := inferInstanceAs (Decidable (_ → _))

/-! ## The handler at work -/

/-- The handler is past the point where it starts its announcement.
Source: `receive_interface.c` `receive_thread_handler`
Kind: D -/
def announced : Pc → Bool
  | .oled | .relockTest | .relockStore | .pinMode .relock | .digitalWrite .relock | .exited => true
  | _ => false

/-- What the frame holds while a handler works on record `pdev`: its message, with the reply once the
face is checked.
Source: `receive_interface.c` `receive_thread_handler`
Kind: D -/
def FrameHolds (pdev : Gdevice) (msg front : List Byte) (h : HandlerThread) : Prop :=
  match h.pc with
  | .face | .pinMode .accepted | .digitalWrite .accepted | .reply =>
      front = msg ∧ pdev.checkFaceStatus = 1
  | .pinMode .ungated | .digitalWrite .ungated => front = msg ∧ pdev.checkFaceStatus ≠ 1
  | .voiceTest => front = repliedBuffer pdev h.faceResult msg
  | .fireCode _ | .fireStatus _ | .startSet _ =>
      front = repliedBuffer pdev h.faceResult msg ∧ pdev.voiceSetStatus = 1
  | _ => front = msg

/-- The invariant of a handler started for the message `msg`, until it has started its announcement;
`front` is what the first six bytes of the frame hold.
Source: `receive_interface.c` `receive_thread_handler`
Kind: D -/
def OnFrame (pdevhead : List Gdevice) (msg front : List Byte) (h : HandlerThread) : Prop :=
  announced h.pc = false →
    match h.pc with
    | .idTest => front = msg
    | .lookup => front = msg ∧ byteAt msg 2 ≠ 0x40
    | _ => ∃ d pdev, h.pcurGdevice = some d ∧ pdevhead[d]? = some pdev ∧
        addressed pdevhead msg = some pdev ∧ FrameHolds pdev msg front h

/-- The announcement that a handler past that point has asked for.
Source: none: infrastructure. Kind: D -/
def spoken (pdevhead : List Gdevice) (msg : List Byte) (h : HandlerThread) : Option (List Byte) :=
  if announced h.pc then announcement pdevhead msg h.faceResult else none

variable {pdevhead : List Gdevice} {msg : List Byte} {m : Memory} {h : HandlerThread} {tid : ℕ}
  {score : ℚ}

/-- What a step of the handler does: it starts no announcement and asks for none, or starts the one it
asks for, which is what the frame holds.
Source: `receive_interface.c` `receive_thread_handler`
Kind: D -/
structure Advances (pdevhead : List Gdevice) (msg : List Byte) (m : Memory) (h : HandlerThread)
    (x : Memory × HandlerThread) : Prop where
  onFrame : OnFrame pdevhead msg (x.1.buffer.take 6) x.2
  speaks : (announcements x.1.events = announcements m.events ∧
      spoken pdevhead msg x.2 = spoken pdevhead msg h) ∨
    (announcements x.1.events = announcements m.events + 1 ∧ spoken pdevhead msg h = none ∧
      spoken pdevhead msg x.2 = some (m.buffer.take 6) ∧ x.1.buffer = m.buffer)

theorem announcements_append (l l' : List (ℕ × Event)) :
    announcements (l ++ l') = announcements l + announcements l' := List.countP_append

/-- Actions other than the start of an announcement. -/
theorem announcements_emit {es : List Event} (hes : ∀ pcontrol, .startSet pcontrol ∉ es) :
    announcements (m.emit tid es).events = announcements m.events := by
  have hnone : announcements (es.map (Prod.mk tid)) = 0 := by
    unfold announcements
    rw [List.countP_eq_zero]
    intro x hx
    obtain ⟨e, he, rfl⟩ := List.mem_map.mp hx
    cases e with
    | startSet pcontrol => exact absurd he (hes pcontrol)
    | _ => simp
  show announcements (m.events ++ es.map (Prod.mk tid)) = _
  rw [announcements_append, hnone, Nat.add_zero]

theorem spoken_of_not_announced (hpc : announced h.pc = false) : spoken pdevhead msg h = none := by
  rw [spoken, hpc]
  rfl

/-- A step that stays before the announcement. -/
theorem Advances.before {x : Memory × HandlerThread} (hpc : announced h.pc = false)
    (hpc' : announced x.2.pc = false) (hevents : announcements x.1.events = announcements m.events)
    (honFrame : OnFrame pdevhead msg (x.1.buffer.take 6) x.2) : Advances pdevhead msg m h x :=
  ⟨honFrame, .inl ⟨hevents, by rw [spoken_of_not_announced hpc, spoken_of_not_announced hpc']⟩⟩

/-- A step that passes the point where an announcement is started, and asks for none. -/
theorem Advances.silent {x : Memory × HandlerThread} (hpc : announced h.pc = false)
    (hpc' : announced x.2.pc = true) (hevents : announcements x.1.events = announcements m.events)
    (hnone : ∀ faceResult, announcement pdevhead msg faceResult = none) :
    Advances pdevhead msg m h x := by
  refine ⟨fun h' => ?_, .inl ⟨hevents, ?_⟩⟩
  · rw [hpc'] at h'
    contradiction
  · rw [spoken_of_not_announced hpc, spoken, if_pos hpc', hnone]

/-- A step past the announcement. -/
theorem Advances.after {x : Memory × HandlerThread} (hpc : announced h.pc = true)
    (hpc' : announced x.2.pc = true) (hface : x.2.faceResult = h.faceResult)
    (hevents : announcements x.1.events = announcements m.events) : Advances pdevhead msg m h x := by
  refine ⟨fun h' => ?_, .inl ⟨hevents, ?_⟩⟩
  · rw [hpc'] at h'
    contradiction
  · rw [spoken, spoken, if_pos hpc, if_pos hpc', hface]

/-- The death of the process. -/
theorem Advances.crash (honFrame : OnFrame pdevhead msg (m.buffer.take 6) h)
    (crashed : Option NullDeref) : Advances pdevhead msg m h ({ m with crashed := crashed }, h) :=
  ⟨honFrame, .inl ⟨rfl, rfl⟩⟩

theorem Advances.through (honFrame : OnFrame pdevhead msg (m.buffer.take 6) h)
    {k : ℕ → Gdevice → Memory × HandlerThread}
    (hk : ∀ d pdev, h.pcurGdevice = some d → m.pdevhead[d]? = some pdev →
      Advances pdevhead msg m h (k d pdev)) : Advances pdevhead msg m h (h.through m k) :=
  HandlerThread.through_induction (P := fun x => Advances pdevhead msg m h x)
    (Advances.crash honFrame _) hk

theorem byteAt_of_take {buffer : List Byte} (h : buffer.take 6 = msg) {k : ℕ} (hk : k < 6) :
    byteAt buffer k = byteAt msg k := by
  unfold byteAt
  rw [← h, List.getD_eq_getElem?_getD, List.getD_eq_getElem?_getD, List.getElem?_take_of_lt hk]

theorem addressed_of_find {d : ℕ} {pdev : Gdevice} (h40 : byteAt msg 2 ≠ 0x40)
    (hfind : findGdeviceByKey pdevhead (byteAt msg 2).asInt = some d) (hg : pdevhead[d]? = some pdev) :
    addressed pdevhead msg = some pdev := by
  rw [addressed, if_neg h40, hfind]
  exact hg

theorem addressed_of_dropped (h40 : byteAt msg 2 = 0x40) : addressed pdevhead msg = none := if_pos h40

/-- The wiringPi calls start no announcement. -/
theorem announcements_emit_gpio (d : ℕ) (calls : List GpioCall) :
    announcements (m.emit tid (calls.map (.gpio d))).events = announcements m.events :=
  announcements_emit (by simp)

/-- Before the lookup has found the record. -/
theorem advances_lookup (hconf : m.pdevhead.map Gdevice.config = pdevhead.map Gdevice.config)
    (hmsg : ResolvingFrame pdevhead msg) (honFrame : OnFrame pdevhead msg (m.buffer.take 6) h)
    (hpc : h.pc = .idTest ∨ h.pc = .lookup) :
    Advances pdevhead msg m h (h.step mainControls score tid m) := by
  rcases hpc with hpc | hpc
  · have hbefore : announced h.pc = false := by rw [hpc]; rfl
    have hfront : m.buffer.take 6 = msg := by simpa only [hpc] using honFrame hbefore
    have hcode := byteAt_of_take hfront (show 2 < 6 by decide)
    unfold HandlerThread.step
    simp only [hpc, hcode]
    by_cases h40 : byteAt msg 2 = 0x40
    · rw [if_pos h40]
      refine Advances.silent hbefore rfl rfl fun faceResult => ?_
      rw [announcement, addressed_of_dropped h40]
      rfl
    · rw [if_neg h40]
      exact Advances.before hbefore rfl rfl fun _ => ⟨hfront, h40⟩
  · have hbefore : announced h.pc = false := by rw [hpc]; rfl
    obtain ⟨hfront, h40⟩ : m.buffer.take 6 = msg ∧ byteAt msg 2 ≠ 0x40 := by
      simpa only [hpc] using honFrame hbefore
    obtain ⟨d, hfind⟩ := Option.isSome_iff_exists.mp (hmsg.2.resolve_left h40)
    obtain ⟨pdev, hg, -⟩ := exists_getElem?_of_find hfind
    unfold HandlerThread.step
    simp only [hpc, byteAt_of_take hfront (show 2 < 6 by decide),
      findGdeviceByKey_of_map_config hconf, hfind, Option.isSome_some, if_true]
    refine Advances.before hbefore rfl (announcements_emit (by simp)) fun _ => ?_
    exact ⟨d, pdev, rfl, hg, addressed_of_find h40 hfind hg, hfront⟩

/-- From the record found to the start of the announcement: one case for each point of the body. -/
theorem advances_record (hconf : m.pdevhead.map Gdevice.config = pdevhead.map Gdevice.config)
    (honFrame : OnFrame pdevhead msg (m.buffer.take 6) h) (hbefore : announced h.pc = false)
    (hne : h.pc ≠ .idTest ∧ h.pc ≠ .lookup) {d : ℕ} {pdev : Gdevice} (hd : h.pcurGdevice = some d)
    (hg : pdevhead[d]? = some pdev) (haddressed : addressed pdevhead msg = some pdev)
    (hholds : FrameHolds pdev msg (m.buffer.take 6) h) :
    Advances pdevhead msg m h (h.step mainControls score tid m) := by
  have hrecord : ∀ d' pdev', h.pcurGdevice = some d' → m.pdevhead[d']? = some pdev' →
      pdev'.config = pdev.config := by
    intro d' pdev' hd' hg'
    obtain rfl : d' = d := Option.some.inj (hd'.symm.trans hd)
    exact config_eq_of_map_config hconf hg' hg
  unfold HandlerThread.step
  cases hpc : h.pc with
  | idTest => exact absurd hpc hne.1
  | lookup => exact absurd hpc hne.2
  | level =>
      simp only [FrameHolds, hpc] at hholds
      exact Advances.before hbefore rfl rfl fun _ => ⟨d, pdev, hd, hg, haddressed, hholds⟩
  | store status =>
      simp only [FrameHolds, hpc] at hholds
      apply Advances.through honFrame
      intro d' pdev' _ _
      exact Advances.before hbefore rfl rfl fun _ => ⟨d, pdev, hd, hg, haddressed, hholds⟩
  | gate =>
      simp only [FrameHolds, hpc] at hholds
      apply Advances.through honFrame
      intro d' pdev' hd' hg'
      have hcheck : pdev'.checkFaceStatus = pdev.checkFaceStatus :=
        (congrArg Gdevice.checkFaceStatus (hrecord d' pdev' hd' hg') :)
      rw [hcheck]
      split_ifs with hface
      · exact Advances.before hbefore rfl rfl fun _ => ⟨d, pdev, hd, hg, haddressed, hholds, hface⟩
      · exact Advances.before hbefore rfl rfl fun _ => ⟨d, pdev, hd, hg, haddressed, hholds, hface⟩
  | face =>
      simp only [FrameHolds, hpc] at hholds
      cases haccept : accepted score with
      | true =>
          exact Advances.before hbefore rfl (announcements_emit (by simp))
            fun _ => ⟨d, pdev, hd, hg, haddressed, hholds⟩
      | false =>
          exact Advances.before hbefore rfl (announcements_emit (by simp))
            fun _ => ⟨d, pdev, hd, hg, haddressed, hholds⟩
  | pinMode site =>
      apply Advances.through honFrame
      intro d' pdev' _ _
      cases site with
      | accepted | ungated =>
          simp only [FrameHolds, hpc] at hholds
          exact Advances.before hbefore rfl (announcements_emit_gpio d' _)
            fun _ => ⟨d, pdev, hd, hg, haddressed, hholds⟩
      | relock =>
          rw [hpc] at hbefore
          contradiction
  | digitalWrite site =>
      apply Advances.through honFrame
      intro d' pdev' _ _
      cases site with
      | accepted =>
          simp only [FrameHolds, hpc] at hholds
          exact Advances.before hbefore rfl (announcements_emit_gpio d' _)
            fun _ => ⟨d, pdev, hd, hg, haddressed, hholds⟩
      | ungated =>
          simp only [FrameHolds, hpc] at hholds
          refine Advances.before hbefore rfl (announcements_emit_gpio d' _)
            fun _ => ⟨d, pdev, hd, hg, haddressed, ?_⟩
          show m.buffer.take 6 = repliedBuffer pdev h.faceResult msg
          rw [repliedBuffer, if_neg hholds.2, hholds.1]
      | relock =>
          rw [hpc] at hbefore
          contradiction
  | reply =>
      simp only [FrameHolds, hpc] at hholds
      refine Advances.before hbefore rfl rfl fun _ => ⟨d, pdev, hd, hg, haddressed, ?_⟩
      show (m.buffer.set 2 (faceReply h.faceResult)).take 6 = repliedBuffer pdev h.faceResult msg
      rw [repliedBuffer, if_pos hholds.2, List.take_set, hholds.1]
  | voiceTest =>
      simp only [FrameHolds, hpc] at hholds
      apply Advances.through honFrame
      intro d' pdev' hd' hg'
      have hvoice : pdev'.voiceSetStatus = pdev.voiceSetStatus :=
        (congrArg Gdevice.voiceSetStatus (hrecord d' pdev' hd' hg') :)
      have hcontrols : mainControls ≠ [] := by decide
      simp only [hvoice, hcontrols, ne_eq, not_false_eq_true, and_true, voiceSearch_mainControls]
      split_ifs with hset
      · exact Advances.before hbefore rfl rfl fun _ => ⟨d, pdev, hd, hg, haddressed, hholds, hset⟩
      · refine Advances.silent hbefore rfl rfl fun faceResult => ?_
        rw [announcement, haddressed, Option.bind_some, if_neg hset]
  | fireCode pcontrol =>
      simp only [FrameHolds, hpc] at hholds
      simp only
      split_ifs
      · exact Advances.before hbefore rfl rfl fun _ => ⟨d, pdev, hd, hg, haddressed, hholds⟩
      · exact Advances.before hbefore rfl rfl fun _ => ⟨d, pdev, hd, hg, haddressed, hholds⟩
  | fireStatus pcontrol =>
      simp only [FrameHolds, hpc] at hholds
      exact Advances.before hbefore rfl rfl fun _ => ⟨d, pdev, hd, hg, haddressed, hholds⟩
  | startSet pcontrol =>
      simp only [FrameHolds, hpc] at hholds
      simp only
      split_ifs with hset
      · -- the announcement asked for is what the frame holds
        refine ⟨fun h' => by contradiction, .inr ⟨?_, spoken_of_not_announced hbefore, ?_, rfl⟩⟩
        · exact announcements_append m.events _
        · show announcement pdevhead msg h.faceResult = some (m.buffer.take 6)
          rw [announcement, haddressed, Option.bind_some, if_pos hholds.2, hholds.1]
      · exact Advances.crash honFrame _
  | oled | relockTest | relockStore | exited =>
      rw [hpc] at hbefore
      contradiction

/-- Past the announcement: one case for each point of the rest of the body. -/
theorem advances_announced (honFrame : OnFrame pdevhead msg (m.buffer.take 6) h)
    (hafter : announced h.pc = true) :
    Advances pdevhead msg m h (h.step mainControls score tid m) := by
  unfold HandlerThread.step
  cases hpc : h.pc with
  | oled =>
      apply Advances.through honFrame
      intro d pdev _ _
      exact Advances.after hafter rfl rfl (announcements_emit (by simp))
  | relockTest =>
      apply Advances.through honFrame
      intro d pdev _ _
      refine Advances.after hafter ?_ rfl rfl
      cases hrelock : relocks pdev h.ret h.faceResult <;> simp [announced]
  | relockStore =>
      apply Advances.through honFrame
      intro d pdev _ _
      exact Advances.after hafter rfl rfl rfl
  | pinMode site =>
      apply Advances.through honFrame
      intro d pdev _ _
      cases site with
      | relock => exact Advances.after hafter rfl rfl (announcements_emit_gpio d _)
      | accepted | ungated =>
          rw [hpc] at hafter
          contradiction
  | digitalWrite site =>
      apply Advances.through honFrame
      intro d pdev _ _
      cases site with
      | relock => exact Advances.after hafter rfl rfl (announcements_emit_gpio d _)
      | accepted | ungated =>
          rw [hpc] at hafter
          contradiction
  | exited => exact ⟨honFrame, .inl ⟨rfl, rfl⟩⟩
  | _ =>
      rw [hpc] at hafter
      contradiction

/-- **A step of the handler on its frame.**
Source: `receive_interface.c` `receive_thread_handler`
Kind: L -/
theorem advances_step (hconf : m.pdevhead.map Gdevice.config = pdevhead.map Gdevice.config)
    (hmsg : ResolvingFrame pdevhead msg) (honFrame : OnFrame pdevhead msg (m.buffer.take 6) h)
    (score : ℚ) : Advances pdevhead msg m h (h.step mainControls score tid m) := by
  by_cases hafter : announced h.pc = true
  · exact advances_announced honFrame hafter
  · have hbefore : announced h.pc = false := by simpa using hafter
    by_cases hearly : h.pc = .idTest ∨ h.pc = .lookup
    · exact advances_lookup hconf hmsg honFrame hearly
    · have hrecord := honFrame hbefore
      split at hrecord
      · exact absurd (.inl ‹_›) hearly
      · exact absurd (.inr ‹_›) hearly
      · obtain ⟨d, pdev, hd, hg, haddressed, hholds⟩ := hrecord
        exact advances_record hconf honFrame hbefore (not_or.mp hearly) hd hg haddressed hholds

/-! ## The whole hub -/

/-- The invariant of a sequential run: at most the newest handler is at work, on the message before
which it was started, and the strings written, with the frame once for each pending announcement, are
those asked for so far.
Source: `receive_interface.c` `receive_get`, `receive_thread_handler`, `voice_interface.c` `voice_set`
Kind: D -/
structure Speaks (pdevhead : List Gdevice) (s : System) : Prop where
  own : OwnCommands s
  config : s.mem.pdevhead.map Gdevice.config = pdevhead.map Gdevice.config
  size : 6 ≤ s.mem.buffer.length
  resolves : ∀ msg ∈ s.dequeued, ResolvingFrame pdevhead msg
  alone : ∀ tid h, s.handlers[tid]? = some h → h.pc ≠ .exited →
    s.recv.pc = .receiving ∧ tid + 1 = s.handlers.length
  copied : s.recv.pc = .copied → s.dequeued.getLast? = some (s.mem.buffer.take 6)
  onFrame : Each (fun i h => ∀ msg, s.dequeued[i]? = some msg →
    OnFrame pdevhead msg (s.mem.buffer.take 6) h) s.handlers
  serial_le : s.serial.length ≤ announcements s.mem.events
  written : s.serial ++
      List.replicate (announcements s.mem.events - s.serial.length) (s.mem.buffer.take 6) ~
    (s.dequeued.zip s.handlers).filterMap fun x => spoken pdevhead x.1 x.2

variable {s : System}

theorem speaks_init (pdevhead : List Gdevice) : Speaks pdevhead (System.init pdevhead) where
  own := ownCommands_init pdevhead
  config := rfl
  size := by
    show 6 ≤ clearedBuffer.length
    decide +kernel
  resolves := fun msg h => absurd h List.not_mem_nil
  alone := fun tid h hh => by simp [System.init] at hh
  copied := fun h => by simp [System.init, ReceiveGet.init] at h
  onFrame := Each.nil
  serial_le := Nat.zero_le _
  written := List.Perm.refl _

theorem onFrame_of_exited {front : List Byte} (hpc : h.pc = .exited) : OnFrame pdevhead msg front h := by
  intro hbefore
  rw [hpc] at hbefore
  contradiction

/-- While a message is in hand every handler has exited. -/
theorem Speaks.exited (hs : Speaks pdevhead s) (hpc : s.recv.pc ≠ .receiving) :
    ∀ (tid : ℕ) (h : HandlerThread), s.handlers[tid]? = some h → h.pc = .exited := by
  intro tid h hh
  by_contra hne
  exact hpc (hs.alone tid h hh hne).1

theorem Speaks.not_reads (hs : Speaks pdevhead s) (hpc : s.recv.pc ≠ .receiving) {k : ℕ} :
    ¬ ∃ h ∈ s.handlers, k ∈ readsLeft h s.mem.buffer := by
  rintro ⟨h, hh, hreads⟩
  obtain ⟨tid, htid⟩ := List.getElem?_of_mem hh
  simp [readsLeft, hs.exited hpc tid h htid] at hreads

theorem speaks_mqReceive (hs : Speaks pdevhead s) (hpc : s.recv.pc = .receiving)
    (result : Option (List Byte)) (hexited : ∀ h ∈ s.handlers, h.pc = .exited)
    (hresult : ∀ msg, result = some msg → ResolvingFrame pdevhead msg) :
    Speaks pdevhead { s with
      recv := Queue.mqReceive result s.recv
      dequeued := s.dequeued ++
        if (Queue.mqReceive result s.recv).pc = .marked then result.toList else [] } where
  own := ownCommands_mqReceive hs.own hpc result fun msg hmsg =>
    length_six_and_frameMarked_iff.mp (hresult msg hmsg).1
  config := hs.config
  size := hs.size
  resolves := by
    intro msg hmsg
    rcases List.mem_append.mp hmsg with hmsg | hmsg
    · exact hs.resolves msg hmsg
    · split_ifs at hmsg
      · exact hresult msg (Option.mem_toList.mp hmsg)
      · exact absurd hmsg List.not_mem_nil
  alone := fun tid h hh hne => absurd (hexited h (List.mem_of_getElem? hh)) hne
  copied := by
    intro hcopied
    exfalso
    cases result with
    | none =>
        rw [show (Queue.mqReceive none s.recv).pc = s.recv.pc from rfl, hpc] at hcopied
        contradiction
    | some msg =>
        simp only [Queue.mqReceive] at hcopied
        split_ifs at hcopied
  onFrame := fun tid h hh msg _ => onFrame_of_exited (hexited h (List.mem_of_getElem? hh))
  serial_le := hs.serial_le
  written := by
    have hzip : ∀ new : List (List Byte),
        (s.dequeued ++ new).zip s.handlers = s.dequeued.zip s.handlers := by
      intro new
      have happend : (s.dequeued ++ new).zip (s.handlers ++ []) =
          s.dequeued.zip s.handlers ++ new.zip [] := List.zip_append (hs.own.count hpc)
      simpa using happend
    show _ ~ (((s.dequeued ++ _).zip s.handlers).filterMap _)
    rw [hzip]
    exact hs.written

/-- The strings still to be written do not change with the frame, which is kept while there are any. -/
theorem replicate_front (s : System) {front : List Byte}
    (hkept : s.serial.length < announcements s.mem.events → front = s.mem.buffer.take 6) :
    List.replicate (announcements s.mem.events - s.serial.length) front =
      List.replicate (announcements s.mem.events - s.serial.length) (s.mem.buffer.take 6) := by
  by_cases hpending : s.serial.length < announcements s.mem.events
  · rw [hkept hpending]
  · rw [Nat.sub_eq_zero_of_le (not_lt.mp hpending)]
    rfl

theorem speaks_memcpy (hs : Speaks pdevhead s) (hpc : s.recv.pc = .marked)
    (hkept : FrameKept s .memcpy) :
    Speaks pdevhead { s with
      mem := { s.mem with buffer := memcpyFrame s.recv s.mem.buffer }
      recv := { s.recv with pc := .copied } } := by
  have hinHand : s.recv.pc ≠ .receiving := by simp [hpc]
  obtain ⟨earlier, code, status, buf, hdequeued, -, hrecv, -⟩ := hs.own.inHand hinHand
  have hcopy : memcpyFrame s.recv s.mem.buffer = overlay (frame code status) s.mem.buffer := by
    rw [hrecv, memcpyFrame, Int.toNat_natCast, take_overlay buf le_rfl, List.take_length]
  have hfront : (memcpyFrame s.recv s.mem.buffer).take 6 = frame code status := by
    rw [hcopy, take_overlay _ (by simp)]
    rfl
  have hsame : s.serial.length < announcements s.mem.events →
      (memcpyFrame s.recv s.mem.buffer).take 6 = s.mem.buffer.take 6 := by
    intro hpending
    have hsize := hs.size
    rw [hfront]
    apply List.ext_getElem
    · simp [hsize]
    · intro k hk hk'
      have hk6 : k < 6 := by simpa using hk
      have hbyte := hkept hpending k hk6 (byteAt s.recv.buffer k) (if_pos hpc)
      rw [hrecv, byteAt_overlay_of_lt buf hk] at hbyte
      rw [List.getElem_take]
      simpa [byteAt, List.getD_eq_getElem?_getD, List.getElem?_eq_getElem hk,
        List.getElem?_eq_getElem (show k < s.mem.buffer.length by omega)] using hbyte
  refine ⟨?_, hs.config, ?_, hs.resolves, ?_, ?_, ?_, hs.serial_le, ?_⟩
  · apply ownCommands_memcpy hs.own hpc
    rintro k b (⟨hcopied, -⟩ | hreads) -
    · rw [hpc] at hcopied
      contradiction
    · exact absurd hreads (hs.not_reads hinHand)
  · show 6 ≤ (memcpyFrame s.recv s.mem.buffer).length
    rw [hcopy, overlay, List.length_append, length_frame]
    omega
  · exact fun tid h hh hne => absurd (hs.exited hinHand tid h hh) hne
  · intro _
    show s.dequeued.getLast? = some ((memcpyFrame s.recv s.mem.buffer).take 6)
    rw [hdequeued, hfront, List.getLast?_concat]
  · exact fun tid h hh msg _ => onFrame_of_exited (hs.exited hinHand tid h hh)
  · show s.serial ++ List.replicate _ ((memcpyFrame s.recv s.mem.buffer).take 6) ~ _
    rw [replicate_front s hsame]
    exact hs.written

theorem speaks_pthreadCreate (hs : Speaks pdevhead s) (hpc : s.recv.pc = .copied) :
    Speaks pdevhead { s with
      recv := { s.recv with pc := .receiving }
      handlers := s.handlers ++ [HandlerThread.init] } := by
  have hinHand : s.recv.pc ≠ .receiving := by simp [hpc]
  obtain ⟨earlier, code, status, buf, hdequeued, hlen, -, -⟩ := hs.own.inHand hinHand
  have hfront : s.mem.buffer.take 6 = frame code status := by
    have hlast := hs.copied hpc
    rw [hdequeued, List.getLast?_concat] at hlast
    exact (Option.some.inj hlast).symm
  refine ⟨ownCommands_pthreadCreate hs.own hpc, hs.config, hs.size, hs.resolves, ?_, ?_, ?_,
    hs.serial_le, ?_⟩
  · intro tid h hh hne
    refine ⟨rfl, ?_⟩
    show tid + 1 = (s.handlers ++ [HandlerThread.init]).length
    rw [List.length_append, List.length_singleton]
    by_contra htid
    -- an older handler has exited
    have hlt := (List.getElem?_eq_some_iff.mp hh).1
    simp only [List.length_append, List.length_singleton] at hlt
    rw [List.getElem?_append_left (by omega)] at hh
    exact hne (hs.exited hinHand tid h hh)
  · intro hcopied
    contradiction
  · refine Each.concat hs.onFrame ?_ fun _ _ _ hj => hj
    intro msg hmsg _
    rw [hdequeued, ← hlen, List.getElem?_concat_length] at hmsg
    exact hfront.trans (Option.some.inj hmsg)
  · show _ ~ (s.dequeued.zip (s.handlers ++ [HandlerThread.init])).filterMap _
    have hold : s.dequeued.zip s.handlers = earlier.zip s.handlers := by
      have happend : (earlier ++ [frame code status]).zip (s.handlers ++ []) =
          earlier.zip s.handlers ++ [frame code status].zip [] := List.zip_append hlen
      simpa [hdequeued] using happend
    have hnew : s.dequeued.zip (s.handlers ++ [HandlerThread.init]) =
        s.dequeued.zip s.handlers ++ [(frame code status, HandlerThread.init)] := by
      rw [hold, hdequeued, List.zip_append hlen]
      rfl
    rw [hnew, List.filterMap_append]
    simpa [spoken, HandlerThread.init, announced] using hs.written

theorem exists_concat_of_getElem? {α : Type*} {l : List α} {i : ℕ} {a : α} (h : l[i]? = some a)
    (hlen : i + 1 = l.length) : ∃ l', l = l' ++ [a] ∧ l'.length = i := by
  rcases List.eq_nil_or_concat l with rfl | ⟨l', b, rfl⟩
  · simp at h
  · rw [List.concat_eq_append] at h hlen ⊢
    obtain rfl : i = l'.length := by simpa using hlen
    rw [List.getElem?_concat_length] at h
    rw [Option.some.inj h]
    exact ⟨l', rfl, rfl⟩

/-- While an announcement is pending a handler's step leaves the frame as it is. -/
theorem buffer_of_frameKept (hkept : FrameKept s (.handler tid score)) (hh : s.handlers[tid]? = some h)
    (hpending : s.serial.length < announcements s.mem.events) :
    (h.step mainControls score tid s.mem).1.buffer = s.mem.buffer := by
  rw [(h.step_effect mainControls score tid s.mem).buffer]
  split_ifs with hreply
  · have hwrite : s.frameWrite (.handler tid score) 2 = some (faceReply h.faceResult) := by
      simp [System.frameWrite, hh, hreply]
    exact set_eq_self_of_byteAt (hkept hpending 2 (by decide) _ hwrite)
  · rfl

/-- While a handler is at work the others have exited. -/
theorem Speaks.others_exited (hs : Speaks pdevhead s) (hh : s.handlers[tid]? = some h)
    (hworks : h.pc ≠ .exited) {j : ℕ} {t : HandlerThread} (hj : j ≠ tid)
    (ht : s.handlers[j]? = some t) : t.pc = .exited := by
  by_contra hne
  have hlast := (hs.alone tid h hh hworks).2
  have := (hs.alone j t ht hne).2
  omega

/-- Only the handler at work has bytes to read, and none at its reply. -/
theorem Speaks.undisturbed_handler (hs : Speaks pdevhead s) (hh : s.handlers[tid]? = some h)
    (hworks : h.pc ≠ .exited) : Undisturbed s (.handler tid score) := by
  rintro k b (⟨hcopied, -⟩ | ⟨t, ht, hreads⟩) hwrite
  · rw [(hs.alone tid h hh hworks).1] at hcopied
    contradiction
  · obtain ⟨j, hj⟩ := List.getElem?_of_mem ht
    by_cases hjt : j = tid
    · subst hjt
      obtain rfl : h = t := Option.some.inj (hh.symm.trans hj)
      simp only [System.frameWrite, hh, Option.bind_some] at hwrite
      split_ifs at hwrite with hreply
      simp [readsLeft, hreply.1] at hreads
    · simp [readsLeft, hs.others_exited hh hworks hjt hj] at hreads

/-- The strings after a step of the handler at work: those asked for before, and its own if the step
starts its announcement. -/
theorem Speaks.written_handler (hs : Speaks pdevhead s) (hh : s.handlers[tid]? = some h)
    (hkept : FrameKept s (.handler tid score)) (hworks : h.pc ≠ .exited)
    (hmsg : s.dequeued[tid]? = some msg)
    (hadvances : Advances pdevhead msg s.mem h (h.step mainControls score tid s.mem)) :
    s.serial ++ List.replicate
        (announcements (h.step mainControls score tid s.mem).1.events - s.serial.length)
        ((h.step mainControls score tid s.mem).1.buffer.take 6) ~
      (s.dequeued.zip (s.handlers.set tid (h.step mainControls score tid s.mem).2)).filterMap
        fun x => spoken pdevhead x.1 x.2 := by
  obtain ⟨hrecv, hlast⟩ := hs.alone tid h hh hworks
  have hcount := hs.own.count hrecv
  obtain ⟨older, hhandlers, holder⟩ := exists_concat_of_getElem? hh hlast
  obtain ⟨earlier, hdequeued, hearlier⟩ := exists_concat_of_getElem? hmsg (by omega)
  -- the pairs of messages and handlers, with the last one apart
  have hzip : ∀ t, s.dequeued.zip (older ++ [t]) = earlier.zip older ++ [(msg, t)] := by
    intro t
    rw [hdequeued, List.zip_append (by omega)]
    rfl
  have hset : s.handlers.set tid (h.step mainControls score tid s.mem).2 =
      older ++ [(h.step mainControls score tid s.mem).2] := by
    rw [hhandlers, ← holder, List.set_append_right _ _ le_rfl, Nat.sub_self, List.set_cons_zero]
  have hwritten := hs.written
  rw [hhandlers, hzip, List.filterMap_append] at hwritten
  rw [hset, hzip, List.filterMap_append]
  rcases hadvances.speaks with ⟨hsame, hspoken⟩ | ⟨hmore, hnone, hspoken, hbuffer⟩
  · have hfront := replicate_front s fun hpending =>
      congrArg (List.take 6) (buffer_of_frameKept hkept hh hpending)
    rw [hsame, hfront]
    simpa only [List.filterMap_cons, hspoken] using hwritten
  · have hpending : announcements (h.step mainControls score tid s.mem).1.events - s.serial.length =
        (announcements s.mem.events - s.serial.length) + 1 := by
      have hle := hs.serial_le
      omega
    rw [hpending, hbuffer, List.replicate_succ', ← List.append_assoc]
    simp only [List.filterMap_cons, List.filterMap_nil, hnone, hspoken, List.append_nil] at hwritten ⊢
    exact hwritten.append_right _

/-- A step of the handler at work. -/
theorem speaks_handler (hs : Speaks pdevhead s) (hh : s.handlers[tid]? = some h)
    (hkept : FrameKept s (.handler tid score)) (hworks : h.pc ≠ .exited) :
    Speaks pdevhead { s with
      mem := (h.step mainControls score tid s.mem).1
      handlers := s.handlers.set tid (h.step mainControls score tid s.mem).2 } := by
  obtain ⟨hrecv, hlast⟩ := hs.alone tid h hh hworks
  have hcount := hs.own.count hrecv
  obtain ⟨msg, hmsg⟩ : ∃ msg, s.dequeued[tid]? = some msg :=
    ⟨_, List.getElem?_eq_getElem (show tid < s.dequeued.length by omega)⟩
  have heffect := h.step_effect mainControls score tid s.mem
  have hadvances : Advances pdevhead msg s.mem h (h.step mainControls score tid s.mem) :=
    advances_step hs.config (hs.resolves msg (List.mem_of_getElem? hmsg))
      (hs.onFrame tid h hh msg hmsg) score
  refine ⟨ownCommands_handler hs.own hh (hs.undisturbed_handler hh hworks),
    heffect.config.trans hs.config, ?_, hs.resolves, ?_, ?_, ?_, ?_,
    hs.written_handler hh hkept hworks hmsg hadvances⟩
  · show 6 ≤ (h.step mainControls score tid s.mem).1.buffer.length
    rw [heffect.buffer]
    split_ifs
    · rw [List.length_set]
      exact hs.size
    · exact hs.size
  · intro j t ht hne
    refine ⟨hrecv, ?_⟩
    rw [List.length_set]
    by_cases hj : tid = j
    · omega
    · rw [List.getElem?_set_ne hj] at ht
      exact absurd (hs.others_exited hh hworks (Ne.symm hj) ht) hne
  · intro hcopied
    rw [hrecv] at hcopied
    contradiction
  · refine Each.set hs.onFrame ?_ fun j t hj ht _ => ?_
    · intro msg' hmsg'
      obtain rfl : msg = msg' := Option.some.inj (hmsg.symm.trans hmsg')
      exact hadvances.onFrame
    · exact fun msg' _ => onFrame_of_exited (hs.others_exited hh hworks hj ht)
  · show s.serial.length ≤ announcements (h.step mainControls score tid s.mem).1.events
    have hle := hs.serial_le
    rcases hadvances.speaks with ⟨hsame, -⟩ | ⟨hmore, -⟩ <;> omega

theorem speaks_voiceSet (hs : Speaks pdevhead s)
    (hpending : s.serial.length < announcements s.mem.events) :
    Speaks pdevhead { s with serial := s.serial ++ [s.mem.buffer.take 6] } := by
  refine ⟨⟨hs.own.handlers, hs.own.count, hs.own.inHand⟩, hs.config, hs.size, hs.resolves, hs.alone,
    hs.copied, hs.onFrame, ?_, ?_⟩
  · rw [List.length_append, List.length_singleton]
    exact hpending
  · have hone : announcements s.mem.events - s.serial.length =
        (announcements s.mem.events - (s.serial ++ [s.mem.buffer.take 6]).length) + 1 := by
      rw [List.length_append, List.length_singleton]
      omega
    have hwritten := hs.written
    rw [hone, List.replicate_succ, List.append_cons] at hwritten
    exact hwritten

theorem speaks_step (s : System) (a : Act)
    (hok : (Sequential s a ∧ FrameKept s a) ∧ DeliversResolving pdevhead a) (hs : Speaks pdevhead s) :
    Speaks pdevhead (s.step mainControls a) := by
  obtain ⟨⟨hseq, hkept⟩, hresolves⟩ := hok
  apply System.step_induction_of_pending a hs
  · rintro result rfl hpc
    apply speaks_mqReceive hs hpc result hseq
    rintro msg rfl
    exact hresolves
  · rintro rfl hpc
    exact speaks_memcpy hs hpc hkept
  · exact speaks_pthreadCreate hs
  · rintro tid score h rfl hh
    by_cases hworks : h.pc = .exited
    · -- an exited handler does nothing
      have hstep : h.step mainControls score tid s.mem = (s.mem, h) := by
        simp only [HandlerThread.step, hworks]
      rw [hstep]
      have hset : s.handlers.set tid h = s.handlers := by
        obtain ⟨hlt, rfl⟩ := List.getElem?_eq_some_iff.mp hh
        exact List.set_getElem_self hlt
      rw [hset]
      exact hs
    · exact speaks_handler hs hh hkept hworks
  · exact speaks_voiceSet hs

theorem Speaks.announcesOwn (hs : Speaks pdevhead s) : AnnouncesOwn pdevhead s := by
  intro hexited hpc hdone
  refine ⟨hs.own.count hpc, ?_⟩
  have hwritten := hs.written
  rw [hdone, Nat.sub_self, List.replicate_zero, List.append_nil] at hwritten
  have hspoken : (s.dequeued.zip s.handlers).filterMap (fun x => spoken pdevhead x.1 x.2) =
      (s.dequeued.zip s.handlers).filterMap fun x => announcement pdevhead x.1 x.2.faceResult := by
    apply List.filterMap_congr
    rintro x hx
    rw [spoken, hexited x.2 (List.of_mem_zip hx).2]
    rfl
  rwa [hspoken] at hwritten

/-- **When each announcement speaks its own command**: in a run on complete valid frames that resolve, in
which the next message waits for the handlers to exit and no step writes another byte over the frame
while an announcement is pending, each announcement speaks its own command in every state reached.
Source: `receive_interface.c` `receive_get`, `receive_thread_handler`, `voice_interface.c` `voice_set`
Kind: P -/
theorem announcesOwn_of_frameKept (pdevhead : List Gdevice) (acts : List Act)
    (hframes : ∀ a ∈ acts, DeliversResolving pdevhead a)
    (hseq : Meets (System.step mainControls) Sequential (System.init pdevhead) acts)
    (hkept : Meets (System.step mainControls) FrameKept (System.init pdevhead) acts) :
    ∀ p, p <+: acts → AnnouncesOwn pdevhead (System.after mainControls pdevhead p) := by
  intro p hp
  have hall := (hseq.and hkept).and_of_forall_mem hframes
  exact (hall.invariant_of_prefix speaks_step (speaks_init pdevhead) hp).announcesOwn

/-! ### An announcement in time, and one that is late -/

/-- A frame is received, and handler `tid` moves `n` times with this face score.
Source: none: a run. Kind: D -/
def handled (msg : List Byte) (tid n : ℕ) (score : ℚ) : List Act :=
  [.mqReceive (some msg), .memcpy, .pthreadCreate] ++ List.replicate n (.handler tid score)

/-- The beeper and the lock are announced, each before the next frame is copied.
Source: none: a run. Kind: D -/
def announcedInTime : List Act :=
  handled (frame 0x45 1) 0 13 0 ++ [.voiceSet] ++ handled (frame 0x44 0) 1 17 (9 / 10) ++ [.voiceSet]

/-- Both announcements get to run only after the second frame has been handled.
Source: none: a run. Kind: D -/
def announcedLate : List Act :=
  handled (frame 0x45 1) 0 13 0 ++ handled (frame 0x44 0) 1 17 (9 / 10) ++ [.voiceSet, .voiceSet]

/-- On the shipped configuration, in time.
Source: `receive_interface.c` `receive_thread_handler`, `ini/gdevice.ini`
Kind: L -/
theorem announcesOwn_inTime :
    (System.after mainControls (gdeviceTable shippedCalls) announcedInTime).serial =
        [frame 0x45 1, frame 0x47 0] ∧
      AnnouncesOwn (gdeviceTable shippedCalls)
        (System.after mainControls (gdeviceTable shippedCalls) announcedInTime) := by
  refine ⟨by decide +kernel, ?_⟩
  exact announcesOwn_of_frameKept (gdeviceTable shippedCalls) announcedInTime (by decide +kernel)
    (by decide +kernel) (by decide +kernel) announcedInTime List.prefix_rfl

/-- **A late announcement speaks the next command**: the beeper is never announced, the lock twice.
Source: `receive_interface.c` `receive_get`, `voice_interface.c` `voice_set`
Kind: P -/
theorem late_announcement_repeats_next :
    ¬ ∀ (pdevhead : List Gdevice) (acts : List Act), (∀ a ∈ acts, DeliversResolving pdevhead a) →
      Meets (System.step mainControls) Sequential (System.init pdevhead) acts →
        AnnouncesOwn pdevhead (System.after mainControls pdevhead acts) := by
  intro h
  have hown := h (gdeviceTable shippedCalls) announcedLate (by decide +kernel) (by decide +kernel)
    (by decide +kernel) (by decide +kernel) (by decide +kernel)
  exact absurd hown.2 (by decide +kernel)

end SmartHome.Concurrent
