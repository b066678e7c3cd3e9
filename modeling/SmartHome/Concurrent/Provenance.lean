import SmartHome.Concurrent.Commands

/-!
# Where a command comes from

Handlers read a buffer that others write, so a handler may use the code of one message and the
status of another (`Commands.lean`). This file says what it cannot use. `Origin msgs scores k b`
lists where byte `b` at position `k` of the frame can come from: one of the messages `msgs` has it
there; one of them ends before and the byte is zero, as the first `memset` left it; or it is the reply
to one of the `scores`. In every interleaving the pins are driven only for records whose key has such
an origin among the messages for which a handler was to be started and the scores that `face_score`
has returned, as these records are configured, and to `LOW` only if a status of `0` has one
(`drivenFromOrigin_after`); and what is written to the serial line is a command frame as long as only
command frames come in (`serial_eq_frame_after`).

The steps of a handler keep any property `ok k b` of the bytes that the reply to its own score has, so
they are stated for one; the hub keeps `Origin` of the messages and the scores so far, which grows
with them.
-/

set_option autoImplicit false

namespace SmartHome.Concurrent

open SmartHome.Device SmartHome.Controls SmartHome.Found SmartHome.Handler SmartHome.Queue

/-! ## Origins -/

/-- The scores that `face_score` has returned.
Source: `receive_interface.c` `receive_thread_handler`
Kind: D -/
def faceScores (events : List (ℕ × Event)) : List ℚ :=
  events.filterMap fun e => match e.2 with
    | .faceScore score => some score
    | _ => none

theorem faceScores_append (events more : List (ℕ × Event)) :
    faceScores (events ++ more) = faceScores events ++ faceScores more := List.filterMap_append ..

/-- Where the byte at position `k` of the frame can come from.
Source: `receive_interface.c` `receive_get`, `receive_thread_handler`
Kind: D -/
def Origin (msgs : List (List Byte)) (scores : List ℚ) (k : ℕ) (b : Byte) : Prop :=
  (∃ msg ∈ msgs, msg[k]? = some b) ∨ (b = 0 ∧ ∃ msg ∈ msgs, msg.length ≤ k) ∨
    (k = 2 ∧ ∃ score ∈ scores, b = faceReply score)

/-- More messages and scores, more origins. -/
theorem Origin.of_subset {msgs msgs' : List (List Byte)} {scores scores' : List ℚ} {k : ℕ} {b : Byte}
    (h : Origin msgs scores k b) (hmsgs : msgs ⊆ msgs') (hscores : scores ⊆ scores') :
    Origin msgs' scores' k b := by
  rcases h with ⟨msg, hmsg, hb⟩ | ⟨hb, msg, hmsg, hlen⟩ | ⟨hk, score, hscore, hb⟩
  · exact Or.inl ⟨msg, hmsgs hmsg, hb⟩
  · exact Or.inr (Or.inl ⟨hb, msg, hmsgs hmsg, hlen⟩)
  · exact Or.inr (Or.inr ⟨hk, score, hscores hscore, hb⟩)

variable (ok : ℕ → Byte → Prop)

/-- A level that is asked for by a status of the kind, or by the relock.
Source: `receive_interface.c` `receive_thread_handler`
Kind: D -/
def LevelFrom (level : ℤ) : Prop := level = high ∨ level = low ∧ ok 3 0

/-- A wiringPi call is for a record with such a key, on its pin, in its mode or to such a level.
Source: `receive_interface.c` `receive_thread_handler`
Kind: D -/
def DrivenFrom (pdevhead : List Gdevice) (e : ℕ × Event) : Prop :=
  ∀ d call, e.2 = .gpio d call → ∃ pdev, pdevhead[d]? = some pdev ∧ pdev.gpioPin ≠ -1 ∧
    (∃ code, ok 2 code ∧ pdev.key = code.asInt) ∧
    (call = .pinMode pdev.gpioPin pdev.gpioMode ∨
      ∃ level, LevelFrom ok level ∧ call = .digitalWrite pdev.gpioPin level)

/-! ## One handler -/

/-- The handler has stored a level, and has not ended.
Source: `receive_interface.c` `receive_thread_handler`
Kind: D -/
def HasStored : Pc → Prop
  | .idTest | .lookup | .level | .store _ | .exited => False
  | .gate | .face | .pinMode _ | .digitalWrite _ | .reply | .voiceTest | .fireCode _ | .fireStatus _
  | .startSet _ | .oled | .relockTest | .relockStore => True

/-- The handler has a score, and its reply is not written yet.
Source: `receive_interface.c` `receive_thread_handler`
Kind: D -/
def OwesReply (pc : Pc) : Prop :=
  pc = .pinMode .accepted ∨ pc = .digitalWrite .accepted ∨ pc = .reply

/-- The record a handler works on has such a key and, once a level is stored, such a level; so has the
status it is about to store, and the reply it is about to write.
Source: `receive_interface.c` `receive_thread_handler`
Kind: D -/
structure ThreadFrom (pdevhead : List Gdevice) (h : HandlerThread) : Prop where
  status : ∀ status, h.pc = .store status → ok 3 status
  reply : OwesReply h.pc → ok 2 (faceReply h.faceResult)
  record : ∀ d, h.pcurGdevice = some d → ∃ pdev, pdevhead[d]? = some pdev ∧
    (∃ code, ok 2 code ∧ pdev.key = code.asInt) ∧ (HasStored h.pc → LevelFrom ok pdev.gpioStatus)

variable {ok} {ok' : ℕ → Byte → Prop} {controlPhead : List Control} {score : ℚ} {tid : ℕ}
  {m : Memory} {h : HandlerThread} {pdevhead : List Gdevice}

theorem LevelFrom.imp {level : ℤ} (h : LevelFrom ok level) (himp : ∀ k b, ok k b → ok' k b) :
    LevelFrom ok' level := h.imp_right fun ⟨hlow, hzero⟩ => ⟨hlow, himp _ _ hzero⟩

theorem DrivenFrom.imp {e : ℕ × Event} (h : DrivenFrom ok pdevhead e)
    (himp : ∀ k b, ok k b → ok' k b) : DrivenFrom ok' pdevhead e := by
  intro d call he
  obtain ⟨pdev, hg, hpin, ⟨code, hcode, hkey⟩, hcall⟩ := h d call he
  refine ⟨pdev, hg, hpin, ⟨code, himp _ _ hcode, hkey⟩, hcall.imp_right ?_⟩
  rintro ⟨level, hlevel, rfl⟩
  exact ⟨level, hlevel.imp himp, rfl⟩

theorem ThreadFrom.imp (h' : ThreadFrom ok pdevhead h) (himp : ∀ k b, ok k b → ok' k b) :
    ThreadFrom ok' pdevhead h := by
  refine ⟨fun status hpc => himp _ _ (h'.status status hpc), fun hpc => himp _ _ (h'.reply hpc),
    fun d hd => ?_⟩
  obtain ⟨pdev, hg, ⟨code, hcode, hkey⟩, hlevel⟩ := h'.record d hd
  exact ⟨pdev, hg, ⟨code, himp _ _ hcode, hkey⟩, fun hstored => (hlevel hstored).imp himp⟩

theorem levelFrom_requestedLevel {status : Byte} (hstatus : ok 3 status) :
    LevelFrom ok (requestedLevel status) := by
  unfold requestedLevel
  split_ifs with h0
  · exact Or.inr ⟨rfl, h0 ▸ hstatus⟩
  · exact Or.inl rfl

theorem threadFrom_init (pdevhead : List Gdevice) : ThreadFrom ok pdevhead HandlerThread.init :=
  ⟨fun _ hpc => (nomatch hpc), fun hpc => by simp [OwesReply, HandlerThread.init] at hpc,
    fun _ hd => (nomatch hd)⟩

/-- A table after a step: the same, or with such a level stored.
Source: none: infrastructure
Kind: D -/
def TableMoves (ok : ℕ → Byte → Prop) (t t' : List Gdevice) : Prop :=
  t' = t ∨ ∃ d level, LevelFrom ok level ∧ t' = setStatus t d level

/-- What a handler relies on survives the stores of the others. -/
theorem ThreadFrom.mono {t t' : List Gdevice} (ht : ThreadFrom ok t h) (hmove : TableMoves ok t t') :
    ThreadFrom ok t' h := by
  refine ⟨ht.status, ht.reply, fun d hd => ?_⟩
  obtain ⟨pdev, hg, hkey, hlevel⟩ := ht.record d hd
  rcases hmove with rfl | ⟨e, level, hfrom, rfl⟩
  · exact ⟨pdev, hg, hkey, hlevel⟩
  · by_cases hed : e = d
    · subst hed
      exact ⟨_, getElem?_setStatus_self hg level, hkey, fun _ => hfrom⟩
    · exact ⟨pdev, by rw [getElem?_setStatus_ne _ hed, hg], hkey, hlevel⟩

/-- The thread moves on with its record. -/
theorem ThreadFrom.move {t : List Gdevice} (ht : ThreadFrom ok t h) {h' : HandlerThread}
    (hd : h'.pcurGdevice = h.pcurGdevice) (hstatus : ∀ status, h'.pc = .store status → ok 3 status)
    (hreply : OwesReply h'.pc → ok 2 (faceReply h'.faceResult))
    (hstored : HasStored h'.pc → HasStored h.pc) : ThreadFrom ok t h' := by
  refine ⟨hstatus, hreply, fun d hd' => ?_⟩
  obtain ⟨pdev, hg, hkey, hlevel⟩ := ht.record d (hd ▸ hd')
  exact ⟨pdev, hg, hkey, fun h => hlevel (hstored h)⟩

/-- What a step leaves: the table, the thread, and new calls of the kind.
Source: `receive_interface.c` `receive_thread_handler`
Kind: D -/
structure StepFrom (ok : ℕ → Byte → Prop) (pdevhead : List Gdevice) (tid : ℕ) (m : Memory)
    (x : Memory × HandlerThread) : Prop where
  table : TableMoves ok m.pdevhead x.1.pdevhead
  thread : ThreadFrom ok x.1.pdevhead x.2
  events : ∃ es : List Event, x.1.events = m.events ++ es.map (Prod.mk tid) ∧
    ∀ e ∈ es, DrivenFrom ok pdevhead (tid, e)

theorem StepFrom.quiet {h' : HandlerThread} (ht : ThreadFrom ok m.pdevhead h')
    (crashed : Option NullDeref) : StepFrom ok pdevhead tid m ({ m with crashed := crashed }, h') :=
  ⟨Or.inl rfl, ht, [], by simp, by simp⟩

theorem StepFrom.emit {h' : HandlerThread} (ht : ThreadFrom ok m.pdevhead h') {es : List Event}
    (hes : ∀ e ∈ es, DrivenFrom ok pdevhead (tid, e)) :
    StepFrom ok pdevhead tid m (m.emit tid es, h') :=
  ⟨Or.inl rfl, ht, es, rfl, hes⟩

/-- Anything but a wiringPi call is of the kind. -/
theorem drivenFrom_of_ne {e : Event} (he : ∀ d call, e ≠ .gpio d call) :
    DrivenFrom ok pdevhead (tid, e) := fun d call heq => absurd heq (he d call)

/-- The record through which a step goes. -/
theorem StepFrom.through (ht : ThreadFrom ok m.pdevhead h)
    {k : ℕ → Gdevice → Memory × HandlerThread}
    (hk : ∀ d pdev, h.pcurGdevice = some d → m.pdevhead[d]? = some pdev →
      (∃ code, ok 2 code ∧ pdev.key = code.asInt) → (HasStored h.pc → LevelFrom ok pdev.gpioStatus) →
      StepFrom ok pdevhead tid m (k d pdev)) :
    StepFrom ok pdevhead tid m (h.through m k) := by
  apply HandlerThread.through_induction (P := StepFrom ok pdevhead tid m)
  · exact StepFrom.quiet ht _
  · intro d pdev hd hg
    obtain ⟨pdev', hg', hkey, hlevel⟩ := ht.record d hd
    obtain rfl : pdev = pdev' := Option.some.inj (hg.symm.trans hg')
    exact hk d pdev hd hg hkey hlevel

theorem setGpio_calls {pdev : Gdevice} {call : GpioCall}
    (hcall : call ∈ pinModeCall pdev ++ digitalWriteCall pdev) :
    pdev.gpioPin ≠ -1 ∧ (call = .pinMode pdev.gpioPin pdev.gpioMode ∨
      call = .digitalWrite pdev.gpioPin pdev.gpioStatus) := by
  unfold pinModeCall digitalWriteCall at hcall
  split_ifs at hcall <;> simp_all

/-- The calls for a record of the table are the calls for the configured one, at its level.
Source: `gdevice.c` `set_gpio_gdevice_status`
Kind: L -/
theorem drivenFrom_setGpio {t : List Gdevice}
    (hconf : t.map Gdevice.config = pdevhead.map Gdevice.config) {d : ℕ} {pdev : Gdevice}
    (hg : t[d]? = some pdev) (hkey : ∃ code, ok 2 code ∧ pdev.key = code.asInt)
    (hlevel : LevelFrom ok pdev.gpioStatus) {e : Event}
    (he : e ∈ ((pinModeCall pdev ++ digitalWriteCall pdev).map (.gpio d))) :
    DrivenFrom ok pdevhead (tid, e) := by
  intro d' call heq
  obtain ⟨call', hcall, rfl⟩ := List.mem_map.mp he
  obtain ⟨rfl, rfl⟩ : d = d' ∧ call' = call := by simpa using heq
  obtain ⟨pdev', hg', hconfig⟩ := exists_getElem?_of_map_config hconf hg
  have hpin : pdev'.gpioPin = pdev.gpioPin := by
    simpa [Gdevice.config] using congrArg Gdevice.gpioPin hconfig
  have hmode : pdev'.gpioMode = pdev.gpioMode := by
    simpa [Gdevice.config] using congrArg Gdevice.gpioMode hconfig
  have hkey' : pdev'.key = pdev.key := by
    simpa [Gdevice.config] using congrArg Gdevice.key hconfig
  obtain ⟨hne, hcall⟩ := setGpio_calls hcall
  refine ⟨pdev', hg', hpin ▸ hne, hkey' ▸ hkey, ?_⟩
  rw [hpin, hmode]
  exact hcall.imp_right fun h => ⟨_, hlevel, h⟩

/-- A level of the kind is stored in the handler's own record.
Source: `receive_interface.c` `receive_thread_handler`
Kind: L -/
theorem stepFrom_setStatus {d : ℕ} {pdev : Gdevice} (hd : h.pcurGdevice = some d)
    (hg : m.pdevhead[d]? = some pdev) (hkey : ∃ code, ok 2 code ∧ pdev.key = code.asInt) {level : ℤ}
    (hlevel : LevelFrom ok level) {pc : Pc} (hpc : ∀ status, pc ≠ .store status)
    (howes : ¬ OwesReply pc) :
    StepFrom ok pdevhead tid m
      ({ m with pdevhead := setStatus m.pdevhead d level }, { h with pc := pc }) := by
  refine ⟨Or.inr ⟨d, _, hlevel, rfl⟩, ⟨fun status h => absurd h (hpc status), fun h => absurd h howes,
    fun d' hd' => ?_⟩, [], by simp, by simp⟩
  obtain rfl : d = d' := Option.some.inj (hd.symm.trans hd')
  exact ⟨_, getElem?_setStatus_self hg _, hkey, fun _ => hlevel⟩

/-- **A handler's step leaves the kind**, if the reply to the score it is given has it.
Source: `receive_interface.c` `receive_thread_handler`
Kind: L -/
theorem stepFrom_step (tid : ℕ) (hconf : m.pdevhead.map Gdevice.config = pdevhead.map Gdevice.config)
    (hbuffer : ∀ k, ok k (byteAt m.buffer k)) (ht : ThreadFrom ok m.pdevhead h)
    (controlPhead : List Control) (score : ℚ) (hscore : h.pc = .face → ok 2 (faceReply score)) :
    StepFrom ok pdevhead tid m (h.step controlPhead score tid m) := by
  -- a move to a point that neither holds a status nor owes a reply nor is the first to rely on a
  -- stored level
  have hmove : ∀ h' : HandlerThread, h'.pcurGdevice = h.pcurGdevice →
      (∀ status, h'.pc ≠ .store status) → ¬ OwesReply h'.pc → (HasStored h'.pc → HasStored h.pc) →
      ThreadFrom ok m.pdevhead h' := fun h' hd hstatus howes hstored =>
    ht.move hd (fun status hpc => absurd hpc (hstatus status)) (fun hpc => absurd hpc howes) hstored
  have hquiet : ∀ e : Event, (∀ d call, e ≠ .gpio d call) → ∀ e' ∈ [e],
      DrivenFrom ok pdevhead (tid, e') := by
    intro e he e' he'
    rw [List.mem_singleton.mp he']
    exact drivenFrom_of_ne he
  unfold HandlerThread.step
  cases hpc : h.pc with
  | idTest =>
      refine StepFrom.quiet (hmove _ (by rfl) ?_ ?_ ?_) _
      all_goals by_cases h40 : byteAt m.buffer 2 = 0x40 <;> simp [h40, HasStored, OwesReply]
  | lookup =>
      refine StepFrom.emit ⟨fun status hst => ?_, fun hst => ?_, fun d hd => ?_⟩ (hquiet _ (by simp))
      · cases hfind : findGdeviceByKey m.pdevhead (byteAt m.buffer 2).asInt <;> simp [hfind] at hst
      · cases hfind : findGdeviceByKey m.pdevhead (byteAt m.buffer 2).asInt <;>
          simp [hfind, OwesReply] at hst
      · simp only at hd
        obtain ⟨pdev, hg, hkey⟩ := exists_getElem?_of_find hd
        exact ⟨pdev, hg, ⟨_, hbuffer 2, hkey⟩, fun hstored => by simp [hd, HasStored] at hstored⟩
  | level =>
      refine StepFrom.quiet (ht.move (by rfl) (fun status hst => ?_) (by simp [OwesReply])
        (by simp [HasStored])) _
      obtain rfl : byteAt m.buffer 3 = status := by simpa using hst
      exact hbuffer 3
  | store status =>
      refine StepFrom.through ht fun d pdev hd hg hkey _ => ?_
      have hfrom : LevelFrom ok (requestedLevel status) := levelFrom_requestedLevel (ht.status _ hpc)
      exact stepFrom_setStatus hd hg hkey hfrom (by simp) (by simp [OwesReply])
  | gate =>
      refine StepFrom.through ht fun d pdev _ _ _ _ => ?_
      refine StepFrom.quiet (hmove _ (by rfl) ?_ ?_ (by simp [hpc, HasStored])) _
      all_goals by_cases hcheck : pdev.checkFaceStatus = 1 <;> simp [hcheck, OwesReply]
  | face =>
      refine StepFrom.emit (ht.move (by rfl) ?_ (fun _ => hscore hpc) (by simp [hpc, HasStored]))
        (hquiet _ (by simp))
      cases accepted score <;> simp
  | pinMode site =>
      refine StepFrom.through ht fun d pdev _ hg hkey hlevel => ?_
      have hmoved : ThreadFrom ok m.pdevhead { h with pc := .digitalWrite site } := by
        refine ht.move rfl (by simp) (fun howes => ht.reply ?_) (by simp [hpc, HasStored])
        obtain rfl : site = .accepted := by simpa [OwesReply] using howes
        exact Or.inl hpc
      refine StepFrom.emit hmoved fun e he => ?_
      apply drivenFrom_setGpio hconf hg hkey (hlevel (by simp [hpc, HasStored]))
      rw [List.map_append]
      exact List.mem_append_left _ he
  | digitalWrite site =>
      refine StepFrom.through ht fun d pdev _ hg hkey hlevel => ?_
      have hstored : HasStored h.pc := by simp [hpc, HasStored]
      refine StepFrom.emit ?_ fun e he => ?_
      · cases site with
        | accepted =>
            exact ht.move (by rfl) (fun _ hst => by cases hst)
              (fun _ => ht.reply (Or.inr (Or.inl hpc))) fun _ => hstored
        | ungated | relock =>
            exact hmove _ (by rfl) (by simp [HandlerThread.driven])
              (by simp [HandlerThread.driven, OwesReply]) fun _ => hstored
      · apply drivenFrom_setGpio hconf hg hkey (hlevel hstored)
        rw [List.map_append]
        exact List.mem_append_right _ he
  | reply =>
      exact ⟨Or.inl rfl, hmove _ (by rfl) (by simp) (by simp [OwesReply]) (by simp [hpc, HasStored]), [],
        by simp, by simp⟩
  | voiceTest =>
      refine StepFrom.through ht fun d pdev _ _ _ _ => ?_
      split_ifs
      · cases voiceSearch controlPhead with
        | none =>
            exact StepFrom.quiet (hmove _ (by rfl) (by simp) (by simp [OwesReply])
              (by simp [hpc, HasStored])) _
        | some pcontrol =>
            exact StepFrom.quiet (hmove _ (by rfl) (by simp) (by simp [OwesReply])
              (by simp [hpc, HasStored])) _
      · exact StepFrom.quiet (hmove _ (by rfl) (by simp) (by simp [OwesReply])
          (by simp [hpc, HasStored])) _
  | fireCode pcontrol =>
      refine StepFrom.quiet (hmove _ (by rfl) ?_ ?_ (by simp [hpc, HasStored])) _
      all_goals by_cases hcode : byteAt m.buffer 2 = 0x45 <;> simp [hcode, OwesReply]
  | fireStatus pcontrol =>
      exact StepFrom.quiet (hmove _ (by rfl) (by simp) (by simp [OwesReply])
        (by simp [hpc, HasStored])) _
  | startSet pcontrol =>
      simp only
      split_ifs
      · exact StepFrom.emit (hmove _ (by rfl) (by simp) (by simp [OwesReply])
          (by simp [hpc, HasStored])) (hquiet _ (by simp))
      · exact StepFrom.quiet ht _
  | oled =>
      refine StepFrom.through ht fun d pdev _ _ _ _ => ?_
      exact StepFrom.emit (hmove _ (by rfl) (by simp) (by simp [OwesReply])
        (by simp [hpc, HasStored])) (hquiet _ (by simp))
  | relockTest =>
      refine StepFrom.through ht fun d pdev _ _ _ _ => ?_
      refine StepFrom.quiet (hmove _ (by rfl) ?_ ?_ (by simp [hpc, HasStored])) _
      all_goals
        by_cases hrelock : relocks pdev h.ret h.faceResult = true <;> simp [hrelock, OwesReply]
  | relockStore =>
      refine StepFrom.through ht fun d pdev hd hg hkey _ => ?_
      exact stepFrom_setStatus hd hg hkey (Or.inl rfl) (by simp) (by simp [OwesReply])
  | exited => exact StepFrom.quiet ht _

/-! ## The whole hub -/

/-- The origins of a state: the messages dequeued, and the scores returned.
Source: `receive_interface.c` `receive_get`, `receive_thread_handler`
Kind: D -/
def System.origin (s : System) : ℕ → Byte → Prop := Origin s.dequeued (faceScores s.mem.events)

/-- Six bytes that each have an origin. Source: `voice_interface.c` `voice_set`. Kind: D -/
def SixFrom (ok : ℕ → Byte → Prop) (line : List Byte) : Prop :=
  line.length = 6 ∧ ∀ k < 6, ok k (byteAt line k)

/-- The invariant of the hub, for the messages so far: the message in hand is in the local buffer;
once a frame is copied, every byte of the shared one has an origin; and so have the handlers, the
calls and what was written to the line.
Source: `receive_interface.c` `receive_get`, `receive_thread_handler`
Kind: D -/
structure Sourced (pdevhead : List Gdevice) (s : System) : Prop where
  config : s.mem.pdevhead.map Gdevice.config = pdevhead.map Gdevice.config
  inHand : s.recv.pc = .marked →
    ∃ msg ∈ s.dequeued, ∃ buf, s.recv = ⟨.marked, msg.length, overlay msg buf⟩
  cleared : ∀ k, byteAt s.mem.buffer k = 0 ∨ s.origin k (byteAt s.mem.buffer k)
  copied : s.recv.pc = .copied ∨ s.handlers ≠ [] → ∀ k, s.origin k (byteAt s.mem.buffer k)
  handlers : Each (fun _ => ThreadFrom s.origin s.mem.pdevhead) s.handlers
  events : ∀ e ∈ s.mem.events, DrivenFrom s.origin pdevhead e
  length : 6 ≤ s.mem.buffer.length
  started : s.mem.events ≠ [] → s.handlers ≠ []
  serial : ∀ line ∈ s.serial, SixFrom s.origin line

theorem sourced_init (pdevhead : List Gdevice) : Sourced pdevhead (System.init pdevhead) := by
  have hwaits : (System.init pdevhead).recv.pc = .receiving := rfl
  refine ⟨rfl, fun h => ?_, fun k => Or.inl ?_, fun h => ?_, Each.nil, fun e he => ?_, ?_,
    fun h => absurd rfl h, fun line hline => ?_⟩
  · rw [hwaits] at h
    cases h
  · change (List.replicate mqMsgsize (0 : Byte)).getD k 0 = 0
    rw [List.getD_eq_getElem?_getD, List.getElem?_replicate]
    split_ifs <;> rfl
  · rw [hwaits] at h
    exact absurd rfl (h.resolve_left (by simp))
  · exact absurd he List.not_mem_nil
  · change 6 ≤ (List.replicate mqMsgsize (0 : Byte)).length
    rw [List.length_replicate]
    decide
  · exact absurd hline List.not_mem_nil

variable {s : System}

/-- A marked message joins the messages so far. -/
theorem sourced_mqReceive (hs : Sourced pdevhead s) (hpc : s.recv.pc = .receiving)
    (result : Option (List Byte)) :
    Sourced pdevhead { s with
      recv := Queue.mqReceive result s.recv
      dequeued := s.dequeued ++
        if (Queue.mqReceive result s.recv).pc = .marked then result.toList else [] } := by
  generalize hmore : (if (Queue.mqReceive result s.recv).pc = .marked then result.toList else []) = more
  have hgrow : ∀ k b, s.origin k b → Origin (s.dequeued ++ more) (faceScores s.mem.events) k b :=
    fun _ _ h => h.of_subset (List.subset_append_left _ _) (List.Subset.refl _)
  refine ⟨hs.config, fun hmarked => ?_, fun k => (hs.cleared k).imp_right (hgrow k _),
    fun hcopied k => ?_, hs.handlers.mono fun _ _ _ ht => ht.imp hgrow,
    fun e he => (hs.events e he).imp hgrow, hs.length, hs.started,
    fun line hline => (hs.serial line hline).imp_right fun h k hk => hgrow k _ (h k hk)⟩
  · simp only at hmarked
    rw [if_pos hmarked] at hmore
    cases result with
    | none =>
        simp only [Queue.mqReceive, hpc] at hmarked
        cases hmarked
    | some msg =>
        refine ⟨msg, by simp [← hmore], s.recv.buffer, ?_⟩
        simp only [Queue.mqReceive] at hmarked ⊢
        rw [hmarked]
  · refine hgrow k _ (hs.copied (hcopied.imp_left fun h => ?_) k)
    cases result with
    | none => exact absurd (hpc.symm.trans h) (by simp)
    | some msg =>
        simp only [Queue.mqReceive] at h
        split_ifs at h

/-- Every byte of the frame after the `memcpy` has an origin. -/
theorem sourced_memcpy (hs : Sourced pdevhead s) (hpc : s.recv.pc = .marked) :
    Sourced pdevhead { s with
      mem := { s.mem with buffer := memcpyFrame s.recv s.mem.buffer }
      recv := { s.recv with pc := .copied } } := by
  have hcopied : ∀ k, s.origin k (byteAt (memcpyFrame s.recv s.mem.buffer) k) := by
    intro k
    obtain ⟨msg, hmsg, buf, hrecv⟩ := hs.inHand hpc
    by_cases hk : k < msg.length
    · rw [hrecv, byteAt_memcpyFrame hk]
      exact Or.inl ⟨msg, hmsg, by simp [byteAt, List.getElem?_eq_getElem hk]⟩
    · -- behind the message the frame is as it was
      have hkeep : byteAt (memcpyFrame s.recv s.mem.buffer) k = byteAt s.mem.buffer k := by
        rw [hrecv, memcpyFrame, Int.toNat_natCast, take_overlay buf le_rfl, List.take_length]
        simp [byteAt, List.getD_eq_getElem?_getD, getElem?_overlay,
          List.getElem?_eq_none (Nat.not_lt.mp hk)]
      rw [hkeep]
      rcases hs.cleared k with hzero | hfrom
      · exact Or.inr (Or.inl ⟨hzero, msg, hmsg, Nat.not_lt.mp hk⟩)
      · exact hfrom
  refine ⟨hs.config, fun h => absurd h (by simp), fun k => Or.inr (hcopied k), fun _ => hcopied,
    hs.handlers, hs.events, ?_, hs.started, hs.serial⟩
  have hlength := hs.length
  simp only [memcpyFrame, overlay, List.length_append, List.length_drop]
  omega

/-- What a step of a handler leaves in the frame: the byte that was there, or the reply it owes. -/
theorem byteAt_step (controlPhead : List Control) (score : ℚ) (tid : ℕ) (m : Memory)
    (h : HandlerThread) (k : ℕ) :
    byteAt (h.step controlPhead score tid m).1.buffer k = byteAt m.buffer k ∨
      h.pc = .reply ∧ k = 2 ∧
        byteAt (h.step controlPhead score tid m).1.buffer k = faceReply h.faceResult := by
  rw [(h.step_effect controlPhead score tid m).buffer]
  split_ifs with hpc
  · simp only [byteAt, List.getD_eq_getElem?_getD, List.getElem?_set]
    split_ifs with hk hlen
    · exact Or.inr ⟨hpc, hk.symm, rfl⟩
    · left
      subst hk
      simp [List.getElem?_eq_none (Nat.not_lt.mp hlen)]
    · exact Or.inl rfl
  · exact Or.inl rfl

theorem sourced_handler (hs : Sourced pdevhead s) {score : ℚ} (hh : s.handlers[tid]? = some h) :
    Sourced pdevhead { s with
      mem := (h.step controlPhead score tid s.mem).1
      handlers := s.handlers.set tid (h.step controlPhead score tid s.mem).2 } := by
  have hsome : s.handlers ≠ [] := List.ne_nil_of_mem (List.mem_of_getElem? hh)
  have heffect := h.step_effect controlPhead score tid s.mem
  obtain ⟨more, hmore, -⟩ := heffect.events
  -- the origins after the step, of which those before it are some
  let ok := Origin s.dequeued (faceScores (h.step controlPhead score tid s.mem).1.events)
  have hgrow : ∀ k b, s.origin k b → ok k b := by
    intro k b hb
    refine hb.of_subset (List.Subset.refl _) ?_
    rw [hmore, faceScores_append]
    exact List.subset_append_left _ _
  have hscore : h.pc = .face → ok 2 (faceReply score) := by
    intro hface
    refine Or.inr (Or.inr ⟨rfl, score, ?_, rfl⟩)
    simp [HandlerThread.step, hface, Memory.emit, faceScores]
  have hframe : ∀ k, ok k (byteAt s.mem.buffer k) := fun k => hgrow k _ (hs.copied (Or.inr hsome) k)
  have hthread : ThreadFrom ok s.mem.pdevhead h := (hs.handlers tid h hh).imp hgrow
  have hstep := stepFrom_step tid hs.config hframe hthread controlPhead score hscore
  have horigin : ∀ k, ok k (byteAt (h.step controlPhead score tid s.mem).1.buffer k) := by
    intro k
    rcases byteAt_step controlPhead score tid s.mem h k with hkeep | ⟨hpc, rfl, hreply⟩
    · rw [hkeep]
      exact hframe k
    · rw [hreply]
      exact hthread.reply (Or.inr (Or.inr hpc))
  obtain ⟨es, hevents, hdriven⟩ := hstep.events
  refine ⟨heffect.config.trans hs.config, hs.inHand, fun k => Or.inr (horigin k), fun _ => horigin, ?_,
    fun e he => ?_, ?_, ?_, fun line hline => (hs.serial line hline).imp_right fun h k hk =>
      hgrow k _ (h k hk)⟩
  · exact hs.handlers.set hstep.thread fun j t _ _ ht => (ht.imp hgrow).mono hstep.table
  · simp only [hevents, List.mem_append, List.mem_map] at he
    rcases he with he | ⟨ev, hev, rfl⟩
    · exact (hs.events e he).imp hgrow
    · exact hdriven ev hev
  · simp only [heffect.buffer]
    have hlength := hs.length
    split_ifs
    · simpa using hlength
    · exact hlength
  · exact fun _ => by simpa using hsome

/-- Six bytes of the frame are written, once an announcement is pending. -/
theorem sourced_voiceSet (hs : Sourced pdevhead s)
    (hpending : s.serial.length < announcements s.mem.events) :
    Sourced pdevhead { s with serial := s.serial ++ [s.mem.buffer.take 6] } := by
  refine ⟨hs.config, hs.inHand, hs.cleared, hs.copied, hs.handlers, hs.events, hs.length, hs.started,
    fun line hline => ?_⟩
  rcases List.mem_append.mp hline with hold | hnew
  · exact hs.serial line hold
  · have hevents : s.mem.events ≠ [] := by
      intro hnil
      simp [hnil, announcements] at hpending
    obtain rfl := List.mem_singleton.mp hnew
    have hlength := hs.length
    refine ⟨by simp [hlength], fun k hk => ?_⟩
    have hbyte : byteAt (s.mem.buffer.take 6) k = byteAt s.mem.buffer k := by
      simp [byteAt, List.getD_eq_getElem?_getD, List.getElem?_take_of_lt hk]
    rw [hbyte]
    exact hs.copied (Or.inr (hs.started hevents)) k

/-- Every step keeps the invariant.
Source: `receive_interface.c` `receive_get`, `receive_thread_handler`
Kind: L -/
theorem sourced_step (s : System) (a : Act) (hs : Sourced pdevhead s) :
    Sourced pdevhead (s.step controlPhead a) := by
  apply System.step_induction_of_pending a hs
  · exact fun result _ hpc => sourced_mqReceive hs hpc result
  · exact fun _ hpc => sourced_memcpy hs hpc
  · intro hpc
    refine ⟨hs.config, fun h => absurd h (by simp), hs.cleared, fun _ => hs.copied (Or.inl hpc), ?_,
      hs.events, hs.length, fun _ => by simp, hs.serial⟩
    exact hs.handlers.concat (threadFrom_init _) fun _ _ _ ht => ht
  · exact fun tid score h _ hh => sourced_handler hs hh
  · exact sourced_voiceSet hs

/-- Every interleaving keeps the invariant.
Source: `receive_interface.c` `receive_get`, `receive_thread_handler`
Kind: L -/
theorem sourced_after (controlPhead : List Control) (pdevhead : List Gdevice) (acts : List Act) :
    Sourced pdevhead (System.after controlPhead pdevhead acts) :=
  run_invariant sourced_step (sourced_init pdevhead) acts

/-- **Nothing drives a pin but a message or a reply**: on every device table and in every
interleaving of `receive_get`, its handlers and the announcements, a wiringPi call is for a
configured record, on its configured pin and in its configured mode, whose key is the code of a
message for which a handler was to be started, or a zero behind a shorter one, or the reply to a
score that `face_score` has returned; and it is to `LOW` only if a status of `0` has such an origin.
Source: `receive_interface.c` `receive_get`, `receive_thread_handler`
Kind: P -/
theorem drivenFromOrigin_after (controlPhead : List Control) (pdevhead : List Gdevice)
    (acts : List Act) :
    ∀ e ∈ (System.after controlPhead pdevhead acts).mem.events,
      DrivenFrom (Origin (System.after controlPhead pdevhead acts).dequeued
        (faceScores (System.after controlPhead pdevhead acts).mem.events)) pdevhead e :=
  (sourced_after controlPhead pdevhead acts).events

/-- The lock is opened and shut again, and a lamp switched in between.
Source: none: a run. Kind: D -/
def lockAndLamp : List Act :=
  [.mqReceive (some (frame 0x44 0)), .memcpy, .pthreadCreate] ++
    List.replicate 10 (.handler 0 (9 / 10)) ++
    [.mqReceive (some (frame 0x41 0)), .memcpy, .pthreadCreate] ++ List.replicate 8 (.handler 1 0) ++
    List.replicate 8 (.handler 0 0)

/-- On the shipped configuration the lamp is switched on while the lock is open.
Source: `gdevice.c` `set_gpio_gdevice_status`
Kind: L -/
theorem drivenFromOrigin_lockAndLamp :
    faceScores (System.after mainControls (gdeviceTable shippedCalls) lockAndLamp).mem.events =
        [9 / 10] ∧
      DrivenFrom (Origin (System.after mainControls (gdeviceTable shippedCalls) lockAndLamp).dequeued
        (faceScores (System.after mainControls (gdeviceTable shippedCalls) lockAndLamp).mem.events))
        (gdeviceTable shippedCalls) (1, .gpio 1 (.digitalWrite 2 low)) :=
  ⟨by decide +kernel, drivenFromOrigin_after mainControls (gdeviceTable shippedCalls) lockAndLamp _
    (by decide +kernel)⟩

/-! ## The serial line -/

/-- Every message for which a handler was to be started is a command frame.
Source: none: the condition on the queue. Kind: D -/
def TookFrames (s : System) : Prop := ∀ msg ∈ s.dequeued, ∃ code status, msg = frame code status

theorem tookFrames_step (s : System) (a : Act) (hframe : DeliversFrame a) (hs : TookFrames s) :
    TookFrames (s.step controlPhead a) := by
  apply System.step_induction a hs
  · rintro result rfl - msg hmsg
    rcases List.mem_append.mp hmsg with hold | hnew
    · exact hs msg hold
    · split_ifs at hnew
      · obtain rfl : result = some msg := by simpa using hnew
        exact hframe msg rfl
      · exact absurd hnew List.not_mem_nil
  · exact fun _ _ => hs
  · exact fun _ => hs
  · exact fun _ _ _ _ _ => hs
  · exact hs

theorem tookFrames_after (controlPhead : List Control) (pdevhead : List Gdevice) {acts : List Act}
    (hframes : ∀ a ∈ acts, DeliversFrame a) :
    TookFrames (System.after controlPhead pdevhead acts) := by
  have hrun : Meets (System.step controlPhead) (fun _ a => DeliversFrame a) (System.init pdevhead)
      acts := Meets.of_forall_mem hframes
  exact hrun.invariant tookFrames_step fun msg hmsg => absurd hmsg List.not_mem_nil

/-- With command frames only, a byte of the frame is that of one of them, or the reply to a score. -/
theorem Origin.of_frames {msgs : List (List Byte)} {scores : List ℚ}
    (hframes : ∀ msg ∈ msgs, ∃ code status, msg = frame code status) {k : ℕ} (hk : k < 6) {b : Byte}
    (h : Origin msgs scores k b) :
    (∃ code status, frame code status ∈ msgs ∧ b = byteAt (frame code status) k) ∨
      (k = 2 ∧ ∃ score ∈ scores, b = faceReply score) := by
  rcases h with ⟨msg, hmsg, hb⟩ | ⟨-, msg, hmsg, hlen⟩ | h
  · obtain ⟨code, status, rfl⟩ := hframes msg hmsg
    exact Or.inl ⟨code, status, hmsg, (byteAt_eq_of_getElem? hb).symm⟩
  · obtain ⟨code, status, rfl⟩ := hframes msg hmsg
    rw [length_frame] at hlen
    omega
  · exact Or.inr h

/-- **The voice module is sent command frames**: while only command frames come in, in every
interleaving each string written to the serial line is a command frame; its status is that of a
message for which a handler was to be started, and so is its code, unless that is the reply to a
score that `face_score` has returned.
Source: `receive_interface.c` `receive_get`, `receive_thread_handler`, `voice_interface.c`
`voice_set`
Kind: P -/
theorem serial_eq_frame_after (controlPhead : List Control) (pdevhead : List Gdevice)
    (acts : List Act) (hframes : ∀ a ∈ acts, DeliversFrame a) :
    ∀ line ∈ (System.after controlPhead pdevhead acts).serial, ∃ code status,
      line = frame code status ∧
      ((∃ score ∈ faceScores (System.after controlPhead pdevhead acts).mem.events,
          code = faceReply score) ∨
        ∃ st, frame code st ∈ (System.after controlPhead pdevhead acts).dequeued) ∧
      ∃ c, frame c status ∈ (System.after controlPhead pdevhead acts).dequeued := by
  intro line hline
  obtain ⟨hlength, hbytes⟩ := (sourced_after controlPhead pdevhead acts).serial line hline
  have htook := tookFrames_after controlPhead pdevhead hframes
  have hfrom : ∀ k < 6, k ≠ 2 → ∃ c st,
      frame c st ∈ (System.after controlPhead pdevhead acts).dequeued ∧
        byteAt line k = byteAt (frame c st) k := by
    intro k hk hk2
    exact ((hbytes k hk).of_frames htook hk).resolve_right fun h => hk2 h.1
  have hmarked : frameMarked line = true := by
    obtain ⟨c₀, s₀, -, h₀⟩ := hfrom 0 (by decide) (by decide)
    obtain ⟨c₁, s₁, -, h₁⟩ := hfrom 1 (by decide) (by decide)
    obtain ⟨c₄, s₄, -, h₄⟩ := hfrom 4 (by decide) (by decide)
    obtain ⟨c₅, s₅, -, h₅⟩ := hfrom 5 (by decide) (by decide)
    simp only [frameMarked, h₀, h₁, h₄, h₅]
    rfl
  obtain ⟨code, status, rfl⟩ := length_six_and_frameMarked_iff.mp ⟨hlength, hmarked⟩
  refine ⟨code, status, rfl, ?_, ?_⟩
  · rcases (hbytes 2 (by decide)).of_frames htook (by decide) with ⟨c, st, hmem, hc⟩ | ⟨-, hreply⟩
    · obtain rfl : code = c := hc
      exact Or.inr ⟨st, hmem⟩
    · exact Or.inl hreply
  · obtain ⟨c, st, hmem, hst⟩ := hfrom 3 (by decide) (by decide)
    obtain rfl : status = st := hst
    exact ⟨c, hmem⟩

/-- The fire alarm and then the lock are handled up to their announcements; both are written late.
Source: none: a run. Kind: D -/
def twoAnnouncements : List Act :=
  [.mqReceive (some (frame 0x45 0)), .memcpy, .pthreadCreate] ++ List.replicate 18 (.handler 0 0) ++
    [.voiceSet, .mqReceive (some (frame 0x44 0)), .memcpy, .pthreadCreate] ++
    List.replicate 18 (.handler 1 (9 / 10)) ++ [.voiceSet]

theorem deliversFrame_twoAnnouncements : ∀ a ∈ twoAnnouncements, DeliversFrame a := by
  intro a ha msg hmsg
  subst hmsg
  have hmsg : msg = frame 0x45 0 ∨ msg = frame 0x44 0 := by simpa [twoAnnouncements] using ha
  rcases hmsg with rfl | rfl
  · exact ⟨0x45, 0, rfl⟩
  · exact ⟨0x44, 0, rfl⟩

/-- On the shipped configuration the alarm's own frame is written, and the reply to the face.
Source: `voice_interface.c` `voice_set`
Kind: L -/
theorem serial_twoAnnouncements :
    (System.after mainControls (gdeviceTable shippedCalls) twoAnnouncements).serial =
        [frame 0x45 0, frame 0x47 0] ∧
      ∃ code status, frame 0x47 0 = frame code status ∧
        ((∃ score ∈ faceScores
            (System.after mainControls (gdeviceTable shippedCalls) twoAnnouncements).mem.events,
            code = faceReply score) ∨ ∃ st, frame code st ∈
          (System.after mainControls (gdeviceTable shippedCalls) twoAnnouncements).dequeued) ∧
        ∃ c, frame c status ∈
          (System.after mainControls (gdeviceTable shippedCalls) twoAnnouncements).dequeued := by
  have hserial : (System.after mainControls (gdeviceTable shippedCalls) twoAnnouncements).serial =
      [frame 0x45 0, frame 0x47 0] := by decide +kernel
  refine ⟨hserial, ?_⟩
  exact serial_eq_frame_after mainControls (gdeviceTable shippedCalls) twoAnnouncements
    deliversFrame_twoAnnouncements (frame 0x47 0) (by simp [hserial])

end SmartHome.Concurrent
