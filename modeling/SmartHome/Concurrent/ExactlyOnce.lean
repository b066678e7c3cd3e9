import SmartHome.Concurrent.System
import SmartHome.Handler.Fault

/-!
# Each thing once

Whatever overlaps, no command is acted on twice by its handler: it looks up one record, asks for one
face at most, starts one announcement at most and makes four wiringPi calls at most (two for the
command, two for the relock); and when it is at its end, it has looked up exactly one record and
shown exactly one text, or it has dropped the code `0x40` and done nothing (`effectsOnce_after`).

`Tally` is the invariant: the actions of a handler so far, counted by their kind, against its point
of the body. What a kind allows depends on the point only through `Pc.rank`, which falls with every
step, so a step owes only the comparison of two ranks (`Tally.move`).
-/

set_option autoImplicit false

namespace SmartHome.Concurrent

open SmartHome.Device SmartHome.Controls SmartHome.Found SmartHome.Handler SmartHome.Queue

/-! ## Counting -/

/-- The kinds of action. Source: `receive_interface.c` `receive_thread_handler`. Kind: D -/
inductive ActionKind where
  | lookup
  | score
  | gpio
  | announcement
  | text
deriving DecidableEq

/-- The kind of an action. Source: `receive_interface.c` `receive_thread_handler`. Kind: D -/
def actionKind : Event → ActionKind
  | .findGdeviceByKey _ => .lookup
  | .faceScore _ => .score
  | .gpio _ _ => .gpio
  | .startSet _ => .announcement
  | .myoledShow _ => .text

/-- How often handler `tid` has taken an action of the kind.
Source: none: what an observer counts. Kind: D -/
def times (kind : ActionKind) (tid : ℕ) (events : List (ℕ × Event)) : ℕ :=
  events.countP fun e => e.1 == tid && actionKind e.2 == kind

theorem times_append (kind : ActionKind) (tid : ℕ) (events events' : List (ℕ × Event)) :
    times kind tid (events ++ events') = times kind tid events + times kind tid events' := by
  simp [times]

/-- The actions of one handler. -/
@[simp] theorem times_own (kind : ActionKind) (tid : ℕ) (es : List Event) :
    times kind tid (es.map (Prod.mk tid)) = es.countP fun e => actionKind e == kind := by
  simp [times, List.countP_map, Function.comp_def]

/-- The actions of another. -/
theorem times_other (kind : ActionKind) {i tid : ℕ} (hi : i ≠ tid) (es : List Event) :
    times kind tid (es.map (Prod.mk i)) = 0 := by
  simp [times, List.countP_map, Function.comp_def, hi]

/-! ## What a handler has done at each point -/

/-- How many wiringPi calls are left at most.
Source: `receive_interface.c` `receive_thread_handler`
Kind: D -/
def callsLeft (rank : ℕ) : ℕ :=
  if rank = 0 then 0 else if rank = 1 then 1 else if rank ≤ 10 then 2 else if rank = 11 then 3 else 4

/-- One if a point of this rank lies behind. Source: none: infrastructure. Kind: D -/
def behind (rank point : ℕ) : ℕ := if rank < point then 1 else 0

/-- The actions of handler `tid` so far, once it has looked up its record: at most, and for the text
exactly, those of the points behind it.
Source: `receive_interface.c` `receive_thread_handler`
Kind: D -/
structure Tally (events : List (ℕ × Event)) (tid rank : ℕ) : Prop where
  lookup : times .lookup tid events = 1
  score : times .score tid events ≤ behind rank 13
  gpio : times .gpio tid events + callsLeft rank ≤ 4
  announcement : times .announcement tid events ≤ behind rank 6
  text : times .text tid events = behind rank 5

/-- The invariant of handler `tid`: before it has noted a code it has done nothing.
Source: `receive_interface.c` `receive_thread_handler`
Kind: D -/
def Counted (events : List (ℕ × Event)) (tid : ℕ) (h : HandlerThread) : Prop :=
  match h.code with
  | none => (h.pc = .idTest ∨ h.pc = .lookup ∨ h.pc = .exited) ∧ ∀ kind, times kind tid events = 0
  | some _ => h.pc.rank ≤ 16 ∧ Tally events tid h.pc.rank

/-- Actions that are allowed between two ranks. Source: none: infrastructure. Kind: D -/
structure Allows (es : List Event) (rank rank' : ℕ) : Prop where
  falls : rank' ≤ rank
  lookup : es.countP (actionKind · == .lookup) = 0
  score : es.countP (actionKind · == .score) + behind rank 13 ≤ behind rank' 13
  gpio : es.countP (actionKind · == .gpio) + callsLeft rank' ≤ callsLeft rank
  announcement : es.countP (actionKind · == .announcement) + behind rank 6 ≤ behind rank' 6
  text : es.countP (actionKind · == .text) + behind rank 5 = behind rank' 5

variable {controlPhead : List Control} {score : ℚ} {tid : ℕ} {m : Memory} {h : HandlerThread}
  {events : List (ℕ × Event)} {es : List Event} {rank rank' : ℕ}

theorem callsLeft_mono (h : rank' ≤ rank) : callsLeft rank' ≤ callsLeft rank := by
  unfold callsLeft
  split_ifs <;> omega

theorem behind_anti (h : rank' ≤ rank) (point : ℕ) : behind rank point ≤ behind rank' point := by
  unfold behind
  split_ifs <;> omega

/-- No action, and no text in between. -/
theorem allows_nil (hfalls : rank' ≤ rank) (htext : rank < 5 ↔ rank' < 5) : Allows [] rank rank' := by
  refine ⟨hfalls, rfl, ?_, ?_, ?_, by simp [behind, htext]⟩
  · simpa using behind_anti hfalls 13
  · simpa using callsLeft_mono hfalls
  · simpa using behind_anti hfalls 6

theorem Tally.append (ht : Tally events tid rank) (ha : Allows es rank rank') :
    Tally (events ++ es.map (Prod.mk tid)) tid rank' := by
  have hlookup := ha.lookup
  have hscore := ha.score
  have hgpio := ha.gpio
  have hannouncement := ha.announcement
  have htext := ha.text
  refine ⟨?_, ?_, ?_, ?_, ?_⟩
  all_goals rw [times_append, times_own]
  · rw [hlookup, ht.lookup]
  · exact (Nat.add_le_add_right ht.score _).trans (by omega)
  · have := ht.gpio
    omega
  · exact (Nat.add_le_add_right ht.announcement _).trans (by omega)
  · rw [ht.text]
    omega

/-! ## The handler at work -/

/-- What a step behind the lookup does: its code stays, and its actions are allowed.
Source: `receive_interface.c` `receive_thread_handler`
Kind: D -/
structure Goes (tid : ℕ) (m : Memory) (h : HandlerThread) (x : Memory × HandlerThread) : Prop where
  code : x.2.code = h.code
  events : ∃ es : List Event, x.1.events = m.events ++ es.map (Prod.mk tid) ∧
    Allows es h.pc.rank x.2.pc.rank

theorem Goes.quiet {x : Memory × HandlerThread} (hevents : x.1.events = m.events)
    (hcode : x.2.code = h.code) (hfalls : x.2.pc.rank ≤ h.pc.rank)
    (htext : h.pc.rank < 5 ↔ x.2.pc.rank < 5) : Goes tid m h x :=
  ⟨hcode, [], by simp [hevents], allows_nil hfalls htext⟩

theorem Goes.through {k : ℕ → Gdevice → Memory × HandlerThread}
    (hk : ∀ d pdev, Goes tid m h (k d pdev)) : Goes tid m h (h.through m k) :=
  HandlerThread.through_induction (P := Goes tid m h) (.quiet rfl rfl le_rfl Iff.rfl)
    fun d pdev _ _ => hk d pdev

theorem countP_map_gpio (kind : ActionKind) (d : ℕ) (calls : List GpioCall) :
    (calls.map (Event.gpio d)).countP (actionKind · == kind) =
      if kind = .gpio then calls.length else 0 := by
  rw [List.countP_map]
  split_ifs with hkind
  · simp [Function.comp_def, actionKind, hkind]
  · simp [Function.comp_def, actionKind, Ne.symm hkind]

/-- At most one wiringPi call. -/
theorem Goes.call {h' : HandlerThread} (hcode : h'.code = h.code) {d : ℕ} {calls : List GpioCall}
    (hcalls : calls.length ≤ 1) (hfalls : h'.pc.rank ≤ h.pc.rank)
    (hleft : callsLeft h'.pc.rank + 1 ≤ callsLeft h.pc.rank)
    (htext : h.pc.rank < 5 ↔ h'.pc.rank < 5) :
    Goes tid m h (m.emit tid (calls.map (.gpio d)), h') := by
  have hnil := allows_nil hfalls htext
  refine ⟨hcode, _, rfl, hfalls, ?_, ?_, ?_, ?_, ?_⟩
  all_goals simp only [countP_map_gpio, reduceCtorEq, if_false, if_true]
  · exact hnil.score
  · omega
  · exact hnil.announcement
  · exact hnil.text

theorem length_pinModeCall (pdev : Gdevice) : (pinModeCall pdev).length ≤ 1 := by
  unfold pinModeCall
  split_ifs <;> simp

theorem length_digitalWriteCall (pdev : Gdevice) : (digitalWriteCall pdev).length ≤ 1 := by
  unfold digitalWriteCall
  split_ifs <;> simp

/-- **A step behind the lookup** takes actions that the two ranks allow: one case for each point.
Source: `receive_interface.c` `receive_thread_handler`
Kind: L -/
theorem goes_step (hrank : h.pc.rank ≤ 16) (tid : ℕ) (m : Memory) (controlPhead : List Control)
    (score : ℚ) :
    Goes tid m h (h.step controlPhead score tid m) := by
  unfold HandlerThread.step
  cases hpc : h.pc with
  | idTest => simp [hpc, Pc.rank] at hrank
  | lookup => simp [hpc, Pc.rank] at hrank
  | level => exact .quiet rfl rfl (by simp [hpc, Pc.rank]) (by simp [hpc, Pc.rank])
  | store status =>
      exact .through fun d pdev => .quiet rfl rfl (by simp [hpc, Pc.rank]) (by simp [hpc, Pc.rank])
  | gate =>
      refine .through fun d pdev => .quiet rfl rfl ?_ ?_
      all_goals by_cases hcheck : pdev.checkFaceStatus = 1 <;> simp [hcheck, hpc, Pc.rank]
  | face =>
      refine ⟨rfl, _, rfl, ?_⟩
      cases accepted score <;>
        refine ⟨?_, ?_, ?_, ?_, ?_, ?_⟩ <;> simp [hpc, Pc.rank, actionKind, behind, callsLeft]
  | pinMode site =>
      refine .through fun d pdev => .call (by rfl) (length_pinModeCall pdev) ?_ ?_ ?_
      all_goals cases site <;> simp [hpc, Pc.rank, callsLeft]
  | digitalWrite site =>
      refine .through fun d pdev => ?_
      cases site <;>
        exact .call (by rfl) (length_digitalWriteCall pdev)
          (by simp [HandlerThread.driven, hpc, Pc.rank])
          (by simp [HandlerThread.driven, hpc, Pc.rank, callsLeft])
          (by simp [HandlerThread.driven, hpc, Pc.rank])
  | reply => exact .quiet rfl rfl (by simp [hpc, Pc.rank]) (by simp [hpc, Pc.rank])
  | voiceTest =>
      refine .through fun d pdev => ?_
      split_ifs
      · cases voiceSearch controlPhead with
        | none => exact .quiet rfl rfl (by simp [hpc, Pc.rank]) (by simp [hpc, Pc.rank])
        | some pcontrol => exact .quiet rfl rfl (by simp [hpc, Pc.rank]) (by simp [hpc, Pc.rank])
      · exact .quiet rfl rfl (by simp [hpc, Pc.rank]) (by simp [hpc, Pc.rank])
  | fireCode pcontrol =>
      refine .quiet rfl rfl ?_ ?_
      all_goals by_cases hcode : byteAt m.buffer 2 = 0x45 <;> simp [hcode, hpc, Pc.rank]
  | fireStatus pcontrol => exact .quiet rfl rfl (by simp [hpc, Pc.rank]) (by simp [hpc, Pc.rank])
  | startSet pcontrol =>
      simp only
      split_ifs
      · refine ⟨rfl, _, rfl, ?_⟩
        refine ⟨?_, ?_, ?_, ?_, ?_, ?_⟩ <;> simp [hpc, Pc.rank, actionKind, behind, callsLeft]
      · exact .quiet rfl rfl le_rfl Iff.rfl
  | oled =>
      refine .through fun d pdev => ⟨rfl, _, rfl, ?_⟩
      refine ⟨?_, ?_, ?_, ?_, ?_, ?_⟩ <;> simp [hpc, Pc.rank, actionKind, behind, callsLeft]
  | relockTest =>
      refine .through fun d pdev => .quiet rfl rfl ?_ ?_
      all_goals
        by_cases hrelock : relocks pdev h.ret h.faceResult = true <;> simp [hrelock, hpc, Pc.rank]
  | relockStore =>
      exact .through fun d pdev => .quiet rfl rfl (by simp [hpc, Pc.rank]) (by simp [hpc, Pc.rank])
  | exited => exact .quiet rfl rfl le_rfl Iff.rfl

/-- **A handler's own step keeps its count.**
Source: `receive_interface.c` `receive_thread_handler`
Kind: L -/
theorem counted_step (hc : Counted m.events tid h) (controlPhead : List Control) (score : ℚ) :
    Counted (h.step controlPhead score tid m).1.events tid (h.step controlPhead score tid m).2 := by
  cases hcode : h.code with
  | some code =>
      simp only [Counted, hcode] at hc
      obtain ⟨hrank, htally⟩ := hc
      obtain ⟨hkeep, es, hevents, hallows⟩ := goes_step hrank tid m controlPhead score
      simp only [Counted, hkeep, hcode, hevents]
      exact ⟨hallows.falls.trans hrank, htally.append hallows⟩
  | none =>
      simp only [Counted, hcode] at hc
      obtain ⟨hpc | hpc | hpc, hzero⟩ := hc
      · simp only [HandlerThread.step, hpc, Counted, hcode]
        refine ⟨?_, hzero⟩
        by_cases h40 : byteAt m.buffer 2 = 0x40 <;> simp [h40]
      · -- the lookup notes the code, and is the first action
        simp only [HandlerThread.step, hpc, Counted, Memory.emit]
        generalize findGdeviceByKey m.pdevhead (byteAt m.buffer 2).asInt = found
        have htally : ∀ rank, 5 ≤ rank →
            Tally (m.events ++ [Event.findGdeviceByKey found].map (Prod.mk tid)) tid rank := by
          intro rank hrank
          have hleft : callsLeft rank ≤ 4 := by
            unfold callsLeft
            split_ifs <;> omega
          refine ⟨?_, ?_, ?_, ?_, ?_⟩
          all_goals rw [times_append, hzero, times_own]
          · simp [actionKind]
          · simp [actionKind]
          · simpa [actionKind] using hleft
          · simp [actionKind]
          · simp [actionKind, behind, Nat.not_lt.mpr hrank]
        cases found with
        | none => exact ⟨by simp [Pc.rank], htally _ (by simp [Pc.rank])⟩
        | some d => exact ⟨by simp [Pc.rank], htally _ (by simp [Pc.rank])⟩
      · simp only [HandlerThread.step, hpc, Counted, hcode]
        exact ⟨Or.inr (Or.inr trivial), hzero⟩

/-! ## The whole hub -/

/-- The invariant of the hub: every handler's count, and no action of a handler not yet started.
Source: `receive_interface.c` `receive_get`, `receive_thread_handler`
Kind: D -/
structure AllCounted (s : System) : Prop where
  started : ∀ e ∈ s.mem.events, e.1 < s.handlers.length
  handlers : Each (Counted s.mem.events) s.handlers

theorem counted_init (hnone : ∀ kind, times kind tid events = 0) :
    Counted events tid HandlerThread.init := ⟨Or.inl rfl, hnone⟩

theorem Counted.congr {events' : List (ℕ × Event)} (hc : Counted events tid h)
    (htimes : ∀ kind, times kind tid events' = times kind tid events) : Counted events' tid h := by
  unfold Counted at hc ⊢
  cases hcode : h.code with
  | none =>
      simp only [hcode] at hc ⊢
      exact ⟨hc.1, fun kind => (htimes kind).trans (hc.2 kind)⟩
  | some code =>
      simp only [hcode] at hc ⊢
      obtain ⟨hrank, ht⟩ := hc
      exact ⟨hrank, by rw [htimes, ht.lookup], by rw [htimes]; exact ht.score,
        by rw [htimes]; exact ht.gpio, by rw [htimes]; exact ht.announcement, by rw [htimes, ht.text]⟩

variable {s : System}

theorem allCounted_handler (hs : AllCounted s) (hh : s.handlers[tid]? = some h) :
    AllCounted { s with
      mem := (h.step controlPhead score tid s.mem).1
      handlers := s.handlers.set tid (h.step controlPhead score tid s.mem).2 } := by
  obtain ⟨es, hevents, -⟩ := (h.step_effect controlPhead score tid s.mem).events
  refine ⟨fun e he => ?_, ?_⟩
  · rw [List.length_set]
    simp only [hevents, List.mem_append, List.mem_map] at he
    rcases he with he | ⟨ev, -, rfl⟩
    · exact hs.started e he
    · exact (List.getElem?_eq_some_iff.mp hh).1
  · refine hs.handlers.set (counted_step (hs.handlers tid h hh) controlPhead score) ?_
    intro j t hj _ ht
    refine ht.congr fun kind => ?_
    rw [hevents, times_append, times_other kind (Ne.symm hj), Nat.add_zero]

/-- Every step keeps the count.
Source: `receive_interface.c` `receive_get`, `receive_thread_handler`
Kind: L -/
theorem allCounted_step (s : System) (a : Act) (hs : AllCounted s) :
    AllCounted (s.step controlPhead a) := by
  apply System.step_induction a hs
  · exact fun _ _ _ => ⟨hs.started, hs.handlers⟩
  · exact fun _ _ => ⟨hs.started, hs.handlers⟩
  · intro _
    refine ⟨fun e he => ?_, hs.handlers.concat (counted_init fun kind => ?_) fun _ _ _ ht => ht⟩
    · rw [List.length_append]
      exact Nat.lt_add_right _ (hs.started e he)
    · refine List.countP_eq_zero.mpr fun e he => ?_
      have hlt := hs.started e he
      simp [Nat.ne_of_lt hlt]
  · exact fun tid score h _ hh => allCounted_handler hs hh
  · exact ⟨hs.started, hs.handlers⟩

/-- What the count of a handler says of its actions.
Source: none: the purpose of a command. Kind: D -/
structure EffectsOnce (events : List (ℕ × Event)) (tid : ℕ) (h : HandlerThread) : Prop where
  lookup : times .lookup tid events = if h.code.isSome = true then 1 else 0
  score : times .score tid events ≤ 1
  gpio : times .gpio tid events ≤ 4
  announcement : times .announcement tid events ≤ 1
  text : times .text tid events ≤ 1
  finished : h.pc = .exited → times .text tid events = times .lookup tid events
  dropped : h.code = none → ∀ kind, times kind tid events = 0

theorem Counted.effectsOnce (hc : Counted events tid h) : EffectsOnce events tid h := by
  unfold Counted at hc
  cases hcode : h.code with
  | none =>
      simp only [hcode] at hc
      obtain ⟨-, hzero⟩ := hc
      exact ⟨by simp [hzero, hcode], by simp [hzero], by simp [hzero], by simp [hzero], by simp [hzero],
        fun _ => by rw [hzero, hzero], fun _ => hzero⟩
  | some code =>
      simp only [hcode] at hc
      obtain ⟨-, ht⟩ := hc
      have hone : ∀ point, behind h.pc.rank point ≤ 1 := by
        intro point
        unfold behind
        split_ifs <;> omega
      have hgpio := ht.gpio
      refine ⟨by simp [ht.lookup, hcode], ht.score.trans (hone _), by omega,
        ht.announcement.trans (hone _), ht.text.le.trans (hone _), fun hexit => ?_,
        fun hnone => by simp [hcode] at hnone⟩
      rw [ht.lookup, ht.text, hexit]
      rfl

/-- **Each thing once**: in every interleaving, every handler started has looked up one record, if
it has looked up at all, and otherwise done nothing; it has asked for one face score, started one
announcement and shown one text at most, and made four wiringPi calls at most; and at its end it has
shown a text for its lookup.
Source: `receive_interface.c` `receive_get`, `receive_thread_handler`
Kind: P -/
theorem effectsOnce_after (controlPhead : List Control) (pdevhead : List Gdevice) (acts : List Act) :
    Each (EffectsOnce (System.after controlPhead pdevhead acts).mem.events)
      (System.after controlPhead pdevhead acts).handlers := by
  have hs : AllCounted (System.after controlPhead pdevhead acts) :=
    run_invariant allCounted_step ⟨fun _ he => absurd he List.not_mem_nil, Each.nil⟩ acts
  exact hs.handlers.mono fun _ _ _ hc => hc.effectsOnce

end SmartHome.Concurrent
