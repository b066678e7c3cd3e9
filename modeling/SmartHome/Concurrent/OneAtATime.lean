import SmartHome.Concurrent.Announcements
import SmartHome.Handler.Dispatch
import SmartHome.Handler.Fault

/-!
# Handlers that do not overlap

What the dispatcher does with one command after another is stated elsewhere for `handleMessage`,
which runs a handler to completion. This file says of which runs of the hub that is true: as long as
the next message is dequeued only when every handler has exited (`Sequential`), then whenever the
hub is at rest, its table, its frame buffer and the actions so far are those of handling the
messages it dequeued one at a time, with the scores that `face_score` gave
(`outcome_of_sequential`); and if it died, it died of the same `NULL`. The announcements may still
be written at any later moment: they only read.

The invariant is `Replays`, one case for each stage of a message. Of the handler at work it says
that it is on the way of a handler that moves alone (`Follows`), with the score it has obtained, or
with any score while it has not asked for one.
-/

set_option autoImplicit false

namespace SmartHome.Concurrent

open SmartHome.Device SmartHome.Controls SmartHome.Found SmartHome.Handler SmartHome.Queue

/-! ## Two levels -/

/-- Messages received into one buffer and handled to completion, each with a score.
Source: `receive_interface.c` `receive_get`, `receive_thread_handler`
Kind: D -/
def handleMessages (s : Outcome) (xs : List (List Byte × ℚ)) : Except NullDeref Outcome :=
  xs.foldlM (fun out x => handleMessage x.2 out x.1) s

/-- What the hub has come to: the `NULL` it died of, or what its handlers have done.
Source: none: what an observer compares. Kind: D -/
def System.outcome (s : System) : Except NullDeref Outcome :=
  match s.mem.crashed with
  | some e => .error e
  | none => .ok ⟨s.mem.pdevhead, s.mem.buffer, s.mem.events.map Prod.snd⟩

/-- The messages dequeued, each with the score that its handler obtained.
Source: none: what an observer compares. Kind: D -/
def System.history (s : System) : List (List Byte × ℚ) :=
  s.dequeued.zip (s.handlers.map HandlerThread.faceResult)

/-- The hub has died, or waits for a message with every handler at its end.
Source: none: what an observer compares. Kind: D -/
def System.AtRest (s : System) : Prop :=
  s.mem.crashed.isSome = true ∨ (s.recv.pc = .receiving ∧ ∀ h ∈ s.handlers, h.pc = .exited)

theorem handleMessages_concat (s : Outcome) (xs : List (List Byte × ℚ)) (msg : List Byte) (score : ℚ) :
    handleMessages s (xs ++ [(msg, score)]) =
      (handleMessages s xs).bind fun out => handleMessage score out msg := by
  simp only [handleMessages, List.foldlM_append, List.foldlM_cons, List.foldlM_nil, bind_pure]
  rfl

/-! ## A handler on its way -/

/-- The handler has not asked for a score yet. Source: none: infrastructure. Kind: D -/
def Unscored (pc : Pc) : Prop := Pc.face.rank ≤ pc.rank

/-- The handler started from memory `m₀` is where a handler that moves alone comes by.
Source: `receive_interface.c` `receive_thread_handler`
Kind: D -/
structure Follows (tid : ℕ) (m₀ : Memory) (x : Memory × HandlerThread) : Prop where
  unscored : Unscored x.2.pc → ∀ score,
    Repeats (HandlerThread.alone mainControls tid) score (m₀, HandlerThread.init) x
  scored : Repeats (HandlerThread.alone mainControls tid) x.2.faceResult (m₀, HandlerThread.init) x

variable {controlPhead : List Control} {score : ℚ} {tid : ℕ} {m m₀ : Memory} {h : HandlerThread}
  {pdevhead : List Gdevice}

theorem follows_init (tid : ℕ) (m₀ : Memory) : Follows tid m₀ (m₀, HandlerThread.init) :=
  ⟨fun _ _ => Repeats.refl .., Repeats.refl ..⟩

/-- Only the face check changes the score of a handler. -/
theorem step_faceResult (hpc : h.pc ≠ .face) :
    (h.step controlPhead score tid m).2.faceResult = h.faceResult := by
  have hthrough : ∀ k : ℕ → Gdevice → Memory × HandlerThread,
      (∀ d pdev, (k d pdev).2.faceResult = h.faceResult) →
        (h.through m k).2.faceResult = h.faceResult := fun k hk =>
    HandlerThread.through_induction (P := fun x => x.2.faceResult = h.faceResult) rfl
      fun d pdev _ _ => hk d pdev
  unfold HandlerThread.step
  cases hp : h.pc with
  | face => exact absurd hp hpc
  | idTest | lookup | level | reply | fireCode | fireStatus | exited => rfl
  | store | gate | pinMode | oled | relockTest | relockStore => exact hthrough _ fun _ _ => rfl
  | digitalWrite site =>
      apply hthrough
      intro d pdev
      cases site <;> rfl
  | voiceTest =>
      apply hthrough
      intro d pdev
      split_ifs
      · cases voiceSearch controlPhead <;> rfl
      · rfl
  | startSet pcontrol =>
      simp only
      split_ifs <;> rfl

/-- No step leads back before the face check, and the face check leads behind it. -/
theorem Unscored.of_step (hun : Unscored (h.step controlPhead score tid m).2.pc) :
    Unscored h.pc ∧ (h.pc = .face → h.fault m.pdevhead ≠ none) := by
  cases hf : h.fault m.pdevhead with
  | some e =>
      rw [step_of_fault hf] at hun
      exact ⟨hun, fun _ h => by simp at h⟩
  | none =>
      by_cases hexit : h.pc = .exited
      · have hstay : (h.step controlPhead score tid m).2 = h := by simp [HandlerThread.step, hexit]
        rw [hstay] at hun
        exact ⟨hun, fun hface => absurd (hexit.symm.trans hface) (by simp)⟩
      · have hrank := (step_of_no_fault controlPhead score tid hf).rank hexit
        refine ⟨hun.trans hrank.le, fun hface => ?_⟩
        rw [hface] at hrank
        exact absurd hun (Nat.not_le.mpr hrank)

/-- **A handler's own step stays on the way**: the score it is given at the face check is the one it
goes on with.
Source: `receive_interface.c` `receive_thread_handler`
Kind: L -/
theorem Follows.step (hf : Follows tid m₀ (m, h)) (score : ℚ) :
    Follows tid m₀ (h.step mainControls score tid m) := by
  by_cases hpc : h.pc = .face
  · have hscore : (h.step mainControls score tid m).2.faceResult = score := by
      simp [HandlerThread.step, hpc]
    refine ⟨fun hun => ?_, ?_⟩
    · exact absurd (by simp [HandlerThread.fault, hpc]) (hun.of_step.2 hpc)
    · rw [hscore]
      exact (hf.unscored (by simp [Unscored, hpc]) score).trans (Repeats.single rfl)
  · refine ⟨fun hun score' => ?_, ?_⟩
    · rw [step_congr_score hpc score']
      rw [step_congr_score hpc score'] at hun
      exact (hf.unscored hun.of_step.1 score').trans (Repeats.single rfl)
    · rw [step_faceResult hpc, step_congr_score hpc h.faceResult]
      exact hf.scored.trans (Repeats.single rfl)

/-- **At the end of the way** is what a run to completion says.
Source: `receive_interface.c` `receive_thread_handler`
Kind: L -/
theorem Follows.endsAs (hf : Follows tid m₀ (m, h)) (hm : m₀.crashed = none)
    (hend : m.crashed.isSome = true ∨ h.pc = .exited) :
    EndsAs m₀ tid (m, h)
      (receiveThreadHandler mainControls h.faceResult m₀.pdevhead m₀.buffer) := by
  have hexited : ∀ x : Memory × HandlerThread, x.2.pc = .exited →
      HandlerThread.alone mainControls tid x h.faceResult = x := by
    intro x hx
    simp [HandlerThread.alone, HandlerThread.step, hx]
  obtain ⟨x, hx, hends⟩ := step_alone mainControls h.faceResult tid m₀
  have hfixed : HandlerThread.alone mainControls tid (m, h) h.faceResult = (m, h) := by
    rcases hend with hcrash | hexit
    · exact (alone_stuck hm hf.scored hcrash).2 _
    · exact hexited _ hexit
  have hfixed' : HandlerThread.alone mainControls tid x h.faceResult = x := by
    cases hr : receiveThreadHandler mainControls h.faceResult m₀.pdevhead m₀.buffer with
    | ok out =>
        rw [hr] at hends
        exact hexited x hends.2
    | error e =>
        rw [hr] at hends
        have hcrash : x.1.crashed = some e := hends
        exact (alone_stuck hm hx (by simp [hcrash])).2 _
  rw [hf.scored.eq_of_fixed hx hfixed hfixed']
  exact hends

/-! ## The whole hub -/

/-- Where the sequential model starts. Source: `receive_interface.c` `receive_get`. Kind: D -/
def atStart (pdevhead : List Gdevice) : Outcome := ⟨pdevhead, clearedBuffer, []⟩

/-- These messages have been handled by these handlers, with this outcome.
Source: none: infrastructure. Kind: D -/
structure Done (pdevhead : List Gdevice) (msgs : List (List Byte)) (hs : List HandlerThread)
    (out : Outcome) : Prop where
  length : msgs.length = hs.length
  exited : ∀ h ∈ hs, h.pc = .exited
  handled : handleMessages (atStart pdevhead) (msgs.zip (hs.map HandlerThread.faceResult)) = .ok out

/-- The memory shows an outcome of the sequential model.
Source: none: infrastructure. Kind: D -/
structure Shows (m : Memory) (out : Outcome) : Prop where
  pdevhead : m.pdevhead = out.pdevhead
  buffer : m.buffer = out.buffer
  events : m.events.map Prod.snd = out.events
  alive : m.crashed = none

/-- The invariant of a hub whose handlers do not overlap, one case for each stage of a message: none
in hand, found marked, copied, or its handler at work.
Source: `receive_interface.c` `receive_get`, `receive_thread_handler`
Kind: D -/
inductive Replays (pdevhead : List Gdevice) (s : System) : Prop where
  | idle (out : Outcome) (hrecv : s.recv.pc = .receiving)
      (hdone : Done pdevhead s.dequeued s.handlers out) (hshows : Shows s.mem out)
  | marked (earlier : List (List Byte)) (msg buf : List Byte) (out : Outcome)
      (hdequeued : s.dequeued = earlier ++ [msg])
      (hrecv : s.recv = ⟨.marked, msg.length, overlay msg buf⟩)
      (hdone : Done pdevhead earlier s.handlers out) (hshows : Shows s.mem out)
  | copied (earlier : List (List Byte)) (msg : List Byte) (out : Outcome)
      (hdequeued : s.dequeued = earlier ++ [msg]) (hrecv : s.recv.pc = .copied)
      (hdone : Done pdevhead earlier s.handlers out)
      (hshows : Shows s.mem { out with buffer := overlay msg out.buffer })
  | running (earlier : List (List Byte)) (msg : List Byte) (out : Outcome) (hs : List HandlerThread)
      (h : HandlerThread) (m₀ : Memory) (hdequeued : s.dequeued = earlier ++ [msg])
      (hhandlers : s.handlers = hs ++ [h]) (hrecv : s.recv.pc = .receiving)
      (hdone : Done pdevhead earlier hs out)
      (hshows : Shows m₀ { out with buffer := overlay msg out.buffer })
      (hfollows : Follows hs.length m₀ (s.mem, h))

theorem replays_init (pdevhead : List Gdevice) : Replays pdevhead (System.init pdevhead) :=
  .idle (atStart pdevhead) rfl ⟨rfl, fun _ hh => absurd hh List.not_mem_nil, rfl⟩ ⟨rfl, rfl, rfl, rfl⟩

variable {s : System} {earlier : List (List Byte)} {msg : List Byte} {out : Outcome}
  {hs : List HandlerThread}

theorem Done.concat (hd : Done pdevhead earlier hs out) (hexit : h.pc = .exited) {out' : Outcome}
    (hout : handleMessage h.faceResult out msg = .ok out') :
    Done pdevhead (earlier ++ [msg]) (hs ++ [h]) out' := by
  refine ⟨by simp [hd.length], fun h' hh' => ?_, ?_⟩
  · rcases List.mem_append.mp hh' with hold | hnew
    · exact hd.exited h' hold
    · rw [List.mem_singleton.mp hnew]
      exact hexit
  · rw [List.map_append, List.zip_append (by simp [hd.length]), List.map_cons, List.map_nil,
      List.zip_cons_cons, List.zip_nil_left, handleMessages_concat, hd.handled]
    exact hout

/-- The handler at work, compared with the sequential model on its message. -/
theorem handleMessage_of_endsAs (out : Outcome) (msg : List Byte)
    (hshows : Shows m₀ { out with buffer := overlay msg out.buffer })
    (hends : EndsAs m₀ tid (m, h)
      (receiveThreadHandler mainControls score m₀.pdevhead m₀.buffer)) :
    (∃ out', handleMessage score out msg = .ok out' ∧ Shows m out' ∧ h.pc = .exited) ∨
      ∃ e, handleMessage score out msg = .error e ∧ m.crashed = some e := by
  rw [hshows.pdevhead, hshows.buffer] at hends
  unfold handleMessage
  cases hr : receiveThreadHandler mainControls score out.pdevhead (overlay msg out.buffer) with
  | ok o =>
      rw [hr] at hends
      obtain ⟨hm, hexit⟩ := hends
      simp only at hm hexit
      refine Or.inl ⟨_, rfl, ?_, hexit⟩
      rw [hm]
      refine ⟨rfl, rfl, ?_, hshows.alive⟩
      simp only [Memory.after, List.map_append, List.map_map, hshows.events]
      exact congrArg (out.events ++ ·) (List.map_id o.events)
  | error e =>
      rw [hr] at hends
      exact Or.inr ⟨e, rfl, hends⟩

/-- Once every handler has exited, no message is in hand. -/
theorem Replays.idle_of_exited (hr : Replays pdevhead s) (hrecv : s.recv.pc = .receiving)
    (hexited : ∀ h ∈ s.handlers, h.pc = .exited) :
    ∃ out, Done pdevhead s.dequeued s.handlers out ∧ Shows s.mem out := by
  cases hr with
  | idle out _ hdone hshows => exact ⟨out, hdone, hshows⟩
  | marked earlier msg buf out _ hmarked => simp [hmarked] at hrecv
  | copied earlier msg out _ hcopied => simp [hcopied] at hrecv
  | running earlier msg out hs h m₀ hdequeued hhandlers _ hdone hshows hfollows =>
      have hexit : h.pc = .exited := hexited h (by simp [hhandlers])
      rcases handleMessage_of_endsAs out msg hshows (hfollows.endsAs hshows.alive (Or.inr hexit)) with
        ⟨out', hout, hshows', -⟩ | ⟨e, -, hcrash⟩
      · rw [hdequeued, hhandlers]
        exact ⟨out', hdone.concat hexit hout, hshows'⟩
      · have hstuck := alone_stuck hshows.alive hfollows.scored (by simp [hcrash])
        exact absurd hexit hstuck.1

/-- A message is received when every handler has exited. -/
theorem replays_mqReceive (hr : Replays pdevhead s) (hpc : s.recv.pc = .receiving)
    (hexited : ∀ h ∈ s.handlers, h.pc = .exited) (result : Option (List Byte)) :
    Replays pdevhead { s with
      recv := Queue.mqReceive result s.recv
      dequeued := s.dequeued ++
        if (Queue.mqReceive result s.recv).pc = .marked then result.toList else [] } := by
  obtain ⟨out, hdone, hshows⟩ := hr.idle_of_exited hpc hexited
  cases result with
  | none =>
      have hstay : (Queue.mqReceive none s.recv).pc = .receiving := hpc
      simp only [hstay, reduceCtorEq, if_false, List.append_nil]
      exact .idle out hstay hdone hshows
  | some msg =>
      by_cases hmark : frameMarked (overlay msg s.recv.buffer) = true
      · have hmarked : Queue.mqReceive (some msg) s.recv =
            ⟨.marked, msg.length, overlay msg s.recv.buffer⟩ := by
          simp only [Queue.mqReceive, hmark, if_true]
        simp only [hmarked, if_true, Option.toList_some]
        exact .marked s.dequeued msg s.recv.buffer out rfl rfl hdone hshows
      · have hstay : (Queue.mqReceive (some msg) s.recv).pc = .receiving := by
          simp [Queue.mqReceive, hmark]
        simp only [hstay, reduceCtorEq, if_false, List.append_nil]
        exact .idle out hstay hdone hshows

theorem replays_memcpy (hr : Replays pdevhead s) (hpc : s.recv.pc = .marked) :
    Replays pdevhead { s with
      mem := { s.mem with buffer := memcpyFrame s.recv s.mem.buffer }
      recv := { s.recv with pc := .copied } } := by
  cases hr with
  | idle out hrecv => simp [hrecv] at hpc
  | copied earlier msg out _ hrecv => simp [hrecv] at hpc
  | running earlier msg out hs h m₀ _ _ hrecv => simp [hrecv] at hpc
  | marked earlier msg buf out hdequeued hrecv hdone hshows =>
      refine .copied earlier msg out hdequeued rfl hdone
        ⟨hshows.pdevhead, ?_, hshows.events, hshows.alive⟩
      simp only [hrecv, memcpyFrame, Int.toNat_natCast, take_overlay buf le_rfl, List.take_length,
        hshows.buffer]

theorem replays_pthreadCreate (hr : Replays pdevhead s) (hpc : s.recv.pc = .copied) :
    Replays pdevhead { s with
      recv := { s.recv with pc := .receiving }
      handlers := s.handlers ++ [HandlerThread.init] } := by
  cases hr with
  | idle out hrecv => simp [hrecv] at hpc
  | marked earlier msg buf out _ hrecv => simp [hrecv] at hpc
  | running earlier msg out hs h m₀ _ _ hrecv => simp [hrecv] at hpc
  | copied earlier msg out hdequeued hrecv hdone hshows =>
      exact .running earlier msg out s.handlers HandlerThread.init s.mem hdequeued rfl rfl hdone hshows
        (follows_init _ _)

/-- A handler that has exited changes nothing. -/
theorem handler_exited (controlPhead : List Control) (score : ℚ) (hh : s.handlers[tid]? = some h)
    (hexit : h.pc = .exited) :
    { s with
      mem := (h.step controlPhead score tid s.mem).1
      handlers := s.handlers.set tid (h.step controlPhead score tid s.mem).2 } = s := by
  have hstep : h.step controlPhead score tid s.mem = (s.mem, h) := by
    simp [HandlerThread.step, hexit]
  have hset : s.handlers.set tid h = s.handlers := by
    obtain ⟨hlt, heq⟩ := List.getElem?_eq_some_iff.mp hh
    rw [← heq, List.set_getElem_self]
  rw [hstep, hset]

/-- A step of a handler: of the one at work, or of one that has exited. -/
theorem replays_handler (hr : Replays pdevhead s) (hh : s.handlers[tid]? = some h) :
    Replays pdevhead { s with
      mem := (h.step mainControls score tid s.mem).1
      handlers := s.handlers.set tid (h.step mainControls score tid s.mem).2 } := by
  have hstay := handler_exited mainControls score hh
  have hmem := List.mem_of_getElem? hh
  cases hr with
  | idle out hrecv hdone hshows =>
      rw [hstay (hdone.exited h hmem)]
      exact .idle out hrecv hdone hshows
  | marked earlier msg buf out hdequeued hrecv hdone hshows =>
      rw [hstay (hdone.exited h hmem)]
      exact .marked earlier msg buf out hdequeued hrecv hdone hshows
  | copied earlier msg out hdequeued hrecv hdone hshows =>
      rw [hstay (hdone.exited h hmem)]
      exact .copied earlier msg out hdequeued hrecv hdone hshows
  | running earlier msg out hs h' m₀ hdequeued hhandlers hrecv hdone hshows hfollows =>
      rcases Nat.lt_or_ge tid hs.length with hlt | hge
      · have hold : h ∈ hs := by
          rw [hhandlers, List.getElem?_append_left hlt] at hh
          exact List.mem_of_getElem? hh
        rw [hstay (hdone.exited h hold)]
        exact .running earlier msg out hs h' m₀ hdequeued hhandlers hrecv hdone hshows hfollows
      · have hlast : tid = hs.length := by
          have := (List.getElem?_eq_some_iff.mp hh).1
          simp only [hhandlers, List.length_append, List.length_singleton] at this
          omega
        subst hlast
        obtain rfl : h' = h := by simpa [hhandlers] using hh
        refine .running earlier msg out hs (h'.step mainControls score hs.length s.mem).2 m₀ hdequeued ?_
          hrecv hdone hshows (hfollows.step score)
        simp [hhandlers]

theorem replays_step (s : System) (a : Act) (hseq : Sequential s a) (hr : Replays pdevhead s) :
    Replays pdevhead (s.step mainControls a) := by
  apply System.step_induction a hr
  · rintro result rfl hpc
    exact replays_mqReceive hr hpc hseq result
  · exact fun _ hpc => replays_memcpy hr hpc
  · exact fun hpc => replays_pthreadCreate hr hpc
  · exact fun tid score h _ hh => replays_handler hr hh
  · cases hr with
    | idle out hrecv hdone hshows => exact .idle out hrecv hdone hshows
    | marked earlier msg buf out hdequeued hrecv hdone hshows =>
        exact .marked earlier msg buf out hdequeued hrecv hdone hshows
    | copied earlier msg out hdequeued hrecv hdone hshows =>
        exact .copied earlier msg out hdequeued hrecv hdone hshows
    | running earlier msg out hs h m₀ hdequeued hhandlers hrecv hdone hshows hfollows =>
        exact .running earlier msg out hs h m₀ hdequeued hhandlers hrecv hdone hshows hfollows

/-! ## Comparison -/

/-- At rest, the sequential model has the same outcome.
Source: `receive_interface.c` `receive_get`, `receive_thread_handler`
Kind: L -/
theorem Replays.outcome (hr : Replays pdevhead s) (hrest : s.AtRest) :
    s.history.map Prod.fst = s.dequeued ∧
      s.outcome = handleMessages (atStart pdevhead) s.history := by
  rcases hrest with hcrash | ⟨hrecv, hexited⟩
  · cases hr with
    | idle out _ _ hshows => simp [hshows.alive] at hcrash
    | marked earlier msg buf out _ _ _ hshows => simp [hshows.alive] at hcrash
    | copied earlier msg out _ _ _ hshows => simp [hshows.alive] at hcrash
    | running earlier msg out hs h m₀ hdequeued hhandlers _ hdone hshows hfollows =>
        rcases handleMessage_of_endsAs out msg hshows (hfollows.endsAs hshows.alive (Or.inl hcrash)) with
          ⟨out', -, hshows', -⟩ | ⟨e, herror, hdied⟩
        · simp [hshows'.alive] at hcrash
        · have hhistory : s.history =
              earlier.zip (hs.map HandlerThread.faceResult) ++ [(msg, h.faceResult)] := by
            rw [System.history, hdequeued, hhandlers, List.map_append,
              List.zip_append (by simp [hdone.length])]
            rfl
          refine ⟨?_, ?_⟩
          · rw [System.history, hdequeued, hhandlers,
              List.map_fst_zip (by simp [hdone.length])]
          · rw [hhistory, handleMessages_concat, hdone.handled, System.outcome, hdied]
            exact herror.symm
  · obtain ⟨out, hdone, hshows⟩ := hr.idle_of_exited hrecv hexited
    refine ⟨List.map_fst_zip (by simp [hdone.length]), ?_⟩
    rw [System.history, hdone.handled, System.outcome, hshows.alive]
    simp only [hshows.pdevhead, hshows.buffer, hshows.events]

/-- **Handlers that do not overlap do what the sequential model says**: in a run in which the next
message is dequeued only when every handler has exited, whenever the hub is at rest each message
dequeued has had its handler, and the table, the frame buffer and the actions are those of handling
the messages one at a time with the scores obtained, or both have died of the same `NULL`.
Source: `receive_interface.c` `receive_get`, `receive_thread_handler`
Kind: P -/
theorem outcome_of_sequential (pdevhead : List Gdevice) (acts : List Act)
    (hseq : Meets (System.step mainControls) Sequential (System.init pdevhead) acts)
    (hrest : (System.after mainControls pdevhead acts).AtRest) :
    (System.after mainControls pdevhead acts).history.map Prod.fst =
        (System.after mainControls pdevhead acts).dequeued ∧
      (System.after mainControls pdevhead acts).outcome =
        handleMessages (atStart pdevhead) (System.after mainControls pdevhead acts).history := by
  have hr : Replays pdevhead (System.after mainControls pdevhead acts) :=
    hseq.invariant replays_step (replays_init pdevhead)
  exact hr.outcome hrest

instance (s : System) : Decidable s.AtRest := inferInstanceAs (Decidable (_ ∨ _))

/-- Two commands on the shipped configuration, whose announcements come late.
Source: `receive_interface.c` `receive_get`, `ini/gdevice.ini`
Kind: L -/
theorem outcome_announcedLate :
    (System.after mainControls (gdeviceTable shippedCalls) announcedLate).history =
        [(frame 0x45 1, 0), (frame 0x44 0, 9 / 10)] ∧
      (System.after mainControls (gdeviceTable shippedCalls) announcedLate).history.map Prod.fst =
        (System.after mainControls (gdeviceTable shippedCalls) announcedLate).dequeued ∧
      (System.after mainControls (gdeviceTable shippedCalls) announcedLate).outcome =
        handleMessages (atStart (gdeviceTable shippedCalls))
          (System.after mainControls (gdeviceTable shippedCalls) announcedLate).history :=
  ⟨by decide +kernel, outcome_of_sequential (gdeviceTable shippedCalls) announcedLate
    (by decide +kernel) (by decide +kernel)⟩

/-! ## Every sequence of commands is such a run -/

/-- Handler `tid` moves `n` times, and so it does alone.
Source: `receive_interface.c` `receive_thread_handler`
Kind: L -/
theorem run_handler (controlPhead : List Control) (hh : s.handlers[tid]? = some h)
    (hm : s.mem.crashed = none) (score : ℚ) (n : ℕ) :
    run (System.step controlPhead) s (List.replicate n (.handler tid score)) =
      { s with
        mem := (run (HandlerThread.alone controlPhead tid) (s.mem, h) (List.replicate n score)).1
        handlers := s.handlers.set tid
          (run (HandlerThread.alone controlPhead tid) (s.mem, h) (List.replicate n score)).2 } := by
  induction n with
  | zero =>
      obtain ⟨hlt, heq⟩ := List.getElem?_eq_some_iff.mp hh
      simp [← heq]
  | succ n ih =>
      rw [List.replicate_succ', List.replicate_succ', run_append, run_append, ih, run_cons, run_nil,
        run_cons, run_nil]
      generalize hx : run (HandlerThread.alone controlPhead tid) (s.mem, h) (List.replicate n score) = x
      by_cases hcrash : x.1.crashed.isSome = true
      · -- the process is dead, and the handler would crash again
        rw [(alone_stuck hm ⟨n, hx⟩ hcrash).2 score]
        simp [System.step, hcrash]
      · have hlt := (List.getElem?_eq_some_iff.mp hh).1
        simp [System.step, hcrash, hlt, HandlerThread.alone]

/-- The hub with the message dequeued and its handler started.
Source: `receive_interface.c` `receive_get`
Kind: D -/
def System.started (s : System) (msg : List Byte) : System :=
  { s with
    mem := { s.mem with buffer := overlay msg s.mem.buffer }
    recv := ⟨.receiving, msg.length, overlay msg s.recv.buffer⟩
    handlers := s.handlers ++ [HandlerThread.init]
    dequeued := s.dequeued ++ [msg] }

/-- A whole message is dequeued and its handler started.
Source: `receive_interface.c` `receive_get`
Kind: L -/
theorem run_receive (controlPhead : List Control) (hm : s.mem.crashed = none)
    (hpc : s.recv.pc = .receiving)
    (hlen : 6 ≤ msg.length) (hmark : frameMarked msg = true) :
    run (System.step controlPhead) s [.mqReceive (some msg), .memcpy, .pthreadCreate] =
      s.started msg := by
  have hmarked : frameMarked (overlay msg s.recv.buffer) = true := by
    rw [frameMarked_overlay_of_six_le _ hlen]
    exact hmark
  simp [System.step, hm, hpc, Queue.mqReceive, hmarked, memcpyFrame, take_overlay _ le_rfl,
    System.started]

/-- A whole message is received, and its handler moves alone to its end.
Source: `receive_interface.c` `receive_get`, `receive_thread_handler`
Kind: L -/
theorem exists_run_message (controlPhead : List Control) (hm : s.mem.crashed = none)
    (hpc : s.recv.pc = .receiving)
    (hlen : 6 ≤ msg.length) (hmark : frameMarked msg = true) (score : ℚ) :
    ∃ (n : ℕ) (x : Memory × HandlerThread),
      EndsAs (s.started msg).mem s.handlers.length x (receiveThreadHandler controlPhead score
        (s.started msg).mem.pdevhead (s.started msg).mem.buffer) ∧
      run (System.step controlPhead) s ([.mqReceive (some msg), .memcpy, .pthreadCreate] ++
          List.replicate n (.handler s.handlers.length score)) =
        { s.started msg with mem := x.1, handlers := s.handlers ++ [x.2] } := by
  obtain ⟨x, ⟨n, hx⟩, hends⟩ := step_alone controlPhead score s.handlers.length (s.started msg).mem
  refine ⟨n, x, hends, ?_⟩
  have hinit : (s.started msg).handlers[s.handlers.length]? = some HandlerThread.init := by
    simp [System.started]
  have hset : (s.started msg).handlers.set s.handlers.length x.2 = s.handlers ++ [x.2] := by
    simp [System.started]
  rw [run_append, run_receive controlPhead hm hpc hlen hmark, run_handler controlPhead hinit hm, hx,
    hset]

/-- Only `mq_receive` waits for the handlers. -/
theorem sequential_of_not_mqReceive {acts : List Act} (h : ∀ a ∈ acts, ∀ result, a ≠ .mqReceive result) :
    Meets (System.step controlPhead) Sequential s acts := by
  have hlabels : Meets (System.step controlPhead) (fun _ a => ∀ result, a ≠ .mqReceive result) s acts :=
    Meets.of_forall_mem h
  refine hlabels.imp fun s a ha => ?_
  cases a with
  | mqReceive result => exact absurd rfl (ha result)
  | memcpy | pthreadCreate | handler | voiceSet => trivial

/-- **One more command**: from rest, a whole message is dequeued and handled to its end.
Source: `receive_interface.c` `receive_get`, `receive_thread_handler`
Kind: L -/
theorem exists_run_command (hm : s.mem.crashed = none) (hpc : s.recv.pc = .receiving)
    (hexited : ∀ h ∈ s.handlers, h.pc = .exited) (hlen : 6 ≤ msg.length)
    (hmark : frameMarked msg = true) (score : ℚ) :
    ∃ more, Meets (System.step mainControls) Sequential s more ∧
      (∀ tid' score', .handler tid' score' ∈ more → tid' = s.handlers.length ∧ score' = score) ∧
      (run (System.step mainControls) s more).dequeued = s.dequeued ++ [msg] ∧
      (run (System.step mainControls) s more).AtRest ∧
      (run (System.step mainControls) s more).outcome =
        s.outcome.bind fun out => handleMessage score out msg := by
  obtain ⟨n, x, hends, hrun⟩ := exists_run_message mainControls hm hpc hlen hmark score
  refine ⟨[.mqReceive (some msg), .memcpy, .pthreadCreate] ++
      List.replicate n (.handler s.handlers.length score),
    ?_, fun tid' score' hmem => ?_, by rw [hrun]; rfl, ?_⟩
  · refine ⟨hexited, sequential_of_not_mqReceive fun a ha result => ?_⟩
    rintro rfl
    simp at ha
  · have hlast : n ≠ 0 ∧ tid' = s.handlers.length ∧ score' = score := by simpa using hmem
    exact hlast.2
  · rw [hrun]
    have hout : s.outcome = .ok ⟨s.mem.pdevhead, s.mem.buffer, s.mem.events.map Prod.snd⟩ := by
      simp only [System.outcome, hm]
    have hstart : Shows (s.started msg).mem
        ⟨s.mem.pdevhead, overlay msg s.mem.buffer, s.mem.events.map Prod.snd⟩ := ⟨rfl, rfl, rfl, hm⟩
    rw [hout]
    rcases handleMessage_of_endsAs ⟨s.mem.pdevhead, s.mem.buffer, s.mem.events.map Prod.snd⟩ msg hstart
      hends with ⟨out', hout', hshows, hexit⟩ | ⟨e, herror, hdied⟩
    · refine ⟨Or.inr ⟨rfl, fun h hh => ?_⟩, ?_⟩
      · rcases List.mem_append.mp hh with hold | hnew
        · exact hexited h hold
        · rw [List.mem_singleton.mp hnew]
          exact hexit
      · simp only [System.outcome, hshows.alive, hshows.pdevhead, hshows.buffer, hshows.events]
        exact hout'.symm
    · refine ⟨Or.inl (by simp [hdied]), ?_⟩
      simp only [System.outcome, hdied]
      exact herror.symm

/-- **The run takes these commands**: it dequeues their messages in order, all of them unless the
process dies, and gives handler number `i` the `i`-th score.
Source: none: what a schedule is asked for. Kind: D -/
structure TakesCommands (pdevhead : List Gdevice) (xs : List (List Byte × ℚ)) (acts : List Act) :
    Prop where
  dequeued : (System.after mainControls pdevhead acts).dequeued <+: xs.map Prod.fst
  alive : (System.after mainControls pdevhead acts).mem.crashed = none →
    (System.after mainControls pdevhead acts).dequeued = xs.map Prod.fst
  scores : ∀ tid score, .handler tid score ∈ acts → ∃ msg, xs[tid]? = some (msg, score)

/-- The scores given stay those of the commands when there are more of them. -/
theorem TakesCommands.scores_append {xs : List (List Byte × ℚ)} {acts : List Act}
    (ht : TakesCommands pdevhead xs acts) (more : List (List Byte × ℚ)) {tid : ℕ} {score : ℚ}
    (hmem : .handler tid score ∈ acts) : ∃ msg, (xs ++ more)[tid]? = some (msg, score) := by
  obtain ⟨msg, hx⟩ := ht.scores tid score hmem
  exact ⟨msg, by rw [List.getElem?_append_left (List.getElem?_eq_some_iff.mp hx).1, hx]⟩

/-- One more command, of which a dead process takes nothing. -/
theorem TakesCommands.dead {xs : List (List Byte × ℚ)} {acts : List Act}
    (ht : TakesCommands pdevhead xs acts)
    (hcrash : (System.after mainControls pdevhead acts).mem.crashed ≠ none) (x : List Byte × ℚ) :
    TakesCommands pdevhead (xs ++ [x]) acts := by
  refine ⟨?_, fun halive => absurd halive hcrash, fun tid score => ht.scores_append [x]⟩
  rw [List.map_append]
  exact ht.dequeued.trans (List.prefix_append _ _)

/-- One more command, dequeued and handled by a handler that is given its score only. -/
theorem TakesCommands.concat {xs : List (List Byte × ℚ)} {acts more : List Act}
    (ht : TakesCommands pdevhead xs acts)
    (halive : (System.after mainControls pdevhead acts).mem.crashed = none)
    (hdequeued : (System.after mainControls pdevhead (acts ++ more)).dequeued =
      (System.after mainControls pdevhead acts).dequeued ++ [msg])
    (hscores : ∀ tid' score', .handler tid' score' ∈ more → tid' = xs.length ∧ score' = score) :
    TakesCommands pdevhead (xs ++ [(msg, score)]) (acts ++ more) := by
  have hall : (System.after mainControls pdevhead (acts ++ more)).dequeued =
      (xs ++ [(msg, score)]).map Prod.fst := by
    rw [hdequeued, ht.alive halive, List.map_append]
    rfl
  refine ⟨hall ▸ List.prefix_rfl, fun _ => hall, fun tid' score' hmem => ?_⟩
  rcases List.mem_append.mp hmem with hold | hnew
  · exact ht.scores_append _ hold
  · obtain ⟨rfl, rfl⟩ := hscores tid' score' hnew
    exact ⟨msg, List.getElem?_concat_length⟩

/-- **Every sequence of commands is a run**: for all whole frames and all scores there is a run on
them whose handlers do not overlap and which comes to rest with the outcome of the sequential model.
Source: `receive_interface.c` `receive_get`, `receive_thread_handler`
Kind: P -/
theorem exists_sequential (pdevhead : List Gdevice) (xs : List (List Byte × ℚ))
    (hxs : ∀ x ∈ xs, 6 ≤ x.1.length ∧ frameMarked x.1 = true) :
    ∃ acts, Meets (System.step mainControls) Sequential (System.init pdevhead) acts ∧
      TakesCommands pdevhead xs acts ∧
      (System.after mainControls pdevhead acts).AtRest ∧
      (System.after mainControls pdevhead acts).outcome = handleMessages (atStart pdevhead) xs := by
  induction xs using List.reverseRecOn with
  | nil =>
      exact ⟨[], trivial, ⟨List.prefix_rfl, fun _ => rfl, fun _ _ hmem => absurd hmem List.not_mem_nil⟩,
        Or.inr ⟨rfl, fun _ hh => absurd hh List.not_mem_nil⟩, rfl⟩
  | append_singleton xs x ih =>
      obtain ⟨msg, score⟩ := x
      obtain ⟨acts, hseq, htakes, hrest, hout⟩ := ih fun x hx => hxs x (List.mem_append_left _ hx)
      obtain ⟨hlen, hmark⟩ := hxs (msg, score) (by simp)
      have hreplays := hseq.invariant replays_step (replays_init pdevhead)
      rw [handleMessages_concat, ← hout]
      change Replays pdevhead (System.after mainControls pdevhead acts) at hreplays
      generalize hs : System.after mainControls pdevhead acts = s at hrest hreplays
      cases hcrash : s.mem.crashed with
      | some e =>
          -- the hub is dead already, and so is the sequential model
          refine ⟨acts, hseq, htakes.dead (by simp [hs, hcrash]) _, ?_, ?_⟩
          · rw [hs]
            exact Or.inl (by simp [hcrash])
          · simp [hs, System.outcome, hcrash, Except.bind]
      | none =>
          obtain ⟨hpc, hexited⟩ := hrest.resolve_left (by simp [hcrash])
          obtain ⟨more, hmore, hscores, hdequeued, hrest', hout'⟩ :=
            exists_run_command hcrash hpc hexited hlen hmark score
          have hafter : System.after mainControls pdevhead (acts ++ more) =
              run (System.step mainControls) s more :=
            (run_append ..).trans (congrArg (run _ · _) hs)
          -- the new handler's number is the command's
          have hcount : s.handlers.length = xs.length := by
            obtain ⟨_, hdone, -⟩ := hreplays.idle_of_exited hpc hexited
            have hall := htakes.alive (by rw [hs, hcrash])
            rw [← hdone.length, ← hs, hall, List.length_map]
          refine ⟨acts ++ more, hseq.append ?_, htakes.concat (by rw [hs, hcrash]) ?_ ?_, ?_, ?_⟩
          · change Meets _ _ (System.after mainControls pdevhead acts) _
            rw [hs]
            exact hmore
          · rw [hafter, hs, hdequeued]
          · intro tid' score' hmem
            exact hcount ▸ hscores tid' score' hmem
          · rw [hafter]
            exact hrest'
          · rw [hafter]
            exact hout'

/-- On the shipped configuration: the lock is opened, the beeper set off, and a code without a record
comes last.
Source: `receive_interface.c` `receive_thread_handler`, `ini/gdevice.ini`
Kind: L -/
theorem exists_sequential_three :
    ∃ acts, Meets (System.step mainControls) Sequential
        (System.init (gdeviceTable shippedCalls)) acts ∧
      TakesCommands (gdeviceTable shippedCalls)
        [(frame 0x44 0, 9 / 10), (frame 0x45 0, 0), (frame 0x50 0, 0)] acts ∧
      (System.after mainControls (gdeviceTable shippedCalls) acts).AtRest ∧
      (System.after mainControls (gdeviceTable shippedCalls) acts).outcome =
        handleMessages (atStart (gdeviceTable shippedCalls))
          [(frame 0x44 0, 9 / 10), (frame 0x45 0, 0), (frame 0x50 0, 0)] :=
  exists_sequential (gdeviceTable shippedCalls)
    [(frame 0x44 0, 9 / 10), (frame 0x45 0, 0), (frame 0x50 0, 0)] (by decide)

end SmartHome.Concurrent
