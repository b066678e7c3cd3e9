import SmartHome.Concurrent.Hub
import SmartHome.Concurrent.Progress

/-!
# The hub comes to rest

While nothing new is read and no queue operation fails, the hub can neither go on for ever nor get
stuck on the way: in every interleaving at most `Hub.work` steps have an effect, and where none has
one, the process is dead or everything is done (`hub_settles`). The senders wait for room in the
queue, the receiver for a message and nobody for a handler, so there is no circle of waiting.

The measure prices each stage of a message above all that can still come of it: a message that waits
to be sent above one in the queue, that above one in hand, that above its handler, and a step of a
handler above the announcement it may start.
-/

set_option autoImplicit false

namespace SmartHome.Concurrent

open SmartHome.Device SmartHome.Controls SmartHome.Found SmartHome.Handler SmartHome.Queue
  SmartHome.Producers

/-! ## What is left to do -/

/-- A step that reads no device, and in which no queue operation fails.
Source: none: the condition on the schedule. Kind: D -/
def internal : HubAct → Bool
  | .producer (.input _ _) => false
  | .producer (.send _ ok) => ok
  | .receiveFails => false
  | .receiveGet | .handler _ _ | .voiceSet => true

/-- The producers that are in `mq_send`. Source: `msg_queue.c` `send_message`. Kind: D -/
def Hub.blocked (hub : Hub) : ℕ :=
  [Producer.smokeGet, .socketControlGet, .voiceGet].countP fun i => (hub.net.sending i).isSome

/-- What can still come of the message in hand.
Source: `receive_interface.c` `receive_get`
Kind: D -/
def inHandWork : RecvPc → ℕ
  | .receiving => 0
  | .copied => 37
  | .marked => 38

/-- The command side's work: the message in hand, two for each step that a handler has left, and the
announcements that are pending.
Source: `receive_interface.c` `receive_get`, `receive_thread_handler`, `voice_interface.c` `voice_set`
Kind: D -/
def System.work (s : System) : ℕ :=
  inHandWork s.recv.pc + total (fun h => 2 * h.pc.rank) s.handlers +
    (announcements s.mem.events - s.serial.length)

/-- The hub's work; none in a dead process.
Source: `smoke_interface.c`, `socket_interface.c`, `voice_interface.c`, `receive_interface.c`
Kind: D -/
def Hub.work (hub : Hub) : ℕ :=
  if hub.system.mem.crashed.isSome = true then 0
  else 40 * hub.blocked + 39 * hub.net.queue.length + hub.system.work

/-- A step that has an effect. Source: none: infrastructure. Kind: D -/
def Effective (controlPhead : List Control) (hub : Hub) (a : HubAct) : Prop :=
  internal a = true ∧ hub.step controlPhead a ≠ hub

/-- The process is dead; or no producer is in `mq_send`, the queue is empty, `receive_get` waits,
every handler is at its end and every announcement is written.
Source: none: what an observer compares. Kind: D -/
def Hub.AllDone (hub : Hub) : Prop :=
  hub.system.mem.crashed.isSome = true ∨
    ((∀ i, hub.net.sending i = none) ∧ hub.net.queue = [] ∧ hub.system.recv.pc = .receiving ∧
      (∀ h ∈ hub.system.handlers, h.pc = .exited) ∧
      announcements hub.system.mem.events ≤ hub.system.serial.length)

variable {controlPhead : List Control} {hub : Hub} {s : System} {tid : ℕ} {h : HandlerThread}

/-! ## Every effect is work done -/

/-- A step of a handler starts at most one announcement. -/
theorem announcements_step_le (controlPhead : List Control) (score : ℚ) (tid : ℕ) (m : Memory)
    (h : HandlerThread) :
    announcements (h.step controlPhead score tid m).1.events ≤ announcements m.events + 1 := by
  have hquiet : ∀ es : List Event, (∀ pcontrol, .startSet pcontrol ∉ es) →
      announcements (m.emit tid es).events ≤ announcements m.events + 1 := fun es hes =>
    (announcements_emit hes).le.trans (Nat.le_succ _)
  have hthrough : ∀ k : ℕ → Gdevice → Memory × HandlerThread,
      (∀ d pdev, announcements (k d pdev).1.events ≤ announcements m.events + 1) →
        announcements (h.through m k).1.events ≤ announcements m.events + 1 := fun k hk =>
    HandlerThread.through_induction (P := fun x => announcements x.1.events ≤ _)
      (Nat.le_succ _) fun d pdev _ _ => hk d pdev
  unfold HandlerThread.step
  cases h.pc with
  | idTest | level | reply | fireCode | fireStatus | exited => exact Nat.le_succ _
  | lookup | face => exact hquiet _ (by simp)
  | store | gate | relockTest | relockStore => exact hthrough _ fun _ _ => Nat.le_succ _
  | pinMode | digitalWrite | oled => exact hthrough _ fun _ _ => hquiet _ (by simp)
  | voiceTest =>
      apply hthrough
      intro d pdev
      split_ifs
      · cases voiceSearch controlPhead <;> exact Nat.le_succ _
      · exact Nat.le_succ _
  | startSet pcontrol =>
      simp only
      split_ifs
      · exact (announcements_append m.events _).le
      · exact Nat.le_succ _

/-- A step of a handler that does not fault is work done, or the handler is at its end. -/
theorem work_handler (controlPhead : List Control) (score : ℚ) (hh : s.handlers[tid]? = some h)
    (hexit : h.pc ≠ .exited) (hf : h.fault s.mem.pdevhead = none) :
    System.work { s with
      mem := (h.step controlPhead score tid s.mem).1
      handlers := s.handlers.set tid (h.step controlPhead score tid s.mem).2 } < s.work := by
  have hrank := (step_of_no_fault controlPhead score tid hf).rank hexit
  have hstarted := announcements_step_le controlPhead score tid s.mem h
  have hsum := total_set (fun h : HandlerThread => 2 * h.pc.rank) hh
    (h.step controlPhead score tid s.mem).2
  simp only [System.work]
  omega

/-- A send that returns leaves one producer less in `mq_send`. -/
theorem blocked_update {i : Producer} {msg : List Byte} (hsending : hub.net.sending i = some msg) :
    ([Producer.smokeGet, .socketControlGet, .voiceGet].countP fun j =>
      (Function.update hub.net.sending i none j).isSome) + 1 = hub.blocked := by
  unfold Hub.blocked
  cases i with
  | smokeGet => simp [List.countP_cons, hsending]
  | socketControlGet =>
      simp [List.countP_cons, hsending]
      omega
  | voiceGet =>
      simp [List.countP_cons, hsending]
      omega

/-- A step of the command side in which the process dies, or that is work done there, is work done. -/
theorem work_of_system (hcrash : hub.system.mem.crashed.isSome ≠ true) (hpos : 0 < hub.system.work)
    {s' : System} (hlt : s'.mem.crashed.isSome = true ∨ s'.work < hub.system.work) :
    Hub.work { hub with system := s' } < hub.work := by
  simp only [Hub.work, hcrash, Bool.false_eq_true, if_false]
  split_ifs with hdead
  · omega
  · have hless := hlt.resolve_left hdead
    simp only [Hub.blocked]
    omega

/-- A message gets into the queue. -/
theorem work_send {i : Producer} (heffect : hub.net.step mqMaxmsg (.send i true) ≠ hub.net)
    (hcrash : hub.system.mem.crashed.isSome ≠ true) :
    Hub.work { hub with net := hub.net.step mqMaxmsg (.send i true) } < hub.work := by
  cases hsending : hub.net.sending i with
  | none => simp [Network.step, hsending] at heffect
  | some msg =>
      by_cases hroom : hub.net.queue.length < mqMaxmsg
      · have hblocked := blocked_update hsending
        simp only [Network.step, hsending, hroom, if_true, Hub.work, hcrash, Bool.false_eq_true,
          if_false, Hub.blocked, List.length_append, List.length_singleton] at hblocked ⊢
        omega
      · simp [Network.step, hsending, hroom] at heffect

/-- A message is taken from the queue. -/
theorem work_receive {msg : List Byte} {rest : List (List Byte)} (hqueue : hub.net.queue = msg :: rest)
    (hcrash : hub.system.mem.crashed.isSome ≠ true) (hpc : hub.system.recv.pc = .receiving) :
    Hub.work ⟨hub.net.take, hub.system.step controlPhead (.mqReceive (some msg))⟩ < hub.work := by
  have hstep : hub.system.step controlPhead (.mqReceive (some msg)) =
      { hub.system with
        recv := Queue.mqReceive (some msg) hub.system.recv
        dequeued := hub.system.dequeued ++
          if (Queue.mqReceive (some msg) hub.system.recv).pc = .marked then [msg] else [] } := by
    simp [System.step, hcrash, hpc]
  have hinHand : inHandWork (Queue.mqReceive (some msg) hub.system.recv).pc ≤ 38 := by
    cases (Queue.mqReceive (some msg) hub.system.recv).pc <;> decide
  rw [hstep]
  simp only [Network.take_of_queue hqueue, Hub.work, Hub.blocked, hcrash, Bool.false_eq_true,
    if_false, System.work, hqueue, List.length_cons, hpc]
  simp only [inHandWork] at hinHand ⊢
  omega

/-- The message in hand is copied, and gets its handler. -/
theorem work_memcpy (controlPhead : List Control) (hpc : s.recv.pc = .marked)
    (hcrash : s.mem.crashed.isSome ≠ true) :
    (s.step controlPhead .memcpy).work < s.work := by
  simp [System.step, hcrash, hpc, System.work, inHandWork]

theorem work_pthreadCreate (controlPhead : List Control) (hpc : s.recv.pc = .copied)
    (hcrash : s.mem.crashed.isSome ≠ true) :
    (s.step controlPhead .pthreadCreate).work < s.work := by
  simp [System.step, hcrash, hpc, System.work, inHandWork, total_concat, HandlerThread.init, Pc.rank]
  omega

/-- A handler moves, or is at its end, or ends the process. -/
theorem work_step_handler (score : ℚ) (heffect : s.step controlPhead (.handler tid score) ≠ s)
    (hcrash : s.mem.crashed.isSome ≠ true) :
    0 < s.work ∧ ((s.step controlPhead (.handler tid score)).mem.crashed.isSome = true ∨
      (s.step controlPhead (.handler tid score)).work < s.work) := by
  simp only [System.step, hcrash, Bool.false_eq_true, if_false] at heffect ⊢
  cases hh : s.handlers[tid]? with
  | none => simp [hh] at heffect
  | some h =>
      simp only [hh] at heffect ⊢
      have hexit : h.pc ≠ .exited := fun hexit =>
        heffect (handler_exited controlPhead score hh hexit)
      cases hf : h.fault s.mem.pdevhead with
      | none =>
          have hless := work_handler controlPhead score hh hexit hf
          exact ⟨Nat.zero_lt_of_lt hless, Or.inr hless⟩
      | some e =>
          refine ⟨?_, Or.inl (by simp [step_of_fault hf])⟩
          have hrank : h.pc.rank ≠ 0 := fun hzero => hexit (rank_eq_zero_iff.mp hzero)
          have hsum := total_set (fun h : HandlerThread => 2 * h.pc.rank) hh { h with pc := .exited }
          have hdone : Pc.exited.rank = 0 := rfl
          simp only [hdone] at hsum
          unfold System.work
          omega

theorem work_voiceSet (heffect : s.step controlPhead .voiceSet ≠ s)
    (hcrash : s.mem.crashed.isSome ≠ true) : (s.step controlPhead .voiceSet).work < s.work := by
  simp only [System.step, hcrash, Bool.false_eq_true, if_false] at heffect ⊢
  split_ifs at heffect ⊢ with hpending
  · simp only [System.work, List.length_append, List.length_singleton]
    omega
  · exact absurd rfl heffect

/-- **Every effect is work done.**
Source: `smoke_interface.c`, `socket_interface.c`, `voice_interface.c`, `receive_interface.c`
Kind: L -/
theorem work_step_lt (hub : Hub) (a : HubAct) (heffective : Effective controlPhead hub a) :
    (hub.step controlPhead a).work < hub.work := by
  obtain ⟨hinternal, heffect⟩ := heffective
  have hcrash : hub.system.mem.crashed.isSome ≠ true := by
    intro hcrash
    apply heffect
    unfold Hub.step
    exact if_pos hcrash
  cases a with
  | producer a =>
      cases a with
      | input i x => simp [internal] at hinternal
      | send i ok =>
          obtain rfl : ok = true := hinternal
          simp only [Hub.step, hcrash, Bool.false_eq_true, if_false] at heffect ⊢
          exact work_send (fun hnet => heffect (by rw [hnet])) hcrash
  | receiveFails => simp [internal] at hinternal
  | receiveGet =>
      cases hpc : hub.system.recv.pc with
      | receiving =>
          cases hqueue : hub.net.queue with
          | nil => simp [Hub.step, hcrash, hpc, hqueue] at heffect
          | cons msg rest =>
              simp only [Hub.step, hcrash, hpc, hqueue]
              exact work_receive hqueue hcrash hpc
      | marked =>
          have hless := work_memcpy controlPhead hpc hcrash
          simp only [Hub.step, hcrash, hpc]
          exact work_of_system hcrash (Nat.zero_lt_of_lt hless) (Or.inr hless)
      | copied =>
          have hless := work_pthreadCreate controlPhead hpc hcrash
          simp only [Hub.step, hcrash, hpc]
          exact work_of_system hcrash (Nat.zero_lt_of_lt hless) (Or.inr hless)
  | handler tid score =>
      simp only [Hub.step, hcrash, Bool.false_eq_true, if_false] at heffect ⊢
      obtain ⟨hpos, hless⟩ := work_step_handler score (fun hs => heffect (by rw [hs])) hcrash
      exact work_of_system hcrash hpos hless
  | voiceSet =>
      simp only [Hub.step, hcrash, Bool.false_eq_true, if_false] at heffect ⊢
      have hless := work_voiceSet (fun hs => heffect (by rw [hs])) hcrash
      exact work_of_system hcrash (Nat.zero_lt_of_lt hless) (Or.inr hless)

/-! ## No way to get stuck -/

/-- **Where nothing has an effect, everything is done.**
Source: `smoke_interface.c`, `socket_interface.c`, `voice_interface.c`, `receive_interface.c`
Kind: L -/
theorem allDone_of_stuck (hstuck : ∀ a, ¬ Effective controlPhead hub a) : hub.AllDone := by
  by_cases hcrash : hub.system.mem.crashed.isSome = true
  · exact Or.inl hcrash
  · have hsame : ∀ a, internal a = true → hub.step controlPhead a = hub := fun a ha =>
      not_not.mp fun heffect => hstuck a ⟨ha, heffect⟩
    have hreceive := hsame .receiveGet rfl
    simp only [Hub.step, hcrash, Bool.false_eq_true, if_false] at hreceive
    -- the receiver has moved on unless it waits at an empty queue
    have hpc : hub.system.recv.pc = .receiving := by
      cases hpc : hub.system.recv.pc with
      | receiving => rfl
      | marked =>
          have hpc' := congrArg (fun hub => hub.system.recv.pc) hreceive
          simp [hpc, System.step, hcrash] at hpc'
      | copied =>
          have hpc' := congrArg (fun hub => hub.system.recv.pc) hreceive
          simp [hpc, System.step, hcrash] at hpc'
    have hqueue : hub.net.queue = [] := by
      cases hqueue : hub.net.queue with
      | nil => rfl
      | cons msg rest =>
          have htaken := congrArg (fun hub => hub.net.taken.length) hreceive
          simp [hpc, hqueue, Network.take_of_queue hqueue] at htaken
    refine Or.inr ⟨fun i => ?_, hqueue, hpc, fun h hh => ?_, ?_⟩
    · -- with room in the queue the send returns
      cases hsending : hub.net.sending i with
      | none => rfl
      | some msg =>
          have hsend := congrArg (fun hub => hub.net.results.length) (hsame (.producer (.send i true)) rfl)
          simp [Hub.step, hcrash, Network.step, hsending, hqueue, mqMaxmsg] at hsend
    · by_contra hexit
      obtain ⟨tid, hh⟩ := List.mem_iff_getElem?.mp hh
      have hstep := congrArg Hub.system (hsame (.handler tid 0) rfl)
      simp only [Hub.step, hcrash, Bool.false_eq_true, if_false] at hstep
      cases hf : h.fault hub.system.mem.pdevhead with
      | some e =>
          have hdead := congrArg (fun s => s.mem.crashed.isSome) hstep
          simp [System.step, hcrash, hh, step_of_fault hf] at hdead
      | none =>
          have hless := work_handler controlPhead 0 hh hexit hf
          simp only [System.step, hcrash, Bool.false_eq_true, if_false, hh] at hstep
          rw [hstep] at hless
          exact Nat.lt_irrefl _ hless
    · by_contra hpending
      have hserial := congrArg (fun hub => hub.system.serial.length) (hsame .voiceSet rfl)
      simp [Hub.step, System.step, hcrash, Nat.not_le.mp hpending] at hserial

/-! ## The hub settles -/

/-- **The hub comes to rest by itself**: from any state, in every interleaving in which nothing is
read and no queue operation fails, at most so many steps have an effect as there is work; where none
has one any more, the process is dead or everything is done; and some such interleaving gets there.
Source: `msg_queue.c` `create_mqd`, `send_message`, `receive_interface.c` `receive_get`,
`receive_thread_handler`, `voice_interface.c` `voice_set`
Kind: P -/
theorem hub_settles (controlPhead : List Control) (hub : Hub) :
    (∀ more, Meets (Hub.step controlPhead) (Effective controlPhead) hub more →
        more.length ≤ hub.work ∧
          ((∀ a, ¬ Effective controlPhead (run (Hub.step controlPhead) hub more) a) →
            (run (Hub.step controlPhead) hub more).AllDone)) ∧
      ∃ more, Meets (Hub.step controlPhead) (Effective controlPhead) hub more ∧
        (run (Hub.step controlPhead) hub more).AllDone := by
  refine ⟨fun more hmore => ⟨hmore.length_le work_step_lt, allDone_of_stuck⟩, ?_⟩
  obtain ⟨more, hmore, hstuck⟩ := exists_meets_stuck work_step_lt hub
  exact ⟨more, hmore, allDone_of_stuck hstuck⟩

end SmartHome.Concurrent
