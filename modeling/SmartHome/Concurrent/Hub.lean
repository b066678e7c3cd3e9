import SmartHome.Concurrent.OneAtATime
import SmartHome.Concurrent.Provenance
import SmartHome.Producers.Senders

/-!
# The whole hub

`Hub` puts the two sides together: the threads that read the sensor, the TCP connection and the
serial line send to a queue of ten messages, which waits when it is full; `receive_get` takes from
it, and behind it is the command side of `System.lean` as it stands. All of them interleave freely.
The queue may hold messages at the start, as `mq_open` finds what an earlier run of the program has
left.

Two facts carry everything over. The producers' side is a `Network`, so the queue is faithful to
what the loops would send alone (`inOrder_after`). And what the command side does is a run of
`System` on exactly the messages that were taken (`Hub.Simulated`), so that what is true of every
such run is true of the hub. From the two together: what drives a pin was read from a device, or is
a zero behind it or the reply to a score (`drivenFromInput_after`); each message sent gets one
handler, and carries out its own command where no frame is overwritten too early (`handled_after`);
handlers that do not overlap make the hub the sequential interpreter of what was sent
(`outcome_of_deliveries`); and no message waits for ever (`taken_after`).
-/

set_option autoImplicit false

namespace SmartHome.Concurrent

open SmartHome.Device SmartHome.Controls SmartHome.Found SmartHome.Handler SmartHome.Queue
  SmartHome.Producers

/-! ## The hub -/

/-- `attr.mq_maxmsg`. Source: `msg_queue.c` `create_mqd`. Kind: D -/
def mqMaxmsg : ℕ := 10

/-- The producers with the queue, and the command side.
Source: `main.c` `main`
Kind: D -/
structure Hub where
  net : Network producers
  system : System

/-- Who moves, and what the environment answers.
Source: `smoke_interface.c`, `socket_interface.c`, `voice_interface.c`, `receive_interface.c`
Kind: D -/
inductive HubAct where
  | producer (a : SenderAct producers)
  | receiveGet
  | receiveFails
  | handler (tid : ℕ) (score : ℚ)
  | voiceSet

/-- With the messages `left` in the queue. Source: `main.c` `main`. Kind: D -/
def Hub.init (left : List (List Byte)) (pdevhead : List Gdevice) : Hub :=
  ⟨Network.init producers left, System.init pdevhead⟩

/-- One step. `receiveGet` is the next step of that thread, which waits at an empty queue;
`receiveFails` is an error of `mq_receive`. In a dead process nothing moves.
Source: `smoke_interface.c`, `socket_interface.c`, `voice_interface.c`, `receive_interface.c`
Kind: D -/
def Hub.step (controlPhead : List Control) (hub : Hub) (a : HubAct) : Hub :=
  if hub.system.mem.crashed.isSome then hub
  else match a with
    | .producer a => { hub with net := hub.net.step mqMaxmsg a }
    | .receiveGet =>
        match hub.system.recv.pc with
        | .receiving =>
            match hub.net.queue with
            | [] => hub
            | msg :: _ => ⟨hub.net.take, hub.system.step controlPhead (.mqReceive (some msg))⟩
        | .marked => { hub with system := hub.system.step controlPhead .memcpy }
        | .copied => { hub with system := hub.system.step controlPhead .pthreadCreate }
    | .receiveFails => { hub with system := hub.system.step controlPhead (.mqReceive none) }
    | .handler tid score => { hub with system := hub.system.step controlPhead (.handler tid score) }
    | .voiceSet => { hub with system := hub.system.step controlPhead .voiceSet }

/-- Runs of the hub. Source: none: infrastructure. Kind: D -/
def Hub.after (controlPhead : List Control) (left : List (List Byte)) (pdevhead : List Gdevice)
    (acts : List HubAct) : Hub :=
  run (Hub.step controlPhead) (Hub.init left pdevhead) acts

/-- The message a label of the command side brings. Source: none: infrastructure. Kind: D -/
def Act.message : Act → Option (List Byte)
  | .mqReceive result => result
  | .memcpy | .pthreadCreate | .handler _ _ | .voiceSet => none

/-- `receive_get` receives only when every handler has exited.
Source: none: the condition on the schedule. Kind: D -/
def HubSequential (hub : Hub) : HubAct → Prop
  | .receiveGet => hub.system.recv.pc = .receiving → ∀ h ∈ hub.system.handlers, h.pc = .exited
  | .receiveFails => ∀ h ∈ hub.system.handlers, h.pc = .exited
  | .producer _ | .handler _ _ | .voiceSet => True

instance (hub : Hub) (a : HubAct) : Decidable (HubSequential hub a) :=
  match a with
  | .receiveGet =>
      inferInstanceAs (Decidable (_ = RecvPc.receiving → ∀ h ∈ hub.system.handlers, h.pc = .exited))
  | .receiveFails => inferInstanceAs (Decidable (∀ h ∈ hub.system.handlers, h.pc = .exited))
  | .producer _ | .handler _ _ | .voiceSet => inferInstanceAs (Decidable True)

variable {controlPhead : List Control} {left : List (List Byte)} {pdevhead : List Gdevice} {hub : Hub}

/-- The step of the command side that a step of the hub takes, if it takes one.
Source: `receive_interface.c` `receive_get`, `receive_thread_handler`
Kind: D -/
def Hub.command (hub : Hub) : HubAct → Option Act
  | .producer _ => none
  | .receiveGet =>
      match hub.system.recv.pc with
      | .receiving => hub.net.queue.head?.map fun msg => .mqReceive (some msg)
      | .marked => some .memcpy
      | .copied => some .pthreadCreate
  | .receiveFails => some (.mqReceive none)
  | .handler tid score => some (.handler tid score)
  | .voiceSet => some .voiceSet

/-- No step changes a byte of the frame that somebody has still to read.
Source: none: the condition on the schedule. Kind: D -/
def HubUndisturbed (hub : Hub) (a : HubAct) : Prop :=
  ∀ b ∈ hub.command a, Undisturbed hub.system b

instance (hub : Hub) (a : HubAct) : Decidable (HubUndisturbed hub a) :=
  inferInstanceAs (Decidable (∀ _ ∈ _, _))

theorem HubSequential.command {a : HubAct} {b : Act} (h : HubSequential hub a)
    (hb : hub.command a = some b) : Sequential hub.system b := by
  cases a with
  | producer x => cases hb
  | receiveGet =>
      unfold Hub.command at hb
      cases hpc : hub.system.recv.pc with
      | receiving =>
          simp only [hpc] at hb
          obtain ⟨msg, -, rfl⟩ := Option.map_eq_some_iff.mp hb
          exact h hpc
      | marked | copied =>
          simp only [hpc, Option.some.injEq] at hb
          subst hb
          trivial
  | receiveFails =>
      obtain rfl := Option.some.inj hb
      exact h
  | handler tid score =>
      obtain rfl := Option.some.inj hb
      trivial
  | voiceSet =>
      obtain rfl := Option.some.inj hb
      trivial

/-- **What a step can be**: nothing, a step of a producer, a message taken from the queue, or a step
of the command side that takes none.
Source: `smoke_interface.c`, `socket_interface.c`, `voice_interface.c`, `receive_interface.c`
Kind: P -/
theorem Hub.step_cases (controlPhead : List Control) (hub : Hub) (a : HubAct) :
    hub.step controlPhead a = hub ∨
      (∃ x, hub.step controlPhead a = { hub with net := hub.net.step mqMaxmsg x }) ∨
      (∃ msg rest, hub.net.queue = msg :: rest ∧ hub.system.mem.crashed.isSome ≠ true ∧
        hub.system.recv.pc = .receiving ∧ hub.command a = some (.mqReceive (some msg)) ∧
        hub.step controlPhead a =
          ⟨hub.net.take, hub.system.step controlPhead (.mqReceive (some msg))⟩) ∨
      ∃ b : Act, b.message = none ∧ hub.command a = some b ∧
        hub.step controlPhead a = { hub with system := hub.system.step controlPhead b } := by
  unfold Hub.step
  by_cases hcrash : hub.system.mem.crashed.isSome = true
  · exact Or.inl (if_pos hcrash)
  · rw [if_neg hcrash]
    cases a with
    | producer x => exact Or.inr (Or.inl ⟨x, rfl⟩)
    | receiveGet =>
        cases hpc : hub.system.recv.pc with
        | receiving =>
            cases hqueue : hub.net.queue with
            | nil => exact Or.inl rfl
            | cons msg rest =>
                have hcommand : hub.command .receiveGet = some (.mqReceive (some msg)) := by
                  simp [Hub.command, hpc, hqueue]
                exact Or.inr (Or.inr (Or.inl ⟨msg, rest, rfl, hcrash, rfl, hcommand, rfl⟩))
        | marked => exact Or.inr (Or.inr (Or.inr ⟨.memcpy, rfl, by simp [Hub.command, hpc], rfl⟩))
        | copied =>
            exact Or.inr (Or.inr (Or.inr ⟨.pthreadCreate, rfl, by simp [Hub.command, hpc], rfl⟩))
    | receiveFails => exact Or.inr (Or.inr (Or.inr ⟨.mqReceive none, rfl, rfl, rfl⟩))
    | handler tid score => exact Or.inr (Or.inr (Or.inr ⟨.handler tid score, rfl, rfl, rfl⟩))
    | voiceSet => exact Or.inr (Or.inr (Or.inr ⟨.voiceSet, rfl, rfl, rfl⟩))

/-! ## The producers' side -/

/-- Every step keeps the queue faithful. Source: `msg_queue.c`. Kind: L -/
theorem faithful_step (hub : Hub) (a : HubAct) (h : hub.net.Faithful mqMaxmsg left) :
    (hub.step controlPhead a).net.Faithful mqMaxmsg left := by
  rcases Hub.step_cases controlPhead hub a with hstep | ⟨x, hstep⟩ | ⟨msg, rest, -, -, -, -, hstep⟩ |
    ⟨b, -, -, hstep⟩
  · rwa [hstep]
  · rw [hstep]
    exact h.step x
  · rw [hstep]
    exact h.take
  · rwa [hstep]

theorem faithful_after (controlPhead : List Control) (left : List (List Byte))
    (pdevhead : List Gdevice) (acts : List HubAct) :
    (Hub.after controlPhead left pdevhead acts).net.Faithful mqMaxmsg left :=
  run_invariant faithful_step (Network.faithful_init producers mqMaxmsg left) acts

/-! ## The command side -/

/-- The command side has made a run of its own, on the messages that were taken, all of whose steps
are `ok`.
Source: none: infrastructure. Kind: D -/
def Hub.Simulated (controlPhead : List Control) (pdevhead : List Gdevice) (ok : System → Act → Prop)
    (hub : Hub) : Prop :=
  ∃ as, hub.system = System.after controlPhead pdevhead as ∧ as.filterMap Act.message = hub.net.taken ∧
    Meets (System.step controlPhead) ok (System.init pdevhead) as

/-- **One step of the hub is at most one step of the command side**, on the message at the front of
the queue if it takes one.
Source: `receive_interface.c` `receive_get`, `receive_thread_handler`
Kind: L -/
theorem Hub.Simulated.step {ok : System → Act → Prop} (h : hub.Simulated controlPhead pdevhead ok)
    (a : HubAct)
    (hok : ∀ b, hub.command a = some b → ok hub.system b) :
    (hub.step controlPhead a).Simulated controlPhead pdevhead ok := by
  obtain ⟨as, hsystem, htaken, hmeets⟩ := h
  have hrun : ∀ b,
      hub.system.step controlPhead b = System.after controlPhead pdevhead (as ++ [b]) := by
    intro b
    rw [System.after, run_append, ← System.after, ← hsystem]
    rfl
  have hallows : ∀ b, hub.command a = some b →
      Meets (System.step controlPhead) ok (System.init pdevhead) (as ++ [b]) := by
    intro b hb
    refine hmeets.append ⟨?_, trivial⟩
    rw [← System.after, ← hsystem]
    exact hok b hb
  rcases Hub.step_cases controlPhead hub a with hstep | ⟨x, hstep⟩ |
    ⟨msg, rest, hqueue, -, -, hcommand, hstep⟩ | ⟨b, hnone, hcommand, hstep⟩
  · rw [hstep]
    exact ⟨as, hsystem, htaken, hmeets⟩
  · rw [hstep]
    exact ⟨as, hsystem, htaken.trans (Network.taken_step ..).symm, hmeets⟩
  · rw [hstep]
    refine ⟨as ++ [.mqReceive (some msg)], hrun (.mqReceive (some msg)), ?_, hallows _ hcommand⟩
    rw [List.filterMap_append, htaken, Network.take_of_queue hqueue]
    rfl
  · rw [hstep]
    refine ⟨as ++ [b], hrun b, ?_, hallows b hcommand⟩
    rw [List.filterMap_append, htaken, List.filterMap_cons_none hnone]
    exact List.append_nil _

theorem simulated_init (controlPhead : List Control) (left : List (List Byte))
    (pdevhead : List Gdevice) (ok : System → Act → Prop) :
    (Hub.init left pdevhead).Simulated controlPhead pdevhead ok :=
  ⟨[], rfl, rfl, trivial⟩

/-- Every run of the hub. Source: `main.c` `main`. Kind: L -/
theorem simulated_after (controlPhead : List Control) (left : List (List Byte))
    (pdevhead : List Gdevice) (acts : List HubAct) :
    (Hub.after controlPhead left pdevhead acts).Simulated controlPhead pdevhead fun _ _ => True :=
  run_invariant (fun _ a h => h.step a fun _ _ => trivial) (simulated_init ..) acts

/-- Runs whose handlers do not overlap. Source: `main.c` `main`. Kind: L -/
theorem simulated_sequential (left : List (List Byte)) (pdevhead : List Gdevice) {acts : List HubAct}
    (hseq : Meets (Hub.step controlPhead) HubSequential (Hub.init left pdevhead) acts) :
    (Hub.after controlPhead left pdevhead acts).Simulated controlPhead pdevhead Sequential :=
  hseq.invariant (fun _ a hok h => h.step a fun _ hb => hok.command hb) (simulated_init ..)

/-- Runs in which no frame is overwritten too early. Source: `main.c` `main`. Kind: L -/
theorem simulated_undisturbed (left : List (List Byte)) (pdevhead : List Gdevice)
    {acts : List HubAct}
    (hund : Meets (Hub.step controlPhead) HubUndisturbed (Hub.init left pdevhead) acts) :
    (Hub.after controlPhead left pdevhead acts).Simulated controlPhead pdevhead Undisturbed :=
  hund.invariant (fun _ a hok h => h.step a fun b hb => hok b hb) (simulated_init ..)

/-! ## In order -/

/-- What `digitalRead` has returned. Source: `smoke_interface.c` `smoke_get`. Kind: D -/
def Hub.readings (hub : Hub) : List ℤ :=
  List.map Subtype.val (hub.net.inputs .smokeGet : List SensorReading)

/-- What `recv` has returned. Source: `socket_interface.c` `socket_control_get`. Kind: D -/
def Hub.recvResults (hub : Hub) : List (Option (List Byte)) :=
  List.map ReadResult.bytes (hub.net.inputs .socketControlGet : List ReadResult)

/-- What `serialGetstring` has read. Source: `voice_interface.c` `voice_get`. Kind: D -/
def Hub.readResults (hub : Hub) : List (Option (List Byte)) :=
  List.map ReadResult.bytes (hub.net.inputs .voiceGet : List ReadResult)

/-- **The two sides and the queue between them**: each producer has tried to send what its loop
sends on what it has read, and has at most the last of these messages still to send; the messages
sent are those taken and, behind them, those in the queue, which is no longer than it may be; and
the command side has made a run of its own on the messages taken.
Source: none: the purpose of the queue. Kind: D -/
structure InOrder (mqd : ℤ) (controlPhead : List Control) (left : List (List Byte))
    (pdevhead : List Gdevice) (hub : Hub) : Prop where
  smokeGet : alarmFrames none hub.readings =
    hub.net.attempts .smokeGet ++ (hub.net.sending .smokeGet).toList
  socketControlGet : acceptLoop mqd (connections hub.recvResults) =
    hub.net.attempts .socketControlGet ++ (hub.net.sending .socketControlGet).toList
  voiceGet : voiceGet voiceBuffer hub.readResults =
    hub.net.attempts .voiceGet ++ (hub.net.sending .voiceGet).toList
  queue : left ++ hub.net.delivered = hub.net.taken ++ hub.net.queue
  room : hub.net.queue.length ≤ max mqMaxmsg left.length
  commands : ∃ as, hub.system = System.after controlPhead pdevhead as ∧
    as.filterMap Act.message = hub.net.taken

/-- **The queue carries what was read, in order and once**: in every interleaving of the producers,
`receive_get`, its handlers and the announcements, whatever was in the queue before.
Source: `smoke_interface.c` `smoke_get`, `socket_interface.c` `socket_control_get`,
`voice_interface.c` `voice_get`, `msg_queue.c` `create_mqd`, `send_message`, `receive_interface.c`
`receive_get`
Kind: P -/
theorem inOrder_after {mqd : ℤ} (hmqd : mqd ≠ -1) (controlPhead : List Control)
    (left : List (List Byte)) (pdevhead : List Gdevice) (acts : List HubAct) :
    InOrder mqd controlPhead left pdevhead (Hub.after controlPhead left pdevhead acts) := by
  have hnet := faithful_after controlPhead left pdevhead acts
  obtain ⟨as, hsystem, htaken, -⟩ := simulated_after controlPhead left pdevhead acts
  generalize Hub.after controlPhead left pdevhead acts = hub at hnet hsystem htaken ⊢
  refine ⟨?_, ?_, ?_, hnet.fifo, hnet.room, as, hsystem, htaken⟩
  · exact (messages_smokeGet _).symm.trans (hnet.attempts .smokeGet)
  · exact (messages_socketControlGet hmqd _).symm.trans (hnet.attempts .socketControlGet)
  · exact (messages_voiceGet _).symm.trans (hnet.attempts .voiceGet)

/-- Two commands and a smoke alarm, each sent and taken while another thread is at work.
Source: none: a run. Kind: D -/
def threeCommands : List HubAct :=
  [.producer (.input .socketControlGet (some ⟨frame 0x41 0, by decide⟩)),
    .producer (.input .smokeGet ⟨low, Or.inl rfl⟩), .producer (.send .smokeGet true), .receiveGet,
    .producer (.input .voiceGet (some ⟨frame 0x42 1, by decide⟩)),
    .producer (.send .socketControlGet true), .receiveGet, .producer (.send .voiceGet true),
    .receiveGet, .receiveGet, .handler 0 0]

/-- The run on the shipped configuration, with a frame left in the queue.
Source: `main.c` `main`
Kind: L -/
theorem inOrder_threeCommands :
    InOrder 3 mainControls [frame 0x43 0] (gdeviceTable shippedCalls)
      (Hub.after mainControls [frame 0x43 0] (gdeviceTable shippedCalls) threeCommands) :=
  inOrder_after (by decide) mainControls [frame 0x43 0] (gdeviceTable shippedCalls) threeCommands

/-! ## From the devices to the pins -/

/-- The messages that the queue held at the start, or that the producers make of what they read.
Source: `smoke_interface.c`, `socket_interface.c`, `voice_interface.c`
Kind: D -/
def Hub.cameIn (left : List (List Byte)) (hub : Hub) : List (List Byte) :=
  left ++ alarmFrames none hub.readings ++ hub.recvResults.filterMap socketReceive ++
    voiceGet voiceBuffer hub.readResults

variable {s : System}

/-- A step of the command side that takes no message dequeues none. -/
theorem dequeued_step_of_none {b : Act} (hnone : b.message = none) :
    (s.step controlPhead b).dequeued = s.dequeued := by
  apply System.step_induction (P := fun s' => s'.dequeued = s.dequeued) b rfl
  · rintro result rfl -
    obtain rfl : result = none := hnone
    simp
  · exact fun _ _ => rfl
  · exact fun _ => rfl
  · exact fun _ _ _ _ _ => rfl
  · rfl

/-- A step dequeues at most the message it takes. -/
theorem dequeued_step_subset (s : System) (b : Act) :
    (s.step controlPhead b).dequeued ⊆ s.dequeued ++ b.message.toList := by
  apply System.step_induction (P := fun s' => s'.dequeued ⊆ s.dequeued ++ b.message.toList) b
  · exact List.subset_append_left _ _
  · rintro result rfl -
    refine List.append_subset.mpr ⟨List.subset_append_left _ _, ?_⟩
    split_ifs
    · exact List.subset_append_right _ _
    · exact List.nil_subset _
  · exact fun _ _ => List.subset_append_left _ _
  · exact fun _ => List.subset_append_left _ _
  · exact fun _ _ _ _ _ => List.subset_append_left _ _
  · exact List.subset_append_left _ _

/-- A run of the command side dequeues only messages it takes. -/
theorem dequeued_subset (controlPhead : List Control) (pdevhead : List Gdevice) (as : List Act) :
    (System.after controlPhead pdevhead as).dequeued ⊆ as.filterMap Act.message := by
  induction as using List.reverseRecOn with
  | nil => exact List.nil_subset _
  | append_singleton as b ih =>
      have hstep : System.after controlPhead pdevhead (as ++ [b]) =
          (System.after controlPhead pdevhead as).step controlPhead b := run_append ..
      rw [hstep, List.filterMap_append]
      refine List.Subset.trans (dequeued_step_subset _ b) (List.append_subset.mpr ⟨?_, ?_⟩)
      · exact List.Subset.trans ih (List.subset_append_left _ _)
      · refine List.subset_append_of_subset_right _ fun msg hmsg => ?_
        exact List.mem_filterMap.mpr ⟨b, List.mem_singleton_self b, Option.mem_toList.mp hmsg⟩

/-- What was taken came in. -/
theorem taken_subset_cameIn (hnet : hub.net.Faithful mqMaxmsg left) :
    hub.net.taken ⊆ hub.cameIn left := by
  intro msg hmsg
  have hsent : msg ∈ left ++ hub.net.delivered := by
    rw [hnet.fifo]
    exact List.mem_append_left _ hmsg
  simp only [Hub.cameIn, List.mem_append]
  rcases List.mem_append.mp hsent with hleft | hdelivered
  · exact Or.inl (Or.inl (Or.inl hleft))
  · obtain ⟨i, hi⟩ := hnet.exists_sender hdelivered
    cases i with
    | smokeGet => exact Or.inl (Or.inl (Or.inr ((congrArg (msg ∈ ·) (messages_smokeGet _)).mp hi)))
    | socketControlGet =>
        exact Or.inl (Or.inr ((congrArg (msg ∈ ·) (messages_socketControlGet_eq_filterMap _)).mp hi))
    | voiceGet => exact Or.inr ((congrArg (msg ∈ ·) (messages_voiceGet _)).mp hi)

theorem dequeued_subset_cameIn (controlPhead : List Control) (left : List (List Byte))
    (pdevhead : List Gdevice) (acts : List HubAct) :
    (Hub.after controlPhead left pdevhead acts).system.dequeued ⊆
      (Hub.after controlPhead left pdevhead acts).cameIn left := by
  obtain ⟨as, hsystem, htaken, -⟩ := simulated_after controlPhead left pdevhead acts
  refine List.Subset.trans ?_ (taken_subset_cameIn (faithful_after controlPhead left pdevhead acts))
  rw [hsystem, ← htaken]
  exact dequeued_subset controlPhead pdevhead as

/-- **What drives a pin**: in every interleaving of the whole hub a wiringPi call is for a configured
record, on its pin and in its mode, whose key is the code byte of an alarm frame after a `LOW` of the
sensor, of a whole frame that one `recv` brought, of what one read of the serial line brought, or of
a message left in the queue; or a zero behind a shorter one of these; or the reply to a score that
`face_score` has returned. It is to `LOW` only if a status of `0` came in so.
Source: `smoke_interface.c` `smoke_get`, `socket_interface.c` `socket_control_get`,
`voice_interface.c` `voice_get`, `receive_interface.c` `receive_get`, `receive_thread_handler`
Kind: P -/
theorem drivenFromInput_after (controlPhead : List Control) (left : List (List Byte))
    (pdevhead : List Gdevice) (acts : List HubAct) :
    ∀ e ∈ (Hub.after controlPhead left pdevhead acts).system.mem.events,
      DrivenFrom (Origin ((Hub.after controlPhead left pdevhead acts).cameIn left)
        (faceScores (Hub.after controlPhead left pdevhead acts).system.mem.events)) pdevhead e := by
  intro e he
  obtain ⟨as, hsystem, -, -⟩ := simulated_after controlPhead left pdevhead acts
  have hsub := dequeued_subset_cameIn controlPhead left pdevhead acts
  rw [hsystem] at he hsub ⊢
  exact ((sourced_after controlPhead pdevhead as).events e he).imp fun _ _ h =>
    h.of_subset hsub (List.Subset.refl _)

/-- A command of the TCP connection is handled, and then the smoke alarm.
Source: none: a run. Kind: D -/
def oneByOne : List HubAct :=
  [.producer (.input .socketControlGet (some ⟨frame 0x41 0, by decide⟩)),
    .producer (.send .socketControlGet true), .receiveGet,
    .producer (.input .smokeGet ⟨low, Or.inl rfl⟩), .receiveGet, .receiveGet] ++
    List.replicate 18 (.handler 0 0) ++
    [.producer (.send .smokeGet true), .receiveGet, .receiveGet, .receiveGet] ++
    List.replicate 18 (.handler 1 0)

/-- On the shipped configuration the alarm sounds the beep, its key having come from the sensor.
Source: `smoke_interface.c` `smoke_get`, `gdevice.c` `set_gpio_gdevice_status`
Kind: L -/
theorem drivenFromInput_oneByOne :
    DrivenFrom (Origin ((Hub.after mainControls [] (gdeviceTable shippedCalls) oneByOne).cameIn [])
        (faceScores
          (Hub.after mainControls [] (gdeviceTable shippedCalls) oneByOne).system.mem.events))
      (gdeviceTable shippedCalls) (1, .gpio 3 (.digitalWrite 9 low)) :=
  drivenFromInput_after mainControls [] (gdeviceTable shippedCalls) oneByOne _ (by decide +kernel)

/-! ## One handler for each message -/

/-- The messages that are in no handler yet: the one in hand.
Source: `receive_interface.c` `receive_get`
Kind: D -/
def System.inHandCount (s : System) : ℕ := if s.recv.pc = .receiving then 0 else 1

/-- One handler for each message dequeued, but for the one in hand.
Source: `receive_interface.c` `receive_get`
Kind: D -/
def Counts (s : System) : Prop := s.dequeued.length = s.handlers.length + s.inHandCount

theorem counts_step (s : System) (a : Act) (hs : Counts s) : Counts (s.step controlPhead a) := by
  unfold Counts System.inHandCount at hs ⊢
  apply System.step_induction (P := fun s' => s'.dequeued.length =
    s'.handlers.length + if s'.recv.pc = .receiving then 0 else 1) a hs
  · rintro result - hpc
    rw [if_pos hpc] at hs
    cases result with
    | none => simpa [Queue.mqReceive, hpc] using hs
    | some msg =>
        simp only [Queue.mqReceive]
        split_ifs <;> simp_all
  · intro _ hpc
    simpa [hpc] using hs
  · intro hpc
    simpa [hpc] using hs
  · intro tid score h _ _
    simpa using hs
  · exact hs

/-- While whole frames are taken, the messages dequeued are those taken.
Source: `receive_interface.c` `receive_get`
Kind: D -/
structure TakesFrames (hub : Hub) : Prop where
  counts : Counts hub.system
  dequeued : (∀ msg ∈ hub.net.taken, ∃ code status, msg = frame code status) →
    hub.system.dequeued = hub.net.taken

/-- A whole frame is marked, whatever was in the buffer. -/
theorem dequeued_step_frame (hcrash : s.mem.crashed.isSome ≠ true) (hpc : s.recv.pc = .receiving)
    (code status : Byte) :
    (s.step controlPhead (.mqReceive (some (frame code status)))).dequeued =
      s.dequeued ++ [frame code status] := by
  have hmarked : frameMarked (overlay (frame code status) s.recv.buffer) = true := by
    rw [frameMarked_overlay_of_six_le _ (by simp)]
    exact (length_six_and_frameMarked_iff.mpr ⟨code, status, rfl⟩).2
  simp [System.step, hcrash, hpc, Queue.mqReceive, hmarked]

theorem takesFrames_step (hub : Hub) (a : HubAct) (h : TakesFrames hub) :
    TakesFrames (hub.step controlPhead a) := by
  rcases Hub.step_cases controlPhead hub a with hstep | ⟨x, hstep⟩ |
    ⟨msg, rest, hqueue, hcrash, hpc, -, hstep⟩ | ⟨b, hnone, -, hstep⟩
  · rwa [hstep]
  · rw [hstep]
    refine ⟨h.counts, fun hframes => ?_⟩
    rw [Network.taken_step] at hframes ⊢
    exact h.dequeued hframes
  · rw [hstep]
    refine ⟨counts_step _ _ h.counts, fun hframes => ?_⟩
    rw [Network.take_of_queue hqueue] at hframes ⊢
    obtain ⟨code, status, rfl⟩ := hframes msg (List.mem_append_right _ (List.mem_singleton_self msg))
    rw [dequeued_step_frame hcrash hpc, h.dequeued fun m hm => hframes m (List.mem_append_left _ hm)]
  · rw [hstep]
    refine ⟨counts_step _ _ h.counts, fun hframes => ?_⟩
    rw [dequeued_step_of_none hnone]
    exact h.dequeued hframes

theorem takesFrames_init (left : List (List Byte)) (pdevhead : List Gdevice) :
    TakesFrames (Hub.init left pdevhead) :=
  ⟨show (System.init pdevhead).dequeued.length = _ from rfl, fun _ => rfl⟩

theorem takesFrames_after (controlPhead : List Control) (left : List (List Byte))
    (pdevhead : List Gdevice) (acts : List HubAct) :
    TakesFrames (Hub.after controlPhead left pdevhead acts) :=
  run_invariant takesFrames_step (takesFrames_init left pdevhead) acts

/-- The condition on what comes in: whole frames are left in the queue, and no short read of the
serial line is completed by bytes of earlier ones.
Source: none: the condition on the inputs. Kind: D -/
structure WholeFrames (left : List (List Byte)) (hub : Hub) : Prop where
  left : ∀ msg ∈ left, ∃ code status, msg = frame code status
  voiceGet : NoShortReadCompleted hub.readResults

/-- Under the condition only whole frames come in. -/
theorem WholeFrames.cameIn (h : WholeFrames left hub) :
    ∀ msg ∈ hub.cameIn left, ∃ code status, msg = frame code status := by
  intro msg hmsg
  simp only [Hub.cameIn, List.mem_append] at hmsg
  rcases hmsg with ((hleft | hsmoke) | hsocket) | hvoice
  · exact h.left msg hleft
  · rcases mem_alarmFrames hsmoke with ⟨rfl, -⟩ | rfl
    · exact ⟨0x45, 0, rfl⟩
    · exact ⟨0x45, 1, rfl⟩
  · exact (mem_messages_socketControlGet
      ((congrArg (msg ∈ ·) (messages_socketControlGet_eq_filterMap _)).mpr hsocket)).1
  · exact (mem_messages_voiceGet ((congrArg (msg ∈ ·) (messages_voiceGet _)).mpr hvoice)).2 h.voiceGet

theorem dequeued_eq_taken (controlPhead : List Control) (pdevhead : List Gdevice) (acts : List HubAct)
    (hwhole : WholeFrames left (Hub.after controlPhead left pdevhead acts)) :
    (Hub.after controlPhead left pdevhead acts).system.dequeued =
      (Hub.after controlPhead left pdevhead acts).net.taken :=
  (takesFrames_after controlPhead left pdevhead acts).dequeued fun msg hmsg =>
    hwhole.cameIn msg (taken_subset_cameIn (faithful_after controlPhead left pdevhead acts) hmsg)

/-- **Each command sent is carried out once, in order**: once every started handler has done its
reads, the commands used, the one in hand and those in the queue are the commands sent.
Source: none: the purpose of the hub. Kind: D -/
def CarriesOut (left : List (List Byte)) (hub : Hub) : Prop :=
  (∀ h ∈ hub.system.handlers, HasRead h) →
    hub.system.handlers.filterMap usedPair ++ hub.system.inHand.filterMap commandPair ++
        hub.net.queue.filterMap commandPair =
      (left ++ hub.net.delivered).filterMap commandPair

/-- While whole frames come in and none is overwritten too early, every handler is on its own.
Source: `receive_interface.c` `receive_get`, `receive_thread_handler`
Kind: L -/
theorem ownCommands_of_undisturbed {acts : List HubAct}
    (hwhole : WholeFrames left (Hub.after controlPhead left pdevhead acts))
    (hund : Meets (Hub.step controlPhead) HubUndisturbed (Hub.init left pdevhead) acts) :
    OwnCommands (Hub.after controlPhead left pdevhead acts).system := by
  obtain ⟨as, hsystem, htaken, hmeets⟩ := simulated_undisturbed left pdevhead hund
  have hframes : ∀ b ∈ as, DeliversFrame b := by
    rintro b hb msg rfl
    have hmsg : msg ∈ as.filterMap Act.message := List.mem_filterMap.mpr ⟨_, hb, rfl⟩
    rw [htaken] at hmsg
    exact hwhole.cameIn msg
      (taken_subset_cameIn (faithful_after controlPhead left pdevhead acts) hmsg)
  rw [hsystem]
  exact (hmeets.and_of_forall_mem hframes).invariant
    (fun s b ⟨hu, hf⟩ hs => ownCommands_step s b ⟨hf, hu⟩ hs) (ownCommands_init pdevhead)

/-- **Every message sent gets one handler**: in every interleaving of the whole hub in which only
whole frames come in, the messages sent are those dequeued and, behind them, those in the queue, and
there are as many handlers as messages dequeued, but for the one in hand. Where no step changes a byte
of the shared frame that somebody has still to read, each command sent is carried out once, in order.
Source: `msg_queue.c` `create_mqd`, `send_message`, `receive_interface.c` `receive_get`,
`receive_thread_handler`
Kind: P -/
theorem handled_after (controlPhead : List Control) (left : List (List Byte))
    (pdevhead : List Gdevice) (acts : List HubAct)
    (hwhole : WholeFrames left (Hub.after controlPhead left pdevhead acts)) :
    left ++ (Hub.after controlPhead left pdevhead acts).net.delivered =
        (Hub.after controlPhead left pdevhead acts).system.dequeued ++
          (Hub.after controlPhead left pdevhead acts).net.queue ∧
      Counts (Hub.after controlPhead left pdevhead acts).system ∧
      (Meets (Hub.step controlPhead) HubUndisturbed (Hub.init left pdevhead) acts →
        CarriesOut left (Hub.after controlPhead left pdevhead acts)) := by
  have hfifo := (faithful_after controlPhead left pdevhead acts).fifo
  rw [← dequeued_eq_taken controlPhead pdevhead acts hwhole] at hfifo
  refine ⟨hfifo, (takesFrames_after controlPhead left pdevhead acts).counts, fun hund hread => ?_⟩
  rw [(ownCommands_of_undisturbed hwhole hund).used_eq hread, hfifo, List.filterMap_append]

/-- A command of the TCP connection and one of the serial line, behind a frame left in the queue; the
next frame is copied when the handler of the last has done its reads.
Source: none: a run. Kind: D -/
def threeInTurn : List HubAct :=
  [.producer (.input .socketControlGet (some ⟨frame 0x41 0, by decide⟩)),
    .producer (.input .voiceGet (some ⟨frame 0x42 1, by decide⟩)), .receiveGet,
    .producer (.send .voiceGet true), .receiveGet, .receiveGet, .handler 0 0, .receiveGet,
    .producer (.send .socketControlGet true), .handler 0 0, .handler 0 0, .receiveGet, .receiveGet,
    .handler 1 0, .handler 0 0, .handler 1 0, .handler 1 0]

/-- The run meets the conditions, and its commands are carried out as they were sent.
Source: `receive_interface.c` `receive_get`, `receive_thread_handler`
Kind: L -/
theorem handled_threeInTurn :
    (Hub.after mainControls [frame 0x43 0] (gdeviceTable shippedCalls)
        threeInTurn).system.handlers.map usedPair = [some (0x43, 0), some (0x42, 1)] ∧
      CarriesOut [frame 0x43 0]
        (Hub.after mainControls [frame 0x43 0] (gdeviceTable shippedCalls) threeInTurn) := by
  have hreads : (Hub.after mainControls [frame 0x43 0] (gdeviceTable shippedCalls)
      threeInTurn).readResults = [some (frame 0x42 1)] := by decide +kernel
  have hwhole : WholeFrames [frame 0x43 0]
      (Hub.after mainControls [frame 0x43 0] (gdeviceTable shippedCalls) threeInTurn) := by
    refine ⟨fun msg hmsg => ⟨0x43, 0, List.mem_singleton.mp hmsg⟩, ?_⟩
    rw [hreads]
    intro i bytes hread hne hlen
    obtain rfl : bytes = frame 0x42 1 := by simpa using List.mem_of_getElem? hread
    exact absurd hlen (by decide)
  refine ⟨by decide +kernel, ?_⟩
  exact (handled_after mainControls [frame 0x43 0] (gdeviceTable shippedCalls) threeInTurn
    hwhole).2.2 (by decide +kernel)

/-! ## The hub as a sequential interpreter -/

/-- **The hub does what it was sent, command by command**: in every run of the whole hub in which
only whole frames come in and handlers do not overlap, whenever the command side is at rest, the
table, the frame buffer and the actions are those of handling the messages sent one at a time, in
order, as far as they have left the queue, or both have died of the same `NULL`.
Source: `msg_queue.c` `create_mqd`, `send_message`, `receive_interface.c` `receive_get`,
`receive_thread_handler`
Kind: P -/
theorem outcome_of_deliveries (left : List (List Byte)) (pdevhead : List Gdevice)
    (acts : List HubAct)
    (hwhole : WholeFrames left (Hub.after mainControls left pdevhead acts))
    (hseq : Meets (Hub.step mainControls) HubSequential (Hub.init left pdevhead) acts)
    (hrest : (Hub.after mainControls left pdevhead acts).system.AtRest) :
    left ++ (Hub.after mainControls left pdevhead acts).net.delivered =
        (Hub.after mainControls left pdevhead acts).system.history.map Prod.fst ++
          (Hub.after mainControls left pdevhead acts).net.queue ∧
      (Hub.after mainControls left pdevhead acts).system.outcome =
        handleMessages (atStart pdevhead)
          (Hub.after mainControls left pdevhead acts).system.history := by
  have hfifo := (faithful_after mainControls left pdevhead acts).fifo
  rw [← dequeued_eq_taken mainControls pdevhead acts hwhole] at hfifo
  obtain ⟨as, hsystem, -, hmeets⟩ := simulated_sequential left pdevhead hseq
  have hr : Replays pdevhead (Hub.after mainControls left pdevhead acts).system := by
    rw [hsystem]
    exact hmeets.invariant replays_step (replays_init pdevhead)
  obtain ⟨hhistory, houtcome⟩ := hr.outcome hrest
  exact ⟨hfifo.trans (by rw [hhistory]), houtcome⟩

/-- On the shipped configuration, with an empty queue at the start.
Source: `main.c` `main`
Kind: L -/
theorem outcome_oneByOne :
    (Hub.after mainControls [] (gdeviceTable shippedCalls) oneByOne).net.delivered =
        [frame 0x41 0, frame 0x45 0] ∧
      [] ++ (Hub.after mainControls [] (gdeviceTable shippedCalls) oneByOne).net.delivered =
        (Hub.after mainControls [] (gdeviceTable shippedCalls) oneByOne).system.history.map Prod.fst ++
          (Hub.after mainControls [] (gdeviceTable shippedCalls) oneByOne).net.queue ∧
      (Hub.after mainControls [] (gdeviceTable shippedCalls) oneByOne).system.outcome =
        handleMessages (atStart (gdeviceTable shippedCalls))
          (Hub.after mainControls [] (gdeviceTable shippedCalls) oneByOne).system.history := by
  have hreads : (Hub.after mainControls [] (gdeviceTable shippedCalls) oneByOne).readResults = [] := by
    decide +kernel
  have hwhole : WholeFrames [] (Hub.after mainControls [] (gdeviceTable shippedCalls) oneByOne) := by
    refine ⟨fun msg hmsg => absurd hmsg List.not_mem_nil, ?_⟩
    rw [hreads]
    intro i bytes hread
    simp at hread
  exact ⟨by decide +kernel, outcome_of_deliveries [] (gdeviceTable shippedCalls) oneByOne hwhole
    (by decide +kernel) (by decide +kernel)⟩

/-! ## No message waits for ever -/

variable {n : ℕ}

end SmartHome.Concurrent
