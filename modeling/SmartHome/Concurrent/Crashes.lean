import SmartHome.Concurrent.FaceGate
import SmartHome.Concurrent.OneAtATime

/-!
# Which commands can kill the hub

A single command kills the hub if its code has no record (`receiveThreadHandler_safe_iff`). With
handlers that overlap there are more ways: the lookup reads the code again after the test for
`0x40`, and the reply of a face check overwrites the code of whatever frame is in the buffer.
`CanBeLookedUp` says which codes a lookup can see when the queue carries only command frames with
codes of a given kind: these codes; `0x40` too, if a frame with another code can be overtaken by one
that has it; and both replies, as soon as a code that can be looked up leads to a record that asks
for a face.

`exists_crash_iff` is exact: some interleaving kills the hub if and only if one of these codes has no
record. One direction is an invariant (`Survives`); for the other, any number of handlers are parked
in front of their lookups (`exists_parked`), by induction on how the code can be looked up, and one
of them is let go.
-/

set_option autoImplicit false

namespace SmartHome.Concurrent

open SmartHome.Device SmartHome.Controls SmartHome.Found SmartHome.Handler SmartHome.Queue

/-- The codes a lookup can see when commands have codes of this kind.
Source: `receive_interface.c` `receive_get`, `receive_thread_handler`
Kind: D -/
inductive CanBeLookedUp (pdevhead : List Gdevice) (codes : Byte → Prop) : Byte → Prop where
  | own {code : Byte} (hcode : codes code) (h40 : code ≠ 0x40) : CanBeLookedUp pdevhead codes code
  | overtaken {code : Byte} (hdropped : codes 0x40) (hcode : codes code) (h40 : code ≠ 0x40) :
      CanBeLookedUp pdevhead codes 0x40
  | replied {code : Byte} {d : ℕ} {pdev : Gdevice} (h : CanBeLookedUp pdevhead codes code)
      (hfind : findGdeviceByKey pdevhead code.asInt = some d) (hg : pdevhead[d]? = some pdev)
      (hcheck : pdev.checkFaceStatus = 1) (faceResult : ℚ) :
      CanBeLookedUp pdevhead codes (faceReply faceResult)

/-- Messages are command frames with codes of this kind.
Source: none: the condition on the queue. Kind: D -/
def DeliversCode (codes : Byte → Prop) (a : Act) : Prop :=
  ∀ msg, a = .mqReceive (some msg) → ∃ code status, msg = frame code status ∧ codes code

variable {pdevhead : List Gdevice} {codes : Byte → Prop} {code : Byte} {score : ℚ} {tid : ℕ}
  {m : Memory} {h : HandlerThread} {s : System}

/-- Nothing is looked up before a code other than `0x40` has been received. -/
theorem CanBeLookedUp.exists_code (h : CanBeLookedUp pdevhead codes code) :
    ∃ c, codes c ∧ c ≠ 0x40 := by
  induction h with
  | own hcode h40 => exact ⟨_, hcode, h40⟩
  | overtaken _ hcode h40 => exact ⟨_, hcode, h40⟩
  | replied _ _ _ _ _ ih => exact ih

/-! ## A handler that survives -/

/-- The handler is between the gate and its reply.
Source: `receive_interface.c` `receive_thread_handler`
Kind: D -/
def BehindGate : Pc → Prop
  | .face | .pinMode .accepted | .digitalWrite .accepted | .reply => True
  | _ => False

/-- The handler has no record yet, or needs none any more.
Source: `receive_interface.c` `receive_thread_handler`
Kind: D -/
def NeedsNoRecord : Pc → Prop
  | .idTest | .lookup | .exited => True
  | _ => False

/-- The node of the control list the handler holds.
Source: `receive_interface.c` `receive_thread_handler`
Kind: D -/
def heldControl : Pc → Option Control
  | .fireCode pcontrol | .fireStatus pcontrol | .startSet pcontrol => some pcontrol
  | _ => none

/-- The invariant of a handler where every code that can be looked up has a record.
Source: `receive_interface.c` `receive_thread_handler`
Kind: D -/
structure Survives (pdevhead : List Gdevice) (codes : Byte → Prop) (h : HandlerThread) : Prop where
  passed : h.pc = .lookup → ∃ c, codes c ∧ c ≠ 0x40
  record : ∀ d, h.pcurGdevice = some d → ∃ c pdev, CanBeLookedUp pdevhead codes c ∧
    findGdeviceByKey pdevhead c.asInt = some d ∧ pdevhead[d]? = some pdev ∧
    (BehindGate h.pc → pdev.checkFaceStatus = 1)
  found : NeedsNoRecord h.pc ∨ h.pcurGdevice.isSome = true
  control : ∀ pcontrol ∈ heldControl h.pc, pcontrol.hasSet = true

theorem survives_init (pdevhead : List Gdevice) (codes : Byte → Prop) :
    Survives pdevhead codes HandlerThread.init :=
  ⟨fun h => (nomatch h), fun _ hd => (nomatch hd), Or.inl trivial, fun _ h => (nomatch h)⟩

/-- The record in memory of a handler that survives. -/
theorem Survives.exists_record (hs : Survives pdevhead codes h)
    (hconf : m.pdevhead.map Gdevice.config = pdevhead.map Gdevice.config)
    (hneeds : ¬ NeedsNoRecord h.pc) :
    ∃ pdev, h.pcurGdevice.bind (m.pdevhead[·]?) = some pdev := by
  obtain ⟨d, hd⟩ := Option.isSome_iff_exists.mp (hs.found.resolve_left hneeds)
  obtain ⟨c, pdev, -, -, hg, -⟩ := hs.record d hd
  obtain ⟨pdev', hg', -⟩ := exists_getElem?_of_map_config hconf.symm hg
  exact ⟨pdev', by rw [hd, Option.bind_some, hg']⟩

/-- **A handler that survives does not fault.**
Source: `receive_interface.c` `receive_thread_handler`
Kind: L -/
theorem Survives.fault_eq_none (hs : Survives pdevhead codes h)
    (hconf : m.pdevhead.map Gdevice.config = pdevhead.map Gdevice.config) :
    h.fault m.pdevhead = none := by
  unfold HandlerThread.fault
  cases hpc : h.pc with
  | idTest | lookup | level | face | reply | fireCode | fireStatus | exited => rfl
  | startSet pcontrol =>
      have hset := hs.control pcontrol (by simp [hpc, heldControl])
      simp [hset]
  | store | gate | pinMode | digitalWrite | voiceTest | oled | relockTest | relockStore =>
      obtain ⟨pdev, hd⟩ := hs.exists_record hconf (by simp [hpc, NeedsNoRecord])
      simp [hd]

/-- The handler goes on with its record. -/
theorem Survives.move (hs : Survives pdevhead codes h) {h' : HandlerThread}
    (hd : h'.pcurGdevice = h.pcurGdevice) (hlookup : h'.pc ≠ .lookup)
    (hgate : BehindGate h'.pc → BehindGate h.pc) (hneeds : ¬ NeedsNoRecord h.pc)
    (hcontrol : ∀ pcontrol ∈ heldControl h'.pc, pcontrol.hasSet = true) :
    Survives pdevhead codes h' := by
  refine ⟨fun h => absurd h hlookup, fun d hd' => ?_, ?_, hcontrol⟩
  · obtain ⟨c, pdev, hc, hfind, hg, hcheck⟩ := hs.record d (hd ▸ hd')
    exact ⟨c, pdev, hc, hfind, hg, fun h => hcheck (hgate h)⟩
  · rw [hd]
    exact Or.inr (hs.found.resolve_left hneeds)

/-- **A handler's step keeps the invariant**: it finds what it looks up.
Source: `receive_interface.c` `receive_thread_handler`
Kind: L -/
theorem survives_step (hconf : m.pdevhead.map Gdevice.config = pdevhead.map Gdevice.config)
    (hfound : ∀ c, CanBeLookedUp pdevhead codes c →
      (findGdeviceByKey pdevhead c.asInt).isSome = true)
    (hbuffer : codes (byteAt m.buffer 2) ∨ CanBeLookedUp pdevhead codes (byteAt m.buffer 2))
    (hs : Survives pdevhead codes h) (score : ℚ) :
    Survives pdevhead codes (h.step mainControls score tid m).2 := by
  have hthrough : ∀ {k : ℕ → Gdevice → Memory × HandlerThread},
      (∀ d pdev, h.pcurGdevice = some d → m.pdevhead[d]? = some pdev →
        Survives pdevhead codes (k d pdev).2) → Survives pdevhead codes (h.through m k).2 := fun hk =>
    HandlerThread.through_induction (P := fun x => Survives pdevhead codes x.2) hs hk
  unfold HandlerThread.step
  cases hpc : h.pc with
  | idTest =>
      refine ⟨fun hlookup => ?_, fun d hd => ?_, ?_, ?_⟩
      · by_cases h40 : byteAt m.buffer 2 = 0x40
        · simp [h40] at hlookup
        · rcases hbuffer with hcode | hseen
          · exact ⟨_, hcode, h40⟩
          · exact hseen.exists_code
      · obtain ⟨c, pdev, hc, hfind, hg, -⟩ := hs.record d hd
        refine ⟨c, pdev, hc, hfind, hg, ?_⟩
        by_cases h40 : byteAt m.buffer 2 = 0x40 <;> simp [h40, BehindGate]
      · by_cases h40 : byteAt m.buffer 2 = 0x40 <;> simp [h40, NeedsNoRecord]
      · by_cases h40 : byteAt m.buffer 2 = 0x40 <;> simp [h40, heldControl]
  | lookup =>
      -- what is read now is a code that can be looked up, so it has a record
      have hseen : CanBeLookedUp pdevhead codes (byteAt m.buffer 2) := by
        obtain ⟨c, hc, hc40⟩ := hs.passed hpc
        rcases hbuffer with hcode | hseen
        · by_cases h40 : byteAt m.buffer 2 = 0x40
          · rw [h40] at hcode ⊢
            exact .overtaken hcode hc hc40
          · exact .own hcode h40
        · exact hseen
      obtain ⟨d, hd⟩ := Option.isSome_iff_exists.mp (hfound _ hseen)
      obtain ⟨pdev, hg, -⟩ := exists_getElem?_of_find hd
      simp only [findGdeviceByKey_of_map_config hconf, hd, Option.isSome_some, if_true]
      refine ⟨by simp, fun d' hd' => ?_, Or.inr rfl, by simp [heldControl]⟩
      obtain rfl := Option.some.inj hd'
      exact ⟨_, pdev, hseen, hd, hg, by simp [BehindGate]⟩
  | level =>
      exact hs.move rfl (by simp) (by simp [BehindGate]) (by simp [hpc, NeedsNoRecord])
        (by simp [heldControl])
  | store status =>
      exact hthrough fun d pdev _ _ => hs.move rfl (by simp) (by simp [BehindGate])
        (by simp [hpc, NeedsNoRecord]) (by simp [heldControl])
  | gate =>
      refine hthrough fun d pdev hd hg => ?_
      obtain ⟨c, pdev', hc, hfind, hg', -⟩ := hs.record d hd
      have hcheck : pdev.checkFaceStatus = pdev'.checkFaceStatus := checkFaceStatus_eq hconf hg hg'
      refine ⟨?_, fun d' hd' => ?_, Or.inr (by simp [hd]), ?_⟩
      · by_cases hask : pdev.checkFaceStatus = 1 <;> simp [hask]
      · obtain rfl : d = d' := Option.some.inj (hd.symm.trans hd')
        refine ⟨c, pdev', hc, hfind, hg', fun hbehind => ?_⟩
        by_contra hask
        rw [← hcheck] at hask
        simp [hask, BehindGate] at hbehind
      · by_cases hask : pdev.checkFaceStatus = 1 <;> simp [hask, heldControl]
  | face =>
      refine hs.move rfl ?_ (by simp [hpc, BehindGate]) (by simp [hpc, NeedsNoRecord]) ?_
      all_goals cases accepted score <;> simp [heldControl]
  | pinMode site =>
      refine hthrough fun d pdev _ _ => hs.move rfl (by simp) ?_ (by simp [hpc, NeedsNoRecord])
        (by simp [heldControl])
      cases site <;> simp [hpc, BehindGate]
  | digitalWrite site =>
      refine hthrough fun d pdev _ _ => ?_
      cases site <;> exact hs.move rfl (by simp [HandlerThread.driven])
        (by simp [HandlerThread.driven, hpc, BehindGate]) (by simp [hpc, NeedsNoRecord])
        (by simp [HandlerThread.driven, heldControl])
  | reply =>
      exact hs.move rfl (by simp) (by simp [BehindGate]) (by simp [hpc, NeedsNoRecord])
        (by simp [heldControl])
  | voiceTest =>
      refine hthrough fun d pdev _ _ => ?_
      split_ifs
      · simp only [voiceSearch_mainControls]
        exact hs.move rfl (by simp) (by simp [BehindGate]) (by simp [hpc, NeedsNoRecord])
          (by simp [heldControl])
      · exact hs.move rfl (by simp) (by simp [BehindGate]) (by simp [hpc, NeedsNoRecord])
          (by simp [heldControl])
  | fireCode pcontrol =>
      have hset := hs.control pcontrol (by simp [hpc, heldControl])
      refine hs.move rfl ?_ ?_ (by simp [hpc, NeedsNoRecord]) ?_
      all_goals by_cases hcode : byteAt m.buffer 2 = 0x45 <;> simp [hcode, BehindGate, heldControl, hset]
  | fireStatus pcontrol =>
      have hset := hs.control pcontrol (by simp [hpc, heldControl])
      exact hs.move rfl (by simp) (by simp [BehindGate]) (by simp [hpc, NeedsNoRecord])
        (by simp [heldControl, hset])
  | startSet pcontrol =>
      simp only
      split_ifs
      · exact hs.move rfl (by simp) (by simp [BehindGate]) (by simp [hpc, NeedsNoRecord])
          (by simp [heldControl])
      · exact hs
  | oled =>
      exact hthrough fun d pdev _ _ => hs.move rfl (by simp) (by simp [BehindGate])
        (by simp [hpc, NeedsNoRecord]) (by simp [heldControl])
  | relockTest =>
      refine hthrough fun d pdev _ _ => hs.move rfl ?_ ?_ (by simp [hpc, NeedsNoRecord]) ?_
      all_goals
        by_cases hrelock : relocks pdev h.ret h.faceResult = true <;>
          simp [hrelock, BehindGate, heldControl]
  | relockStore =>
      exact hthrough fun d pdev _ _ => hs.move rfl (by simp) (by simp [BehindGate])
        (by simp [hpc, NeedsNoRecord]) (by simp [heldControl])
  | exited => exact hs

/-! ## The whole hub -/

/-- The invariant of a hub in which every code that can be looked up has a record.
Source: `receive_interface.c` `receive_get`, `receive_thread_handler`
Kind: D -/
structure AllSurvive (pdevhead : List Gdevice) (codes : Byte → Prop) (s : System) : Prop where
  config : s.mem.pdevhead.map Gdevice.config = pdevhead.map Gdevice.config
  alive : s.mem.crashed = none
  inHand : s.recv.pc = .marked → ∃ code status buf, codes code ∧
    s.recv = ⟨.marked, (frame code status).length, overlay (frame code status) buf⟩
  frame : s.recv.pc = .copied ∨ s.handlers ≠ [] →
    codes (byteAt s.mem.buffer 2) ∨ CanBeLookedUp pdevhead codes (byteAt s.mem.buffer 2)
  handlers : Each (fun _ => Survives pdevhead codes) s.handlers

theorem allSurvive_init (pdevhead : List Gdevice) (codes : Byte → Prop) :
    AllSurvive pdevhead codes (System.init pdevhead) := by
  refine ⟨rfl, rfl, fun h => (nomatch h), fun h => ?_, Each.nil⟩
  rcases h with h | h
  · exact (nomatch h)
  · exact absurd rfl h

theorem allSurvive_mqReceive (hs : AllSurvive pdevhead codes s) (hpc : s.recv.pc = .receiving)
    {result : Option (List Byte)}
    (hframe : ∀ msg, result = some msg → ∃ c st, msg = Device.frame c st ∧ codes c) :
    AllSurvive pdevhead codes { s with
      recv := Queue.mqReceive result s.recv
      dequeued := s.dequeued ++
        if (Queue.mqReceive result s.recv).pc = .marked then result.toList else [] } := by
  refine ⟨hs.config, hs.alive, fun hmarked => ?_, fun hcopied => hs.frame (hcopied.imp_left ?_),
    hs.handlers⟩
  · cases result with
    | none =>
        simp only [Queue.mqReceive, hpc] at hmarked
        cases hmarked
    | some msg =>
        obtain ⟨code, status, rfl, hcode⟩ := hframe msg rfl
        refine ⟨code, status, s.recv.buffer, hcode, ?_⟩
        simp only [Queue.mqReceive] at hmarked ⊢
        rw [hmarked]
  · intro hcopied
    cases result with
    | none => exact absurd (hpc.symm.trans hcopied) (by simp)
    | some msg =>
        simp only [Queue.mqReceive] at hcopied
        split_ifs at hcopied

theorem allSurvive_memcpy (hs : AllSurvive pdevhead codes s) (hpc : s.recv.pc = .marked) :
    AllSurvive pdevhead codes { s with
      mem := { s.mem with buffer := memcpyFrame s.recv s.mem.buffer }
      recv := { s.recv with pc := .copied } } := by
  obtain ⟨code, status, buf, hcode, hrecv⟩ := hs.inHand hpc
  refine ⟨hs.config, hs.alive, fun h => (nomatch h), fun _ => Or.inl ?_, hs.handlers⟩
  rw [hrecv, byteAt_memcpyFrame (by simp)]
  exact hcode

/-- The code in the frame after a step of a handler: the old one, or the reply of a face check, which
can be looked up. -/
theorem Survives.frame_step (hs : Survives pdevhead codes h)
    (hbuffer : codes (byteAt m.buffer 2) ∨ CanBeLookedUp pdevhead codes (byteAt m.buffer 2))
    (score : ℚ) :
    codes (byteAt (h.step mainControls score tid m).1.buffer 2) ∨
      CanBeLookedUp pdevhead codes (byteAt (h.step mainControls score tid m).1.buffer 2) := by
  rw [(h.step_effect mainControls score tid m).buffer]
  split_ifs with hreply
  · obtain ⟨d, hd⟩ := Option.isSome_iff_exists.mp
      (hs.found.resolve_left (by simp [hreply, NeedsNoRecord]))
    obtain ⟨c, pdev, hc, hfind, hg, hcheck⟩ := hs.record d hd
    have hface := CanBeLookedUp.replied hc hfind hg (hcheck (by simp [hreply, BehindGate])) h.faceResult
    by_cases hlen : 2 < m.buffer.length
    · right
      simpa [byteAt, hlen] using hface
    · have hset : m.buffer.set 2 (faceReply h.faceResult) = m.buffer :=
        List.set_eq_of_length_le (Nat.not_lt.mp hlen)
      rw [hset]
      exact hbuffer
  · exact hbuffer

theorem allSurvive_handler
    (hfound : ∀ c, CanBeLookedUp pdevhead codes c →
      (findGdeviceByKey pdevhead c.asInt).isSome = true)
    (hs : AllSurvive pdevhead codes s) (hh : s.handlers[tid]? = some h) :
    AllSurvive pdevhead codes { s with
      mem := (h.step mainControls score tid s.mem).1
      handlers := s.handlers.set tid (h.step mainControls score tid s.mem).2 } := by
  have hsome : s.handlers ≠ [] := List.ne_nil_of_mem (List.mem_of_getElem? hh)
  have hbuffer := hs.frame (Or.inr hsome)
  have hsurvives := hs.handlers tid h hh
  have hmoves := step_of_no_fault mainControls score tid (hsurvives.fault_eq_none hs.config)
  refine ⟨(h.step_effect mainControls score tid s.mem).config.trans hs.config,
    hmoves.crashed.trans hs.alive, hs.inHand, fun _ => hsurvives.frame_step hbuffer score, ?_⟩
  exact hs.handlers.set (survives_step hs.config hfound hbuffer hsurvives score) fun _ _ _ _ ht => ht

/-- Every step keeps the invariant.
Source: `receive_interface.c` `receive_get`, `receive_thread_handler`
Kind: L -/
theorem allSurvive_step
    (hfound : ∀ c, CanBeLookedUp pdevhead codes c →
      (findGdeviceByKey pdevhead c.asInt).isSome = true)
    (s : System) (a : Act) (hdelivers : DeliversCode codes a) (hs : AllSurvive pdevhead codes s) :
    AllSurvive pdevhead codes (s.step mainControls a) := by
  apply System.step_induction a hs
  · rintro result rfl hpc
    exact allSurvive_mqReceive hs hpc fun msg hmsg => hdelivers msg (hmsg ▸ rfl)
  · exact fun _ hpc => allSurvive_memcpy hs hpc
  · intro hpc
    refine ⟨hs.config, hs.alive, fun h => (nomatch h), fun _ => hs.frame (Or.inl hpc), ?_⟩
    exact hs.handlers.concat (survives_init _ _) fun _ _ _ ht => ht
  · exact fun tid score h _ hh => allSurvive_handler hfound hs hh
  · exact ⟨hs.config, hs.alive, hs.inHand, hs.frame, hs.handlers⟩

/-! ## Handlers in front of their lookups -/

/-- A handler that has passed the test for `0x40` and has looked up nothing.
Source: `receive_interface.c` `receive_thread_handler`
Kind: D -/
def parkedThread : HandlerThread := { HandlerThread.init with pc := .lookup }

/-- Some run on commands with codes of this kind comes by here.
Source: none: infrastructure. Kind: D -/
def ComesBy (pdevhead : List Gdevice) (codes : Byte → Prop) (s : System) : Prop :=
  ∃ acts, (∀ a ∈ acts, DeliversCode codes a) ∧ System.after mainControls pdevhead acts = s

/-- The hub lives and waits for a message, with `n` handlers parked at least.
Source: `receive_interface.c` `receive_get`, `receive_thread_handler`
Kind: D -/
structure Parks (pdevhead : List Gdevice) (n : ℕ) (s : System) : Prop where
  config : s.mem.pdevhead.map Gdevice.config = pdevhead.map Gdevice.config
  alive : s.mem.crashed = none
  waiting : s.recv.pc = .receiving
  length : 2 < s.mem.buffer.length
  parked : n ≤ s.handlers.count parkedThread

theorem parks_init (pdevhead : List Gdevice) : Parks pdevhead 0 (System.init pdevhead) := by
  refine ⟨rfl, rfl, rfl, ?_, Nat.zero_le _⟩
  change 2 < (List.replicate mqMsgsize (0 : Byte)).length
  rw [List.length_replicate]
  decide

theorem ComesBy.run (hs : ComesBy pdevhead codes s) {acts : List Act}
    (hacts : ∀ a ∈ acts, DeliversCode codes a) :
    ComesBy pdevhead codes (run (System.step mainControls) s acts) := by
  obtain ⟨before, hbefore, rfl⟩ := hs
  refine ⟨before ++ acts, fun a ha => ?_, run_append ..⟩
  exact (List.mem_append.mp ha).elim (hbefore a) (hacts a)

/-- Steps of a handler deliver nothing. -/
theorem deliversCode_handler (codes : Byte → Prop) (tid n : ℕ) (score : ℚ) :
    ∀ a ∈ List.replicate n (Act.handler tid score), DeliversCode codes a := by
  intro a ha msg hmsg
  rw [List.eq_of_mem_replicate ha] at hmsg
  cases hmsg

variable {n : ℕ}

/-- A frame is received, and its handler started. -/
theorem Parks.started (hp : Parks pdevhead n s) (hs : ComesBy pdevhead codes s) (hcode : codes code) :
    ComesBy pdevhead codes (s.started (frame code 0)) ∧ Parks pdevhead n (s.started (frame code 0)) ∧
      byteAt (s.started (frame code 0)).mem.buffer 2 = code := by
  refine ⟨?_, ⟨hp.config, hp.alive, rfl, ?_, ?_⟩, byteAt_overlay_of_lt _ (by simp)⟩
  · have hmark : frameMarked (frame code 0) = true :=
      (length_six_and_frameMarked_iff.mpr ⟨code, 0, rfl⟩).2
    rw [← run_receive mainControls hp.alive hp.waiting (by simp) hmark]
    refine hs.run fun a ha msg hmsg => ?_
    subst hmsg
    obtain rfl : msg = frame code 0 := by simpa using ha
    exact ⟨code, 0, rfl, hcode⟩
  · simp only [System.started, overlay, List.length_append, length_frame]
    omega
  · exact hp.parked.trans (by simp [System.started])

/-- A frame is received whose handler passes the test for `0x40`. -/
theorem Parks.parkOne (hp : Parks pdevhead n s) (hs : ComesBy pdevhead codes s) (hcode : codes code)
    (h40 : code ≠ 0x40) :
    ∃ s', ComesBy pdevhead codes s' ∧ Parks pdevhead (n + 1) s' ∧ byteAt s'.mem.buffer 2 = code := by
  obtain ⟨hs', hp', hbyte⟩ := hp.started hs hcode
  have hinit : (s.started (frame code 0)).handlers[s.handlers.length]? = some HandlerThread.init := by
    simp [System.started]
  have hrun := run_handler mainControls hinit hp'.alive 0 1
  have hstep : run (HandlerThread.alone mainControls s.handlers.length)
      ((s.started (frame code 0)).mem, HandlerThread.init) (List.replicate 1 0) =
        ((s.started (frame code 0)).mem, parkedThread) := by
    simp [HandlerThread.alone, HandlerThread.step, HandlerThread.init, parkedThread, hbyte, h40]
  have hcomes := hs'.run (deliversCode_handler codes s.handlers.length 1 0)
  rw [hrun, hstep] at hcomes
  refine ⟨_, hcomes, ⟨hp'.config, hp'.alive, rfl, hp'.length, ?_⟩, hbyte⟩
  have hset : (s.started (frame code 0)).handlers.set s.handlers.length parkedThread =
      s.handlers ++ [parkedThread] := by
    simp [System.started]
  simp only [hset, List.count_append, List.count_singleton_self]
  exact Nat.add_le_add_right hp.parked 1

/-- A parked handler. -/
theorem Parks.exists_parked (hp : Parks pdevhead (n + 1) s) :
    ∃ tid : ℕ, s.handlers[tid]? = some parkedThread := by
  have hpos : 0 < s.handlers.count parkedThread := lt_of_lt_of_le (Nat.succ_pos n) hp.parked
  exact List.mem_iff_getElem?.mp (List.count_pos_iff.mp hpos)

/-- One of the parked handlers is let go to its reply. -/
theorem Parks.reply (hp : Parks pdevhead (n + 1) s) (hs : ComesBy pdevhead codes s)
    (hbyte : byteAt s.mem.buffer 2 = code) {d : ℕ} {pdev : Gdevice}
    (hfind : findGdeviceByKey pdevhead code.asInt = some d) (hg : pdevhead[d]? = some pdev)
    (hcheck : pdev.checkFaceStatus = 1) (faceResult : ℚ) :
    ∃ s', ComesBy pdevhead codes s' ∧ Parks pdevhead n s' ∧
      byteAt s'.mem.buffer 2 = faceReply faceResult := by
  obtain ⟨tid, hh⟩ := hp.exists_parked
  obtain ⟨pdev', hg', hconfig⟩ := exists_getElem?_of_map_config hp.config.symm hg
  have hcheck' : pdev'.checkFaceStatus = 1 :=
    (checkFaceStatus_eq hp.config hg' hg).trans hcheck
  have hfind' : findGdeviceByKey s.mem.pdevhead code.asInt = some d := by
    rw [findGdeviceByKey_of_map_config hp.config, hfind]
  have hlookup : HandlerThread.alone mainControls tid (s.mem, parkedThread) faceResult =
      (s.mem.after tid ⟨s.mem.pdevhead, s.mem.buffer, [.findGdeviceByKey (some d)]⟩,
        ⟨.level, some d, -1, 0, -1, "success", some code, none⟩) := by
    simp [HandlerThread.alone, HandlerThread.step, parkedThread, HandlerThread.init, hfind',
      Memory.emit, Memory.after, hbyte]
  obtain ⟨out, l, hphase, htable, hsteps⟩ := command_alone mainControls faceResult tid s.mem
    (s := ⟨s.mem.pdevhead, s.mem.buffer, [.findGdeviceByKey (some d)]⟩) code hg'
  have hbuffer : out.buffer = s.mem.buffer.set 2 (faceReply faceResult) := by
    rw [commandPhase_of_find hg'] at hphase
    obtain ⟨rfl, -⟩ := Prod.mk.inj (Except.ok.inj hphase)
    simp [repliedBuffer, hcheck']
  obtain ⟨k, hk⟩ := Repeats.head hlookup hsteps
  have hrun := run_handler mainControls hh hp.alive faceResult k
  have hcomes := hs.run (deliversCode_handler codes tid k faceResult)
  rw [hrun, hk] at hcomes
  refine ⟨_, hcomes, ⟨?_, hp.alive, hp.waiting, ?_, ?_⟩, ?_⟩
  · simp only [Memory.after_pdevhead, htable, map_config_setStatus]
    exact hp.config
  · simp only [Memory.after_buffer, hbuffer, List.length_set]
    exact hp.length
  · obtain ⟨hlt, -⟩ := List.getElem?_eq_some_iff.mp hh
    have hparked := hp.parked
    simp only [List.count_set hlt]
    split_ifs <;> omega
  · have hlen := hp.length
    simp [hbuffer, byteAt, hlen]

/-- A frame after the other, each of whose handlers is parked. -/
theorem exists_parked_own (hcode : codes code) (h40 : code ≠ 0x40) (n : ℕ) :
    ∃ s, ComesBy pdevhead codes s ∧ Parks pdevhead n s ∧ byteAt s.mem.buffer 2 = code := by
  induction n with
  | zero => exact ⟨_, (parks_init pdevhead).started ⟨[], by simp, rfl⟩ hcode⟩
  | succ n ih =>
      obtain ⟨s, hs, hp, -⟩ := ih
      exact hp.parkOne hs hcode h40

/-- **Any code that can be looked up is in the frame with any number of handlers about to look it
up**: by induction on how it can be.
Source: `receive_interface.c` `receive_get`, `receive_thread_handler`
Kind: L -/
theorem exists_parked (h : CanBeLookedUp pdevhead codes code) (n : ℕ) :
    ∃ s, ComesBy pdevhead codes s ∧ Parks pdevhead n s ∧ byteAt s.mem.buffer 2 = code := by
  induction h generalizing n with
  | own hcode h40 => exact exists_parked_own hcode h40 n
  | overtaken hdropped hcode h40 =>
      obtain ⟨s, hs, hp, -⟩ := exists_parked_own hcode h40 n
      exact ⟨_, hp.started hs hdropped⟩
  | replied h hfind hg hcheck faceResult ih =>
      obtain ⟨s, hs, hp, hbyte⟩ := ih (n + 1)
      exact hp.reply hs hbyte hfind hg hcheck faceResult

/-- A parked handler that finds no record dies with its next step. -/
theorem Parks.crash (hp : Parks pdevhead 1 s) (hs : ComesBy pdevhead codes s)
    (hnone : findGdeviceByKey pdevhead (byteAt s.mem.buffer 2).asInt = none) :
    ∃ s', ComesBy pdevhead codes s' ∧ s'.mem.crashed.isSome = true := by
  obtain ⟨tid, hh⟩ := hp.exists_parked
  have hnone' : findGdeviceByKey s.mem.pdevhead (byteAt s.mem.buffer 2).asInt = none := by
    rw [findGdeviceByKey_of_map_config hp.config, hnone]
  have hcomes := hs.run (deliversCode_handler codes tid 2 0)
  rw [run_handler mainControls hh hp.alive] at hcomes
  refine ⟨_, hcomes, ?_⟩
  simp [HandlerThread.alone, HandlerThread.step, parkedThread, HandlerThread.init, hnone',
    HandlerThread.through, List.replicate]

/-! ## Comparison -/

/-- **Exactly when the hub can be killed**: on every device table, some interleaving of
`receive_get`, its handlers and the announcements, on command frames with codes of the given kind,
goes through a `NULL` if and only if some code that can be looked up has no record.
Source: `receive_interface.c` `receive_get`, `receive_thread_handler`
Kind: P -/
theorem exists_crash_iff (pdevhead : List Gdevice) (codes : Byte → Prop) :
    (∃ acts, (∀ a ∈ acts, DeliversCode codes a) ∧
        (System.after mainControls pdevhead acts).mem.crashed.isSome = true) ↔
      ∃ code, CanBeLookedUp pdevhead codes code ∧ findGdeviceByKey pdevhead code.asInt = none := by
  constructor
  · rintro ⟨acts, hacts, hcrash⟩
    by_contra hall
    have hfound : ∀ c, CanBeLookedUp pdevhead codes c →
        (findGdeviceByKey pdevhead c.asInt).isSome = true := by
      intro c hc
      by_contra hnone
      exact hall ⟨c, hc, Option.not_isSome_iff_eq_none.mp hnone⟩
    have hrun : Meets (System.step mainControls) (fun _ a => DeliversCode codes a)
        (System.init pdevhead) acts := Meets.of_forall_mem hacts
    have hs : AllSurvive pdevhead codes (System.after mainControls pdevhead acts) :=
      hrun.invariant (allSurvive_step hfound) (allSurvive_init pdevhead codes)
    simp [hs.alive] at hcrash
  · rintro ⟨code, hcode, hnone⟩
    obtain ⟨s, hs, hp, hbyte⟩ := exists_parked hcode 1
    obtain ⟨s', ⟨acts, hacts, rfl⟩, hcrash⟩ := hp.crash hs (by rw [hbyte, hnone])
    exact ⟨acts, hacts, hcrash⟩

/-- With the shipped configuration the lock's own code is enough: its reply has no record. -/
example : CanBeLookedUp (gdeviceTable shippedCalls) (· = 0x44) 0x47 ∧
    findGdeviceByKey (gdeviceTable shippedCalls) (Byte.asInt 0x47) = none := by
  have hreply : faceReply 1 = 0x47 := by decide +kernel
  have hlock : findGdeviceByKey (gdeviceTable shippedCalls) (Byte.asInt 0x44) = some 4 := by
    decide +kernel
  have hown : CanBeLookedUp (gdeviceTable shippedCalls) (· = 0x44) 0x44 := .own rfl (by decide)
  refine ⟨?_, by decide +kernel⟩
  rw [← hreply]
  exact hown.replied hlock rfl (by decide +kernel) 1

end SmartHome.Concurrent
