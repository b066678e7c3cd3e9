import Mathlib.Data.List.Perm.Basic
import SmartHome.Concurrent.System
import SmartHome.Device.IniHandler

/-!
# Whether every command is carried out once

`receive_get` allocates one `receive_msg` and gives its address to every handler it starts, so what a
handler reads is the frame that is in the buffer *then*. A handler reads the code twice and the status
once (`readsLeft` lists the bytes it has still to read); two things write the buffer meanwhile: the
next `memcpy`, and the reply of another handler's face check (`System.frameWrite`).

`CommandsOnce` compares what the handlers used with what was dequeued, as multisets. It holds in every
state of a run in which no such write changes a byte that somebody has still to read
(`Undisturbed`, `commandsOnce_of_undisturbed`); two commands in quick succession are enough to break it
(`second_command_overwrites_first`).

The invariant `OwnCommands` is positional, and stronger than the multiset equality: handler number `i`
uses the bytes of the `i`-th message dequeued.
-/

set_option autoImplicit false

namespace SmartHome.Concurrent

open SmartHome.Device SmartHome.Controls SmartHome.Found SmartHome.Handler SmartHome.Queue
open scoped List

/-! ## Commands used, commands received -/

/-- The command a handler has carried out: the code of its lookup and the status of its level, unless
the code is `0x40`.
Source: none: what an observer compares. Kind: D -/
def usedPair (h : HandlerThread) : Option (Byte × Byte) :=
  match h.code, h.status with
  | some code, some status => if code = 0x40 then none else some (code, status)
  | _, _ => none

/-- The command in a message, unless its code is `0x40`.
Source: none: what an observer compares. Kind: D -/
def commandPair (msg : List Byte) : Option (Byte × Byte) :=
  if byteAt msg 2 = 0x40 then none else some (byteAt msg 2, byteAt msg 3)

/-- The handler has done its reads: it has dropped a `0x40`, or taken its level.
Source: none: what an observer compares. Kind: D -/
def HasRead (h : HandlerThread) : Prop :=
  (h.pc = .exited ∧ h.code = none) ∨ h.status.isSome = true

/-- The message dequeued for which no handler has been started yet.
Source: none: what an observer compares. Kind: D -/
def System.inHand (s : System) : List (List Byte) :=
  if s.recv.pc = .receiving then [] else s.dequeued.getLast?.toList

/-- **No command is lost, duplicated or mixed**: once every started handler has done its reads, the
commands used, and the one in hand, are the commands dequeued.
Source: none: the purpose of the receiver. Kind: D -/
def CommandsOnce (s : System) : Prop :=
  (∀ h ∈ s.handlers, HasRead h) →
    s.handlers.filterMap usedPair ++ s.inHand.filterMap commandPair ~
      s.dequeued.filterMap commandPair

/-! ## The condition -/

/-- The bytes of the frame a handler has still to read for its lookup and its level. One that is
about to drop the code `0x40` reads no status.
Source: `receive_interface.c` `receive_thread_handler`
Kind: D -/
def readsLeft (h : HandlerThread) (buffer : List Byte) : List ℕ :=
  match h.pc with
  | .idTest => if byteAt buffer 2 = 0x40 then [2] else [2, 3]
  | .lookup => [2, 3]
  | .level => [3]
  | _ => []

/-- Somebody has still to read byte `k` of the frame: a started handler, or the one about to be
started for the frame just copied.
Source: `receive_interface.c` `receive_get`, `receive_thread_handler`
Kind: D -/
def System.awaits (s : System) (k : ℕ) : Prop :=
  (s.recv.pc = .copied ∧ k ∈ readsLeft HandlerThread.init s.mem.buffer) ∨
    ∃ h ∈ s.handlers, k ∈ readsLeft h s.mem.buffer

/-- The byte that the next step is about to put at position `k` of the frame: a `memcpy` puts the byte
of the local buffer there, the reply of a face check writes the code.
Source: `receive_interface.c` `receive_get`, `receive_thread_handler`
Kind: D -/
def System.frameWrite (s : System) (a : Act) (k : ℕ) : Option Byte :=
  match a with
  | .memcpy => if s.recv.pc = .marked then some (byteAt s.recv.buffer k) else none
  | .handler tid _ => s.handlers[tid]?.bind fun h =>
      if h.pc = .reply ∧ k = 2 then some (faceReply h.faceResult) else none
  | _ => none

/-- The step changes no byte of the frame that somebody has still to read.
Source: none: the condition on the schedule. Kind: D -/
def Undisturbed (s : System) (a : Act) : Prop :=
  ∀ k b, s.awaits k → s.frameWrite a k = some b → b = byteAt s.mem.buffer k

/-- Messages are complete valid frames.
Source: none: the condition on the queue. Kind: D -/
def DeliversFrame (a : Act) : Prop :=
  ∀ msg, a = .mqReceive (some msg) → ∃ code status, msg = frame code status

/-! ## A handler on its own frame -/

variable {controlPhead : List Control} {m : Memory} {h : HandlerThread} {code status : Byte}
  {buffer : List Byte}

/-- Past its reads, a handler has used the frame's code and status, except that a `0x40` is dropped
and an unresolved command never gets to the status.
Source: `receive_interface.c` `receive_thread_handler`
Kind: D -/
def Taken (code status : Byte) (h : HandlerThread) : Prop :=
  (h.code = none ∧ h.status = none ∧ code = 0x40) ∨
    (h.code = some code ∧ h.status = none ∧ h.pc = .voiceTest ∧ h.pcurGdevice = none) ∨
    (h.code = some code ∧ h.status = some status ∧ code ≠ 0x40)

/-- The invariant of a handler started for the frame with this code and status: the bytes it has still
to read are in the buffer, but for the status of a code that is dropped; those it has read are noted.
Source: `receive_interface.c` `receive_thread_handler`
Kind: D -/
def TakesOwn (buffer : List Byte) (code status : Byte) (h : HandlerThread) : Prop :=
  match h.pc with
  | .idTest => h.code = none ∧ h.status = none ∧ byteAt buffer 2 = code ∧
      (code ≠ 0x40 → byteAt buffer 3 = status)
  | .lookup => h.code = none ∧ h.status = none ∧ byteAt buffer 2 = code ∧ byteAt buffer 3 = status ∧
      code ≠ 0x40
  | .level => h.code = some code ∧ h.status = none ∧ byteAt buffer 3 = status ∧ code ≠ 0x40
  | _ => Taken code status h

theorem takesOwn_init (h₂ : byteAt buffer 2 = code) (h₃ : byteAt buffer 3 = status) :
    TakesOwn buffer code status HandlerThread.init := ⟨rfl, rfl, h₂, fun _ => h₃⟩

/-- A change of the frame that spares the bytes still to be read. -/
theorem TakesOwn.congr (ht : TakesOwn buffer code status h) {buffer' : List Byte}
    (hkeep : ∀ k ∈ readsLeft h buffer, byteAt buffer' k = byteAt buffer k) :
    TakesOwn buffer' code status h := by
  unfold TakesOwn at ht ⊢
  unfold readsLeft at hkeep
  cases hpc : h.pc with
  | idTest =>
      simp only [hpc] at ht hkeep ⊢
      obtain ⟨hc, hs, h₂, h₃⟩ := ht
      refine ⟨hc, hs, (hkeep 2 ?_).trans h₂, fun h40 => (hkeep 3 ?_).trans (h₃ h40)⟩
      · split_ifs <;> simp
      · rw [if_neg (h₂.symm ▸ h40)]
        simp
  | lookup =>
      simp only [hpc] at ht hkeep ⊢
      rwa [hkeep 2 (by simp), hkeep 3 (by simp)]
  | level =>
      simp only [hpc] at ht hkeep ⊢
      rwa [hkeep 3 (by simp)]
  | _ => simpa only [hpc] using ht

/-- The handler is past its reads. Source: none: infrastructure. Kind: D -/
def PastReads (h : HandlerThread) : Prop := h.pc ≠ .idTest ∧ h.pc ≠ .lookup ∧ h.pc ≠ .level

theorem takesOwn_iff_of_past (hpast : PastReads h) :
    TakesOwn buffer code status h ↔ Taken code status h := by
  obtain ⟨hid, hlookup, hlevel⟩ := hpast
  unfold TakesOwn
  split <;> simp_all

/-- Only the code and the status are read. -/
theorem readsLeft_subset : readsLeft h buffer ⊆ [2, 3] := by
  unfold readsLeft
  split
  · split_ifs <;> simp
  all_goals simp

/-- What a handler keeps once its reads are done. -/
structure KeepsTaken (h h' : HandlerThread) : Prop where
  code : h'.code = h.code
  status : h'.status = h.status
  past : PastReads h'

/-- Past its reads, a step notes nothing more and never goes back to them. -/
theorem step_keepsTaken (controlPhead : List Control) (score : ℚ) (tid : ℕ) (m : Memory)
    (hpast : PastReads h) : KeepsTaken h (h.step controlPhead score tid m).2 := by
  have hstay : KeepsTaken h h := ⟨rfl, rfl, hpast⟩
  have hthrough : ∀ k : ℕ → Gdevice → Memory × HandlerThread,
      (∀ d pdev, KeepsTaken h (k d pdev).2) → KeepsTaken h (h.through m k).2 := fun k hk =>
    HandlerThread.through_induction (P := fun x => KeepsTaken h x.2) hstay fun d pdev _ _ => hk d pdev
  unfold HandlerThread.step
  cases hpc : h.pc with
  | idTest => exact absurd hpc hpast.1
  | lookup => exact absurd hpc hpast.2.1
  | level => exact absurd hpc hpast.2.2
  | store | pinMode | oled | relockStore =>
      exact hthrough _ fun _ _ => ⟨rfl, rfl, by simp [PastReads]⟩
  | gate =>
      apply hthrough
      intro d pdev
      refine ⟨rfl, rfl, ?_⟩
      by_cases hcheck : pdev.checkFaceStatus = 1 <;> simp [PastReads, hcheck]
  | face =>
      refine ⟨rfl, rfl, ?_⟩
      cases accepted score <;> simp [PastReads]
  | digitalWrite site =>
      apply hthrough
      intro d pdev
      cases site <;> exact ⟨rfl, rfl, by simp [PastReads, HandlerThread.driven]⟩
  | reply | fireStatus => exact ⟨rfl, rfl, by simp [PastReads]⟩
  | voiceTest =>
      apply hthrough
      intro d pdev
      split_ifs
      · cases voiceSearch controlPhead <;> exact ⟨rfl, rfl, by simp [PastReads]⟩
      · exact ⟨rfl, rfl, by simp [PastReads]⟩
  | fireCode pcontrol =>
      refine ⟨rfl, rfl, ?_⟩
      by_cases hcode : byteAt m.buffer 2 = 0x45 <;> simp [PastReads, hcode]
  | startSet pcontrol =>
      simp only
      split_ifs
      · exact ⟨rfl, rfl, by simp [PastReads]⟩
      · exact hstay
  | relockTest =>
      apply hthrough
      intro d pdev
      refine ⟨rfl, rfl, ?_⟩
      by_cases hrelock : relocks pdev h.ret h.faceResult = true <;> simp [PastReads, hrelock]
  | exited => exact hstay

/-- **A handler's own step keeps it on its own frame.**
Source: `receive_interface.c` `receive_thread_handler`
Kind: L -/
theorem takesOwn_step (controlPhead : List Control) (score : ℚ) (tid : ℕ) (m : Memory)
    (ht : TakesOwn m.buffer code status h) :
    TakesOwn (h.step controlPhead score tid m).1.buffer code status
      (h.step controlPhead score tid m).2 := by
  by_cases hpast : PastReads h
  · have hkeep := step_keepsTaken controlPhead score tid m hpast
    rw [takesOwn_iff_of_past hkeep.past]
    rw [takesOwn_iff_of_past hpast] at ht
    rcases ht with ⟨hc, hs, h40⟩ | ⟨hc, hs, hpc, hd⟩ | ⟨hc, hs, h40⟩
    · exact Or.inl ⟨hkeep.code.trans hc, hkeep.status.trans hs, h40⟩
    · -- an unresolved command dies at the voice test
      have hdies : (h.step controlPhead score tid m).2 = h := by
        simp only [HandlerThread.step, hpc, HandlerThread.through, hd]
      rw [hdies]
      exact Or.inr (Or.inl ⟨hc, hs, hpc, hd⟩)
    · exact Or.inr (Or.inr ⟨hkeep.code.trans hc, hkeep.status.trans hs, h40⟩)
  · unfold HandlerThread.step
    cases hpc : h.pc with
    | idTest =>
        simp only [TakesOwn, hpc] at ht
        obtain ⟨hc, hs, h₂, h₃⟩ := ht
        by_cases h40 : byteAt m.buffer 2 = 0x40
        · simp only [h40, if_true, TakesOwn]
          exact Or.inl ⟨hc, hs, h₂ ▸ h40⟩
        · simp only [h40, if_false, TakesOwn]
          exact ⟨hc, hs, h₂, h₃ (h₂ ▸ h40), h₂ ▸ h40⟩
    | lookup =>
        simp only [TakesOwn, hpc] at ht
        obtain ⟨hc, hs, h₂, h₃, h40⟩ := ht
        cases hfind : findGdeviceByKey m.pdevhead (byteAt m.buffer 2).asInt with
        | none =>
            simp only [Option.isSome_none, Bool.false_eq_true, if_false, TakesOwn]
            exact Or.inr (Or.inl ⟨congrArg some h₂, hs, rfl, rfl⟩)
        | some d =>
            simp only [Option.isSome_some, if_true, TakesOwn]
            exact ⟨congrArg some h₂, hs, h₃, h40⟩
    | level =>
        simp only [TakesOwn, hpc] at ht
        obtain ⟨hc, hs, h₃, h40⟩ := ht
        simp only [TakesOwn]
        exact Or.inr (Or.inr ⟨hc, congrArg some h₃, h40⟩)
    | _ => exact absurd (by simp [PastReads, hpc]) hpast

/-! ## The whole hub -/

/-- The invariant of the hub: handler number `i` takes the `i`-th message dequeued, and the message in
hand is in the local buffer, and in the shared one once it is copied.
Source: `receive_interface.c` `receive_get`, `receive_thread_handler`
Kind: D -/
structure OwnCommands (s : System) : Prop where
  handlers : Each (fun i h => ∃ code status, s.dequeued[i]? = some (frame code status) ∧
    TakesOwn s.mem.buffer code status h) s.handlers
  count : s.recv.pc = .receiving → s.dequeued.length = s.handlers.length
  inHand : s.recv.pc ≠ .receiving → ∃ earlier code status buf,
    s.dequeued = earlier ++ [frame code status] ∧ earlier.length = s.handlers.length ∧
      s.recv = ⟨s.recv.pc, (frame code status).length, overlay (frame code status) buf⟩ ∧
      (s.recv.pc = .copied → TakesOwn s.mem.buffer code status HandlerThread.init)

theorem ownCommands_init (pdevhead : List Gdevice) : OwnCommands (System.init pdevhead) :=
  ⟨Each.nil, fun _ => rfl, fun h => absurd rfl h⟩

variable {s : System}

/-- A complete frame is marked, and is in hand once it is received. -/
theorem ownCommands_mqReceive (hs : OwnCommands s) (hpc : s.recv.pc = .receiving)
    (result : Option (List Byte)) (hframe : ∀ msg, result = some msg → ∃ c st, msg = frame c st) :
    OwnCommands { s with
      recv := Queue.mqReceive result s.recv
      dequeued := s.dequeued ++
        if (Queue.mqReceive result s.recv).pc = .marked then result.toList else [] } := by
  cases result with
  | none =>
      have hstay : (Queue.mqReceive none s.recv).pc = .receiving := hpc
      simp only [hstay, reduceCtorEq, if_false, List.append_nil]
      exact ⟨hs.handlers, fun _ => hs.count hpc, fun hne => absurd hstay hne⟩
  | some msg =>
      obtain ⟨code, status, rfl⟩ := hframe msg rfl
      have hmark : frameMarked (overlay (frame code status) s.recv.buffer) = true := by
        rw [frameMarked_overlay_of_six_le _ (by simp)]
        exact (length_six_and_frameMarked_iff.mpr ⟨code, status, rfl⟩).2
      have hmarked : Queue.mqReceive (some (frame code status)) s.recv =
          ⟨.marked, (frame code status).length, overlay (frame code status) s.recv.buffer⟩ := by
        simp only [Queue.mqReceive, hmark, if_true]
      simp only [hmarked, if_true, Option.toList_some]
      refine ⟨?_, fun h => by simp at h, fun _ => ?_⟩
      · refine hs.handlers.mono ?_
        rintro i h hi ⟨c, st, hmsg, ht⟩
        refine ⟨c, st, ?_, ht⟩
        rw [List.getElem?_append_left (List.getElem?_eq_some_iff.mp hmsg).1, hmsg]
      · exact ⟨s.dequeued, code, status, s.recv.buffer, rfl, hs.count hpc, rfl, fun h => by simp at h⟩

theorem ownCommands_memcpy (hs : OwnCommands s) (hpc : s.recv.pc = .marked)
    (hund : Undisturbed s .memcpy) :
    OwnCommands { s with
      mem := { s.mem with buffer := memcpyFrame s.recv s.mem.buffer }
      recv := { s.recv with pc := .copied } } := by
  obtain ⟨earlier, code, status, buf, hdequeued, hlen, hrecv, -⟩ := hs.inHand (by simp [hpc])
  have hcopied : ∀ k < 6, byteAt (memcpyFrame s.recv s.mem.buffer) k = byteAt s.recv.buffer k := by
    intro k hk
    rw [hrecv, byteAt_memcpyFrame (by simpa using hk), byteAt_overlay_of_lt _ (by simpa using hk)]
  refine ⟨?_, fun h => by simp at h, fun _ => ?_⟩
  · refine hs.handlers.mono ?_
    rintro i h hi ⟨c, st, hmsg, ht⟩
    refine ⟨c, st, hmsg, ht.congr fun k hk => ?_⟩
    -- a byte the handler has still to read is copied onto itself
    have hk6 : k < 6 := by
      have := readsLeft_subset hk
      simp only [List.mem_cons, List.not_mem_nil, or_false] at this
      omega
    have hsame : byteAt s.recv.buffer k = byteAt s.mem.buffer k :=
      hund k _ (Or.inr ⟨h, List.mem_of_getElem? hi, hk⟩) (if_pos hpc)
    exact (hcopied k hk6).trans hsame
  · refine ⟨earlier, code, status, buf, hdequeued, hlen, by rw [hrecv], fun _ => ?_⟩
    refine takesOwn_init ((hcopied 2 (by decide)).trans ?_) ((hcopied 3 (by decide)).trans ?_)
    all_goals
      rw [hrecv, byteAt_overlay_of_lt _ (by simp)]
      rfl

theorem ownCommands_pthreadCreate (hs : OwnCommands s) (hpc : s.recv.pc = .copied) :
    OwnCommands { s with
      recv := { s.recv with pc := .receiving }
      handlers := s.handlers ++ [HandlerThread.init] } := by
  obtain ⟨earlier, code, status, buf, hdequeued, hlen, -, hcopied⟩ := hs.inHand (by simp [hpc])
  refine ⟨?_, fun _ => by simp [hdequeued, hlen], fun h => absurd rfl h⟩
  refine hs.handlers.concat ⟨code, status, ?_, hcopied hpc⟩ fun _ _ _ h => h
  rw [← hlen, hdequeued]
  simp

theorem byteAt_set_of_ne (buffer : List Byte) {i k : ℕ} (b : Byte) (h : i ≠ k) :
    byteAt (buffer.set i b) k = byteAt buffer k := by
  unfold byteAt
  rw [List.getD_eq_getElem?_getD, List.getD_eq_getElem?_getD, List.getElem?_set_ne h]

theorem ownCommands_handler (hs : OwnCommands s) {tid : ℕ} {score : ℚ}
    (hh : s.handlers[tid]? = some h) (hund : Undisturbed s (.handler tid score)) :
    OwnCommands { s with
      mem := (h.step controlPhead score tid s.mem).1
      handlers := s.handlers.set tid (h.step controlPhead score tid s.mem).2 } := by
  have heffect := h.step_effect controlPhead score tid s.mem
  -- the step changes no byte that somebody has still to read
  have hkeep : ∀ k, s.awaits k →
      byteAt (h.step controlPhead score tid s.mem).1.buffer k = byteAt s.mem.buffer k := by
    intro k hk
    rw [heffect.buffer]
    split_ifs with hreply
    · by_cases hk2 : 2 = k
      · have hwrite : s.frameWrite (.handler tid score) k = some (faceReply h.faceResult) := by
          simp [System.frameWrite, hh, hreply, hk2]
        have hsame := hund k _ hk hwrite
        rw [← hk2] at hsame
        rw [set_eq_self_of_byteAt hsame]
      · exact byteAt_set_of_ne _ _ hk2
    · rfl
  refine ⟨?_, ?_, ?_⟩
  · obtain ⟨code, status, hmsg, ht⟩ := hs.handlers tid h hh
    refine hs.handlers.set ⟨code, status, hmsg, takesOwn_step controlPhead score tid s.mem ht⟩ ?_
    rintro j t - hj ⟨c, st, hmsg', ht'⟩
    exact ⟨c, st, hmsg', ht'.congr fun k hk => hkeep k (Or.inr ⟨t, List.mem_of_getElem? hj, hk⟩)⟩
  · intro hpc
    rw [List.length_set]
    exact hs.count hpc
  · intro hpc
    obtain ⟨earlier, code, status, buf, hdequeued, hlen, hrecv, hcopied⟩ := hs.inHand hpc
    refine ⟨earlier, code, status, buf, hdequeued, by rw [List.length_set, hlen], hrecv, fun hc => ?_⟩
    exact (hcopied hc).congr fun k hk => hkeep k (Or.inl ⟨hc, hk⟩)

theorem ownCommands_step (s : System) (a : Act) (hok : DeliversFrame a ∧ Undisturbed s a)
    (hs : OwnCommands s) : OwnCommands (s.step controlPhead a) := by
  obtain ⟨hframe, hund⟩ := hok
  apply System.step_induction a hs
  · rintro result rfl hpc
    exact ownCommands_mqReceive hs hpc result fun msg hmsg => hframe msg (hmsg ▸ rfl)
  · rintro rfl hpc
    exact ownCommands_memcpy hs hpc hund
  · exact ownCommands_pthreadCreate hs
  · rintro tid score h rfl hh
    exact ownCommands_handler hs hh hund
  · exact ⟨hs.handlers, hs.count, hs.inHand⟩

/-! ## Comparison -/

/-- A handler that has done its reads has used its frame's command. -/
theorem usedPair_eq (ht : TakesOwn buffer code status h) (hread : HasRead h) :
    usedPair h = commandPair (frame code status) := by
  have hpast : PastReads h := by
    unfold TakesOwn at ht
    refine ⟨?_, ?_, ?_⟩
    all_goals
      intro hpc
      simp only [hpc] at ht
      simp [HasRead, hpc, ht.2.1] at hread
  rw [takesOwn_iff_of_past hpast] at ht
  unfold usedPair commandPair
  rw [byteAt_frame_two, byteAt_frame_three]
  rcases ht with ⟨hc, hs, h40⟩ | ⟨hc, hs, hpc, -⟩ | ⟨hc, hs, h40⟩
  · simp [hc, h40]
  · simp [HasRead, hc, hs] at hread
  · simp [hc, hs, h40]

theorem OwnCommands.dequeued_eq (hs : OwnCommands s) :
    s.dequeued = s.dequeued.take s.handlers.length ++ s.inHand := by
  unfold System.inHand
  split_ifs with hpc
  · rw [← hs.count hpc, List.take_length, List.append_nil]
  · obtain ⟨earlier, code, status, buf, hdequeued, hlen, -⟩ := hs.inHand hpc
    rw [hdequeued, ← hlen, List.take_left, List.getLast?_concat]
    rfl

/-- The handlers have used the commands of their messages, in order. -/
theorem OwnCommands.used_eq (hs : OwnCommands s) (hread : ∀ h ∈ s.handlers, HasRead h) :
    s.handlers.filterMap usedPair ++ s.inHand.filterMap commandPair =
      s.dequeued.filterMap commandPair := by
  have hpairs : s.handlers.map usedPair =
      (s.dequeued.take s.handlers.length).map commandPair := by
    apply List.ext_getElem?
    intro i
    rw [List.getElem?_map, List.getElem?_map]
    by_cases hi : i < s.handlers.length
    · have hh := List.getElem?_eq_getElem hi
      obtain ⟨code, status, hmsg, ht⟩ := hs.handlers i _ hh
      rw [List.getElem?_take_of_lt hi, hmsg, hh, Option.map_some, Option.map_some,
        usedPair_eq ht (hread _ (List.mem_of_getElem? hh))]
    · rw [Nat.not_lt] at hi
      have htake : (s.dequeued.take s.handlers.length).length ≤ i :=
        (List.length_take_le _ _).trans hi
      rw [List.getElem?_eq_none hi, List.getElem?_eq_none htake]
      rfl
  have hused : s.handlers.filterMap usedPair =
      (s.dequeued.take s.handlers.length).filterMap commandPair := by
    have := congrArg (List.filterMap id) hpairs
    simpa only [List.filterMap_map, Function.id_comp] using this
  have hall := congrArg (List.filterMap commandPair) hs.dequeued_eq
  rw [List.filterMap_append] at hall
  rw [hused, ← hall]

theorem OwnCommands.commandsOnce (hs : OwnCommands s) : CommandsOnce s :=
  fun hread => hs.used_eq hread ▸ List.Perm.refl _

/-- **When every command is carried out once**: in a run on complete valid frames in which no step changes
a byte of the shared frame that some handler has still to read, in every state reached the commands
used by the handlers, once these have done their reads, are those dequeued.
Source: `receive_interface.c` `receive_get`, `receive_thread_handler`
Kind: P -/
theorem commandsOnce_of_undisturbed (controlPhead : List Control) (pdevhead : List Gdevice)
    (acts : List Act) (hframes : ∀ a ∈ acts, DeliversFrame a)
    (hund : Meets (System.step controlPhead) Undisturbed (System.init pdevhead) acts) :
    ∀ p, p <+: acts → CommandsOnce (System.after controlPhead pdevhead p) := by
  intro p hp
  have hboth := hund.and_of_forall_mem hframes
  exact (hboth.invariant_of_prefix (fun s a ⟨hu, hf⟩ hs => ownCommands_step s a ⟨hf, hu⟩ hs)
    (ownCommands_init pdevhead) hp).commandsOnce

/-! ### In turn, and overtaken -/

instance (s : System) (k : ℕ) : Decidable (s.awaits k) := inferInstanceAs (Decidable (_ ∨ _))

/-- Only the code and the status are awaited, so the condition can be evaluated. -/
theorem undisturbed_iff {a : Act} :
    Undisturbed s a ↔ ∀ k ∈ [2, 3], s.awaits k →
      (s.frameWrite a k).all (fun b => b = byteAt s.mem.buffer k) = true := by
  simp only [Option.all_eq_true, decide_eq_true_eq]
  refine ⟨fun h k _ hk b => h k b hk, fun h k b hk => h k ?_ hk b⟩
  rcases hk with ⟨-, hk⟩ | ⟨h, -, hk⟩
  · exact readsLeft_subset hk
  · exact readsLeft_subset hk

instance (s : System) (a : Act) : Decidable (Undisturbed s a) := decidable_of_iff _ undisturbed_iff.symm

/-- Two frames, each in the buffer until its handler has done its reads; the second is dequeued
before that, and the handlers overlap afterwards.
Source: none: a run. Kind: D -/
def twoInTurn : List Act :=
  [.mqReceive (some (frame 0x41 0)), .memcpy, .pthreadCreate, .handler 0 0,
    .mqReceive (some (frame 0x42 1)), .handler 0 0, .handler 0 0, .memcpy, .pthreadCreate,
    .handler 1 0, .handler 0 0, .handler 1 0, .handler 0 0, .handler 1 0]

/-- Two frames are received before the handler of the first takes a step.
Source: none: a run. Kind: D -/
def twoCommands : List Act :=
  [.mqReceive (some (frame 0x41 0)), .memcpy, .pthreadCreate,
    .mqReceive (some (frame 0x42 1)), .memcpy, .pthreadCreate,
    .handler 0 0, .handler 0 0, .handler 0 0, .handler 1 0, .handler 1 0, .handler 1 0]

theorem deliversFrame_twoInTurn : ∀ a ∈ twoInTurn, DeliversFrame a := by
  intro a ha msg hmsg
  subst hmsg
  simp only [twoInTurn, List.mem_cons, Act.mqReceive.injEq, Option.some.injEq, reduceCtorEq,
    List.not_mem_nil, or_false, false_or] at ha
  rcases ha with rfl | rfl
  · exact ⟨0x41, 0, rfl⟩
  · exact ⟨0x42, 1, rfl⟩

theorem deliversFrame_twoCommands : ∀ a ∈ twoCommands, DeliversFrame a := by
  intro a ha msg hmsg
  subst hmsg
  simp only [twoCommands, List.mem_cons, Act.mqReceive.injEq, Option.some.injEq, reduceCtorEq,
    List.not_mem_nil, or_false, false_or] at ha
  rcases ha with rfl | rfl
  · exact ⟨0x41, 0, rfl⟩
  · exact ⟨0x42, 1, rfl⟩

/-- On the shipped configuration each of the two commands is carried out once.
Source: `receive_interface.c` `receive_get`, `receive_thread_handler`
Kind: L -/
theorem commandsOnce_twoInTurn :
    (System.after mainControls (gdeviceTable shippedCalls) twoInTurn).handlers.map usedPair
        = [some (0x41, 0), some (0x42, 1)]
      ∧ CommandsOnce (System.after mainControls (gdeviceTable shippedCalls) twoInTurn) := by
  refine ⟨by decide +kernel, ?_⟩
  exact commandsOnce_of_undisturbed mainControls (gdeviceTable shippedCalls) twoInTurn
    deliversFrame_twoInTurn (by decide +kernel) twoInTurn List.prefix_rfl

/-- Two frames in quick succession: both handlers carry out the second command, and the first is lost.
Source: `receive_interface.c` `receive_get`, `receive_thread_handler`
Kind: L -/
theorem second_command_overwrites_first :
    ¬ ∀ (pdevhead : List Gdevice) (acts : List Act), (∀ a ∈ acts, DeliversFrame a) →
      CommandsOnce (System.after mainControls pdevhead acts) := by
  intro h
  have honce := h (gdeviceTable shippedCalls) twoCommands deliversFrame_twoCommands
  have hread : ∀ h ∈ (System.after mainControls (gdeviceTable shippedCalls) twoCommands).handlers,
      h.status.isSome = true := by decide +kernel
  have hperm := honce fun h hh => Or.inr (hread h hh)
  exact absurd hperm (by decide +kernel)

end SmartHome.Concurrent
