import SmartHome.Concurrent.System
import SmartHome.Device.IniHandler
import SmartHome.Handler.Fault

/-!
# Handlers finish

No handler waits for another: whatever the rest of the hub does, a handler that is given as many
steps as `Pc.rank` counts at its point of the body has reached the end, or the process is dead
(`exited_or_crashed_after`). The measure is the rank, which the handler's own steps decrease and the
others leave alone.
-/

set_option autoImplicit false

namespace SmartHome.Concurrent

open SmartHome.Device SmartHome.Controls SmartHome.Found SmartHome.Handler SmartHome.Queue

variable {controlPhead : List Control} {tid : ℕ} {s : System}

/-- Handler `tid` has been started. Source: none: infrastructure. Kind: D -/
def Started (tid : ℕ) (s : System) : Prop := tid < s.handlers.length

/-- The label is a step of handler `tid`. Source: none: infrastructure. Kind: D -/
def movesHandler (tid : ℕ) : Act → Bool
  | .handler i _ => i == tid
  | _ => false

/-- How many steps handler `tid` has left at most; none in a dead process.
Source: `receive_interface.c` `receive_thread_handler`
Kind: D -/
def System.left (tid : ℕ) (s : System) : ℕ :=
  if s.mem.crashed.isSome = true then 0
  else (s.handlers[tid]?.map fun h => h.pc.rank).getD 0

theorem rank_eq_zero_iff {pc : Pc} : pc.rank = 0 ↔ pc = .exited := by
  cases pc with
  | pinMode site | digitalWrite site => cases site <;> simp [Pc.rank]
  | _ => simp [Pc.rank]

/-- Nothing left: the process is dead, or the handler at its end. -/
theorem left_eq_zero_iff (hstarted : Started tid s) :
    s.left tid = 0 ↔ s.mem.crashed.isSome = true ∨
      ∃ h, s.handlers[tid]? = some h ∧ h.pc = .exited := by
  unfold System.left
  rw [List.getElem?_eq_getElem hstarted]
  split_ifs with hcrash
  · simp [hcrash]
  · simp [hcrash, rank_eq_zero_iff]

/-- Handlers are never removed. -/
theorem started_step (s : System) (a : Act) (hstarted : Started tid s) :
    Started tid (s.step controlPhead a) := by
  apply System.step_induction (P := Started tid) a hstarted
  · exact fun _ _ _ => hstarted
  · exact fun _ _ => hstarted
  · intro _
    unfold Started
    rw [List.length_append]
    exact Nat.lt_add_right _ hstarted
  · intro _ _ _ _ _
    unfold Started
    rwa [List.length_set]
  · exact hstarted

/-- A handler's own step takes one of the steps it has left, or ends the process. -/
theorem left_handler (controlPhead : List Control) {h : HandlerThread}
    (hh : s.handlers[tid]? = some h) (score : ℚ) :
    System.left tid { s with
        mem := (h.step controlPhead score tid s.mem).1
        handlers := s.handlers.set tid (h.step controlPhead score tid s.mem).2 } ≤ s.left tid - 1 := by
  obtain ⟨hlt, -⟩ := List.getElem?_eq_some_iff.mp hh
  cases hf : h.fault s.mem.pdevhead with
  | some e => simp [System.left, step_of_fault hf]
  | none =>
      have hmoves := step_of_no_fault controlPhead score tid hf
      simp only [System.left, hmoves.crashed, hh, List.getElem?_set_self hlt, Option.map_some,
        Option.getD_some]
      split_ifs
      · exact Nat.zero_le _
      · by_cases hexit : h.pc = .exited
        · simp [HandlerThread.step, hexit, Pc.rank]
        · have hrank := hmoves.rank hexit
          omega

/-- No step of the hub gives a handler more to do. -/
theorem left_step (s : System) (a : Act) (hstarted : Started tid s) :
    (s.step controlPhead a).left tid ≤ s.left tid := by
  apply System.step_induction (P := fun s' => s'.left tid ≤ s.left tid) a le_rfl
  · exact fun _ _ _ => le_rfl
  · exact fun _ _ => le_rfl
  · intro _
    simp [System.left, List.getElem?_append_left hstarted]
  · intro i score h _ hh
    by_cases hi : i = tid
    · subst hi
      exact (left_handler controlPhead hh score).trans (Nat.sub_le _ _)
    · -- another handler: it leaves this one alone, and can only end the process
      cases hf : h.fault s.mem.pdevhead with
      | some e => simp [System.left, step_of_fault hf]
      | none =>
          simp [System.left, (step_of_no_fault controlPhead score i hf).crashed, hi]
  · exact le_rfl

/-- Its own steps leave it less to do. -/
theorem left_step_lt (s : System) (a : Act) (hstarted : Started tid s)
    (hmoves : movesHandler tid a = true) (hpos : 0 < s.left tid) :
    (s.step controlPhead a).left tid < s.left tid := by
  cases a with
  | handler i score =>
      obtain rfl : i = tid := by simpa [movesHandler] using hmoves
      have hcrash : s.mem.crashed.isSome ≠ true := by
        intro hcrash
        simp [System.left, hcrash] at hpos
      have hh := List.getElem?_eq_getElem hstarted
      have hstep := left_handler controlPhead hh score
      simp only [System.step, hcrash, hh] at hstep ⊢
      exact hstep.trans_lt (Nat.sub_lt hpos Nat.one_pos)
  | mqReceive | memcpy | pthreadCreate | voiceSet => simp [movesHandler] at hmoves

/-- **Handlers finish**: in every interleaving, a handler that has been given as many further steps
as it has left at most has reached the end of its body, or the process is dead; the other handlers,
the receiver and the announcements cannot hold it up.
Source: `receive_interface.c` `receive_thread_handler`
Kind: P -/
theorem exited_or_crashed_after (controlPhead : List Control) (pdevhead : List Gdevice)
    (acts more : List Act) (tid : ℕ) (h : HandlerThread)
    (hh : (System.after controlPhead pdevhead acts).handlers[tid]? = some h)
    (hmoves : h.pc.rank ≤ more.countP (movesHandler tid)) :
    (System.after controlPhead pdevhead (acts ++ more)).mem.crashed.isSome = true ∨
      ∃ h', (System.after controlPhead pdevhead (acts ++ more)).handlers[tid]? = some h' ∧
        h'.pc = .exited := by
  have hafter : System.after controlPhead pdevhead (acts ++ more) =
      run (System.step controlPhead) (System.after controlPhead pdevhead acts) more := run_append ..
  obtain ⟨hstarted, -⟩ := List.getElem?_eq_some_iff.mp hh
  have hvariant : (run (System.step controlPhead) (System.after controlPhead pdevhead acts) more).left
      tid ≤ (System.after controlPhead pdevhead acts).left tid - more.countP (movesHandler tid) :=
    run_variant started_step _ _ left_step left_step_lt hstarted more
  have hleft : (System.after controlPhead pdevhead acts).left tid ≤ h.pc.rank := by
    simp only [System.left, hh, Option.map_some, Option.getD_some]
    split_ifs
    · exact Nat.zero_le _
    · exact le_rfl
  have hstarted' : Started tid (run (System.step controlPhead)
      (System.after controlPhead pdevhead acts) more) := run_invariant started_step hstarted more
  rw [hafter]
  exact (left_eq_zero_iff hstarted').mp (by omega)

/-- A handler that is held up by a second message and its handler, step by step.
Source: none: a run. Kind: D -/
def heldUp : List Act :=
  [.mqReceive (some (frame 0x42 1)), .memcpy, .pthreadCreate] ++
    (List.replicate 18 [Act.handler 1 0, .handler 0 0, .voiceSet]).flatten

/-- On the shipped configuration the handler of the first message is at its end.
Source: `receive_interface.c` `receive_thread_handler`, `ini/gdevice.ini`
Kind: L -/
theorem exited_or_crashed_heldUp :
    (System.after mainControls (gdeviceTable shippedCalls)
        ([.mqReceive (some (frame 0x41 0)), .memcpy, .pthreadCreate] ++ heldUp)).mem.crashed.isSome =
          true ∨
      ∃ h', (System.after mainControls (gdeviceTable shippedCalls)
          ([.mqReceive (some (frame 0x41 0)), .memcpy, .pthreadCreate] ++ heldUp)).handlers[0]? =
            some h' ∧ h'.pc = .exited :=
  exited_or_crashed_after mainControls (gdeviceTable shippedCalls)
    [.mqReceive (some (frame 0x41 0)), .memcpy, .pthreadCreate] heldUp 0 HandlerThread.init
    (by decide +kernel) (by decide +kernel)

end SmartHome.Concurrent
