import SmartHome.Handler.Steps

/-!
# A step faults or moves on

`HandlerThread.fault` is the `NULL` that the next step of a handler would go through, read off the
table and the handler alone: it depends neither on the score nor on what the frame holds. A step that
faults leaves everything else as it is (`step_of_fault`); one that does not leaves the process alive and
brings the handler strictly nearer to the end of its body (`step_of_no_fault`), of which `Pc.rank`
counts the steps that are left at most. The body has no loop; what makes the count more than a look at
the text is that `set_gpio_gdevice_status` is called from three places and the relock calls it again.

`step_congr_score` says where the score matters, and `alone_stuck` that a handler stays where it
crashed.
-/

set_option autoImplicit false

namespace SmartHome.Handler

open SmartHome.Device SmartHome.Controls SmartHome.Found

/-- The `NULL` the next step goes through, if any.
Source: `receive_interface.c` `receive_thread_handler`
Kind: D -/
def HandlerThread.fault (pdevhead : List Gdevice) (h : HandlerThread) : Option NullDeref :=
  match h.pc with
  | .idTest | .lookup | .level | .face | .reply | .fireCode _ | .fireStatus _ | .exited => none
  | .startSet pcontrol => if pcontrol.hasSet then none else some .setRoutine
  | .store _ | .gate | .pinMode _ | .digitalWrite _ | .voiceTest | .oled | .relockTest
  | .relockStore =>
      match h.pcurGdevice.bind (pdevhead[·]?) with
      | none => some .pcurGdevice
      | some _ => none

/-- How many steps are left at most. The relock's call of `set_gpio_gdevice_status` comes last.
Source: `receive_interface.c` `receive_thread_handler`
Kind: D -/
def Pc.rank : Pc → ℕ
  | .idTest => 18
  | .lookup => 17
  | .level => 16
  | .store _ => 15
  | .gate => 14
  | .face => 13
  | .pinMode .relock => 2
  | .pinMode _ => 12
  | .digitalWrite .relock => 1
  | .digitalWrite _ => 11
  | .reply => 10
  | .voiceTest => 9
  | .fireCode _ => 8
  | .fireStatus _ => 7
  | .startSet _ => 6
  | .oled => 5
  | .relockTest => 4
  | .relockStore => 3
  | .exited => 0

variable {controlPhead : List Control} {score : ℚ} {tid : ℕ} {m : Memory} {h : HandlerThread}

/-- Going through `pcur_gdevice` where there is no record. -/
theorem HandlerThread.through_of_none (hd : h.pcurGdevice.bind (m.pdevhead[·]?) = none)
    (k : ℕ → Gdevice → Memory × HandlerThread) :
    h.through m k = ({ m with crashed := some .pcurGdevice }, h) := by
  unfold HandlerThread.through
  cases hcur : h.pcurGdevice with
  | none => rfl
  | some d =>
      have hg : m.pdevhead[d]? = none := by simpa [hcur] using hd
      simp only [hg]

/-- Going through `pcur_gdevice` to the record. -/
theorem HandlerThread.through_of_some {pdev : Gdevice}
    (hd : h.pcurGdevice.bind (m.pdevhead[·]?) = some pdev)
    (k : ℕ → Gdevice → Memory × HandlerThread) :
    ∃ d, h.pcurGdevice = some d ∧ m.pdevhead[d]? = some pdev ∧ h.through m k = k d pdev := by
  obtain ⟨d, hcur, hg⟩ := Option.bind_eq_some_iff.mp hd
  exact ⟨d, hcur, hg, by simp only [HandlerThread.through, hcur, hg]⟩

/-- **A step that faults** ends the process and does nothing else.
Source: `receive_interface.c` `receive_thread_handler`
Kind: L -/
theorem step_of_fault {e : NullDeref} (hf : h.fault m.pdevhead = some e) :
    h.step controlPhead score tid m = ({ m with crashed := some e }, h) := by
  unfold HandlerThread.fault at hf
  unfold HandlerThread.step
  cases hpc : h.pc with
  | idTest | lookup | level | face | reply | fireCode | fireStatus | exited => simp [hpc] at hf
  | startSet pcontrol =>
      simp only [hpc] at hf ⊢
      split_ifs at hf with hset
      simp [hset, ← hf]
  | store | gate | pinMode | digitalWrite | voiceTest | oled | relockTest | relockStore =>
      simp only [hpc] at hf ⊢
      cases hd : h.pcurGdevice.bind (m.pdevhead[·]?) with
      | none =>
          rw [hd] at hf
          rw [HandlerThread.through_of_none hd, ← Option.some.inj hf]
      | some pdev => simp [hd] at hf

/-- What a step does that does not fault: the process lives on, and the handler is nearer to the end.
Source: `receive_interface.c` `receive_thread_handler`
Kind: D -/
structure MovesOn (m : Memory) (h : HandlerThread) (x : Memory × HandlerThread) : Prop where
  crashed : x.1.crashed = m.crashed
  rank : h.pc ≠ .exited → x.2.pc.rank < h.pc.rank

theorem MovesOn.through {pdev : Gdevice} (hd : h.pcurGdevice.bind (m.pdevhead[·]?) = some pdev)
    {k : ℕ → Gdevice → Memory × HandlerThread} (hk : ∀ d, MovesOn m h (k d pdev)) :
    MovesOn m h (h.through m k) := by
  obtain ⟨d, -, -, hthrough⟩ := HandlerThread.through_of_some hd k
  rw [hthrough]
  exact hk d

/-- **A step that does not fault moves on**: one case for each point of the body.
Source: `receive_interface.c` `receive_thread_handler`
Kind: L -/
theorem step_of_no_fault (controlPhead : List Control) (score : ℚ) (tid : ℕ)
    (hf : h.fault m.pdevhead = none) : MovesOn m h (h.step controlPhead score tid m) := by
  have hrecord : (h.pc = .gate ∨ h.pc = .voiceTest ∨ h.pc = .oled ∨ h.pc = .relockTest ∨
      h.pc = .relockStore ∨ (∃ status, h.pc = .store status) ∨
      ∃ site, h.pc = .pinMode site ∨ h.pc = .digitalWrite site) →
      ∃ pdev, h.pcurGdevice.bind (m.pdevhead[·]?) = some pdev := by
    intro hpc
    cases hd : h.pcurGdevice.bind (m.pdevhead[·]?) with
    | some pdev => exact ⟨pdev, rfl⟩
    | none =>
        simp only [HandlerThread.fault, hd] at hf
        rcases hpc with hpc | hpc | hpc | hpc | hpc | ⟨status, hpc⟩ | ⟨site, hpc | hpc⟩ <;>
          simp [hpc] at hf
  unfold HandlerThread.fault at hf
  unfold HandlerThread.step
  cases hpc : h.pc with
  | idTest =>
      refine ⟨rfl, fun _ => ?_⟩
      by_cases h40 : byteAt m.buffer 2 = 0x40 <;> simp [h40, hpc, Pc.rank]
  | lookup =>
      refine ⟨rfl, fun _ => ?_⟩
      cases findGdeviceByKey m.pdevhead (byteAt m.buffer 2).asInt <;> simp [hpc, Pc.rank]
  | level => exact ⟨rfl, fun _ => by simp [hpc, Pc.rank]⟩
  | face =>
      refine ⟨rfl, fun _ => ?_⟩
      cases accepted score <;> simp [hpc, Pc.rank]
  | reply => exact ⟨rfl, fun _ => by simp [hpc, Pc.rank]⟩
  | fireCode pcontrol =>
      refine ⟨rfl, fun _ => ?_⟩
      by_cases hcode : byteAt m.buffer 2 = 0x45 <;> simp [hcode, hpc, Pc.rank]
  | fireStatus pcontrol => exact ⟨rfl, fun _ => by simp [hpc, Pc.rank]⟩
  | exited => exact ⟨rfl, fun hne => absurd hpc hne⟩
  | startSet pcontrol =>
      simp only [hpc] at hf ⊢
      split_ifs at hf with hset
      rw [if_pos hset]
      exact ⟨rfl, fun _ => by simp [hpc, Pc.rank]⟩
  | voiceTest =>
      obtain ⟨pdev, hd⟩ := hrecord (by simp [hpc])
      refine MovesOn.through hd fun d => ?_
      split_ifs
      · cases voiceSearch controlPhead with
        | none => exact ⟨rfl, fun _ => by simp [hpc, Pc.rank]⟩
        | some pcontrol => exact ⟨rfl, fun _ => by simp [hpc, Pc.rank]⟩
      · exact ⟨rfl, fun _ => by simp [hpc, Pc.rank]⟩
  | store | oled | relockStore =>
      obtain ⟨pdev, hd⟩ := hrecord (by simp [hpc])
      exact MovesOn.through hd fun d => ⟨rfl, fun _ => by simp [hpc, Pc.rank]⟩
  | gate =>
      obtain ⟨pdev, hd⟩ := hrecord (by simp [hpc])
      refine MovesOn.through hd fun d => ⟨rfl, fun _ => ?_⟩
      by_cases hcheck : pdev.checkFaceStatus = 1 <;> simp [hcheck, hpc, Pc.rank]
  | pinMode site =>
      obtain ⟨pdev, hd⟩ := hrecord (by simp [hpc])
      refine MovesOn.through hd fun d => ⟨rfl, fun _ => ?_⟩
      cases site <;> simp [hpc, Pc.rank]
  | digitalWrite site =>
      obtain ⟨pdev, hd⟩ := hrecord (by simp [hpc])
      refine MovesOn.through hd fun d => ⟨rfl, fun _ => ?_⟩
      cases site <;> simp [HandlerThread.driven, hpc, Pc.rank]
  | relockTest =>
      obtain ⟨pdev, hd⟩ := hrecord (by simp [hpc])
      refine MovesOn.through hd fun d => ⟨rfl, fun _ => ?_⟩
      by_cases hrelock : relocks pdev h.ret h.faceResult = true <;> simp [hrelock, hpc, Pc.rank]

/-! ## Where the score matters, and after a crash -/

/-- Only the face check looks at the score. -/
theorem step_congr_score (hpc : h.pc ≠ .face) (score' : ℚ) :
    h.step controlPhead score tid m = h.step controlPhead score' tid m := by
  unfold HandlerThread.step
  cases hp : h.pc with
  | face => exact absurd hp hpc
  | _ => rfl

/-- A handler that has crashed crashes again, and has not reached the end of its body. -/
theorem step_of_crash (hm : m.crashed = none) (score' : ℚ)
    (hcrash : (h.step controlPhead score tid m).1.crashed.isSome = true) :
    (h.step controlPhead score tid m).2.pc ≠ .exited ∧
      (h.step controlPhead score tid m).2.step controlPhead score' tid
        (h.step controlPhead score tid m).1 = h.step controlPhead score tid m := by
  cases hf : h.fault m.pdevhead with
  | none => simp [(step_of_no_fault controlPhead score tid hf).crashed, hm] at hcrash
  | some e =>
      rw [step_of_fault hf]
      refine ⟨fun hexit => ?_, step_of_fault hf⟩
      simp only at hexit
      simp [HandlerThread.fault, hexit] at hf

/-- Where the handler has crashed it stays. Source: `receive_interface.c` `receive_thread_handler`.
Kind: D -/
def StaysCrashed (controlPhead : List Control) (tid : ℕ) (x : Memory × HandlerThread) : Prop :=
  x.1.crashed.isSome = true → x.2.pc ≠ .exited ∧
    ∀ score, HandlerThread.alone controlPhead tid x score = x

/-- **A crash is final**: in a handler that moves alone, too.
Source: `receive_interface.c` `receive_thread_handler`
Kind: L -/
theorem alone_stuck (hm : m.crashed = none) {x : Memory × HandlerThread}
    (hx : Repeats (HandlerThread.alone controlPhead tid) score (m, h) x) :
    StaysCrashed controlPhead tid x := by
  obtain ⟨n, rfl⟩ := hx
  refine run_invariant ?_ (fun hcrash => ?_) _
  · intro x score hx hcrash
    cases hbefore : x.1.crashed with
    | none =>
        exact ⟨(step_of_crash hbefore score hcrash).1,
          fun score' => (step_of_crash hbefore score' hcrash).2⟩
    | some e =>
        have hstay := (hx (by simp [hbefore])).2
        rw [hstay score]
        exact hx (by simp [hbefore])
  · simp [hm] at hcrash

end SmartHome.Handler
