import SmartHome.Found.Pool
import SmartHome.Found.Runs
import SmartHome.Handler.Sequential

/-!
# Whether the lock is always relocked

Commands for one device behind the face check, with the frame bytes of each handler private to it. The
handlers share the record's `gpio_status`: a request stores its level there before the face is
checked, an accepted handler drives the pin with whatever stands there, and so does its relock,
after storing `HIGH`. `LockRun` is these stores and drives, interleaved in any order.

`Relocked` says that once no handler is in progress the last level driven is `HIGH`. The invariant
`Secured` is why it should hold: a pin last driven `LOW` has a handler whose relock is still to come.
The relock itself is what can fail: between its store and its drive another request may store `LOW`,
and be rejected. `relocked_of_relocksHigh` proves the purpose for the runs in which no second drive
finds such a `LOW`, `relocked_of_noLowRequest` gives a condition on the order of the steps alone, and
`rejected_request_reopens_lock` is a run that ends with the lock open.

`lockRun_alone` connects the model with the handler: one request alone makes the calls, and leaves the
record, that a run of `receive_thread_handler` does.
-/

set_option autoImplicit false

namespace SmartHome.Concurrent

open SmartHome.Device SmartHome.Controls SmartHome.Found SmartHome.Handler

/-- What a handler of the lock does next: store the requested level, obtain the score, drive the pin,
store `HIGH`, drive the pin again.
Source: `receive_interface.c` `receive_thread_handler`
Kind: D -/
inductive LockPc where
  | store
  | face
  | drive
  | relockStore
  | relockDrive
  | done
deriving DecidableEq, Repr

/-- A handler of the lock, with its status byte and the score it will obtain.
Source: `receive_interface.c` `receive_thread_handler`
Kind: D -/
structure LockThread where
  pc : LockPc
  status : Byte
  score : ℚ
deriving DecidableEq

/-- The record of the lock, the wiringPi calls made for it, and its handlers.
Source: `receive_interface.c` `receive_thread_handler`, `gdevice.c` `set_gpio_gdevice_status`
Kind: D -/
structure LockRun where
  pdev : Gdevice
  calls : List GpioCall
  threads : List LockThread
deriving DecidableEq

/-- The handlers of the given requests, none of which has taken a step.
Source: none: infrastructure. Kind: D -/
def LockRun.init (pdev : Gdevice) (requests : List (Byte × ℚ)) : LockRun :=
  ⟨pdev, [], requests.map fun r => ⟨.store, r.1, r.2⟩⟩

/-- One step of handler `tid`.
Source: `receive_interface.c` `receive_thread_handler`
Kind: D -/
def LockRun.step (s : LockRun) (tid : ℕ) : LockRun :=
  match s.threads[tid]? with
  | none => s
  | some t =>
      match t.pc with
      | .store =>
          { s with
            pdev := { s.pdev with gpioStatus := requestedLevel t.status }
            threads := s.threads.set tid { t with pc := .face } }
      | .face =>
          { s with
            threads := s.threads.set tid { t with
              pc := if accepted t.score then .drive else .done } }
      | .drive =>
          { s with
            calls := s.calls ++ (setGpioGdeviceStatus (some s.pdev)).1
            threads := s.threads.set tid { t with pc := .relockStore } }
      | .relockStore =>
          { s with
            pdev := { s.pdev with gpioStatus := high }
            threads := s.threads.set tid { t with pc := .relockDrive } }
      | .relockDrive =>
          { s with
            calls := s.calls ++ (setGpioGdeviceStatus (some s.pdev)).1
            threads := s.threads.set tid { t with pc := .done } }
      | .done => s

/-- Not in progress: not begun, or at its end. Source: none: infrastructure. Kind: D -/
def LockThread.Idle (t : LockThread) : Prop := t.pc = .store ∨ t.pc = .done

/-- **The lock is relocked**: with no handler in progress, a pin that has been driven was last driven
`HIGH`.
Source: none: the purpose of the relock. Kind: D -/
def Relocked (s : LockRun) : Prop :=
  (∀ t ∈ s.threads, t.Idle) → ∀ v, lastLevel s.pdev.gpioPin s.calls = some v → v = high

/-- A handler does not drive the pin the second time while a `LOW` stands in `gpio_status`: it stored
`HIGH` there itself, so the `LOW` is a request that came after.
Source: none: the condition on the schedule. Kind: D -/
def RelocksHigh (s : LockRun) (tid : ℕ) : Prop :=
  ∀ t, s.threads[tid]? = some t → t.pc = .relockDrive → s.pdev.gpioStatus ≠ low

/-- No request stores `LOW` while another handler is between its relock's store and its drive.
Source: none: the condition on the schedule. Kind: D -/
def NoLowRequest (s : LockRun) (tid : ℕ) : Prop :=
  ∀ t, s.threads[tid]? = some t → t.pc = .store → requestedLevel t.status = low →
    ∀ t' ∈ s.threads, t'.pc ≠ .relockDrive

/-! ## The invariant -/

/-- The relock of the handler is still to come. Source: none: infrastructure. Kind: D -/
def LockThread.Pending (t : LockThread) : Prop := t.pc = .relockStore ∨ t.pc = .relockDrive

/-- The invariant: past its store, a handler finds `LOW` or `HIGH`; a pin left `LOW` has a relock to
come.
Source: `receive_interface.c` `receive_thread_handler`
Kind: D -/
structure Secured (s : LockRun) : Prop where
  pin : s.pdev.gpioPin ≠ -1
  level : (∃ t ∈ s.threads, t.pc ≠ .store) → s.pdev.gpioStatus = low ∨ s.pdev.gpioStatus = high
  relock : ∀ v, lastLevel s.pdev.gpioPin s.calls = some v → v = high ∨ ∃ t ∈ s.threads, t.Pending

theorem secured_init {pdev : Gdevice} (hpin : pdev.gpioPin ≠ -1) (requests : List (Byte × ℚ)) :
    Secured (LockRun.init pdev requests) := by
  refine ⟨hpin, ?_, ?_⟩
  · rintro ⟨t, ht, hpc⟩
    obtain ⟨r, -, rfl⟩ := List.mem_map.mp ht
    exact absurd rfl hpc
  · intro v hv
    rw [LockRun.init, lastLevel_nil] at hv
    cases hv

/-- After `set_gpio_gdevice_status` the pin was last driven to the record's level. -/
theorem lastLevel_driven {pdev : Gdevice} (hpin : pdev.gpioPin ≠ -1) (hstatus : pdev.gpioStatus ≠ -1)
    (calls : List GpioCall) :
    lastLevel pdev.gpioPin (calls ++ (setGpioGdeviceStatus (some pdev)).1) = some pdev.gpioStatus := by
  rw [lastLevel_append, lastLevel_setGpio, if_pos ⟨rfl, hpin, hstatus⟩]
  rfl

variable {s : LockRun} {tid : ℕ} {t : LockThread}

/-- The mover's relock is to come after the step. -/
theorem exists_pending_set (ht : s.threads[tid]? = some t) {t' : LockThread} (h : t'.Pending) :
    ∃ u ∈ s.threads.set tid t', u.Pending := by
  have hlt := (List.getElem?_eq_some_iff.mp ht).1
  exact ⟨t', List.mem_set hlt t', h⟩

/-- A relock to come is not the mover's, and stays. -/
theorem exists_pending_set_of_not (ht : s.threads[tid]? = some t) (hnot : ¬ t.Pending)
    (t' : LockThread) (h : ∃ u ∈ s.threads, u.Pending) : ∃ u ∈ s.threads.set tid t', u.Pending := by
  obtain ⟨u, hu, hpending⟩ := h
  obtain ⟨j, hj⟩ := List.mem_iff_getElem?.mp hu
  have hne : tid ≠ j := by
    rintro rfl
    rw [ht] at hj
    cases hj
    exact hnot hpending
  have hj' : (s.threads.set tid t')[j]? = some u := by rw [List.getElem?_set_ne hne, hj]
  exact ⟨u, List.mem_of_getElem? hj', hpending⟩

/-- **Every allowed step keeps the invariant.**
Source: `receive_interface.c` `receive_thread_handler`
Kind: L -/
theorem secured_step (s : LockRun) (tid : ℕ) (hok : RelocksHigh s tid) (hs : Secured s) :
    Secured (s.step tid) := by
  unfold LockRun.step
  cases ht : s.threads[tid]? with
  | none => exact hs
  | some t =>
      cases hpc : t.pc with
      | store =>
          have hnot : ¬ t.Pending := by simp [LockThread.Pending, hpc]
          simp only [hpc]
          refine ⟨hs.pin, fun _ => ?_, fun v hv => ?_⟩
          · by_cases hstatus : t.status = 0 <;> simp [requestedLevel, hstatus]
          · exact (hs.relock v hv).imp_right (exists_pending_set_of_not ht hnot _)
      | face =>
          have hlevel := hs.level ⟨t, List.mem_of_getElem? ht, by simp [hpc]⟩
          have hnot : ¬ t.Pending := by simp [LockThread.Pending, hpc]
          simp only [hpc]
          refine ⟨hs.pin, fun _ => hlevel, fun v hv => ?_⟩
          exact (hs.relock v hv).imp_right (exists_pending_set_of_not ht hnot _)
      | drive =>
          have hlevel := hs.level ⟨t, List.mem_of_getElem? ht, by simp [hpc]⟩
          simp only [hpc]
          refine ⟨hs.pin, fun _ => hlevel, fun v _ => Or.inr ?_⟩
          exact exists_pending_set ht (Or.inl rfl)
      | relockStore =>
          simp only [hpc]
          refine ⟨hs.pin, fun _ => Or.inr rfl, fun v _ => Or.inr ?_⟩
          exact exists_pending_set ht (Or.inr rfl)
      | relockDrive =>
          have hlevel := hs.level ⟨t, List.mem_of_getElem? ht, by simp [hpc]⟩
          have hhigh : s.pdev.gpioStatus = high := hlevel.resolve_left (hok t ht hpc)
          simp only [hpc]
          refine ⟨hs.pin, fun _ => hlevel, fun v hv => Or.inl ?_⟩
          rw [lastLevel_driven hs.pin (by rw [hhigh]; decide), hhigh] at hv
          exact (Option.some.inj hv).symm
      | done => simpa only [hpc] using hs

theorem Secured.relocked (hs : Secured s) : Relocked s := by
  intro hidle v hv
  rcases hs.relock v hv with hhigh | ⟨t, ht, hpending⟩
  · exact hhigh
  · have hno : ¬ t.Idle := by
      rcases hpending with hpc | hpc <;> simp [LockThread.Idle, hpc]
    exact absurd (hidle t ht) hno

/-- **When the lock is always relocked**: for any number of requests on the record, in a run in which no
handler drives the pin the second time while a `LOW` requested by another stands in `gpio_status`,
in every state reached with no handler in progress the pin, if it was driven, was last driven `HIGH`.
Source: `receive_interface.c` `receive_thread_handler`
Kind: P -/
theorem relocked_of_relocksHigh (pdev : Gdevice) (hpin : pdev.gpioPin ≠ -1)
    (requests : List (Byte × ℚ)) (acts : List ℕ)
    (hok : Meets LockRun.step RelocksHigh (LockRun.init pdev requests) acts) :
    ∀ p, p <+: acts → Relocked (run LockRun.step (LockRun.init pdev requests) p) :=
  fun _ hp => (hok.invariant_of_prefix secured_step (secured_init hpin requests) hp).relocked

/-- A second drive at `LOW` with which the last handler ends leaves the lock open.
Source: `receive_interface.c` `receive_thread_handler`
Kind: L -/
theorem not_relocked_of_low (hpin : s.pdev.gpioPin ≠ -1) (ht : s.threads[tid]? = some t)
    (hpc : t.pc = .relockDrive) (hlow : s.pdev.gpioStatus = low)
    (hidle : ∀ u ∈ (s.step tid).threads, u.Idle) : ¬ Relocked (s.step tid) := by
  intro hrelocked
  have hdriven : lastLevel (s.step tid).pdev.gpioPin (s.step tid).calls = some low := by
    simp only [LockRun.step, ht, hpc]
    rw [lastLevel_driven hpin (by rw [hlow]; decide), hlow]
  exact high_ne_low (hrelocked hidle low hdriven).symm

instance (s : LockRun) (tid : ℕ) : Decidable (RelocksHigh s tid) :=
  decidable_of_iff
    (∀ t ∈ s.threads[tid]?, t.pc = .relockDrive → s.pdev.gpioStatus ≠ low) Iff.rfl

/-- The shipped lock at rest, with three requests to open it, the second of which is rejected.
Source: none: a run. Kind: D -/
def threeRequests : LockRun :=
  LockRun.init ⟨"lock", 0x44, 7, output, high, 1, 1⟩ [(0, 9 / 10), (0, 1 / 10), (0, 3 / 4)]

/-- They overlap: the second is rejected while the lock is open, and the third stores its level before
the first relocks.
Source: none: a run. Kind: D -/
def overlapping : List ℕ := [0, 0, 0, 1, 1, 2, 2, 0, 0, 2, 2, 2]

/-- The first request drives the pin `LOW`, and at the end the lock is shut.
Source: `receive_interface.c` `receive_thread_handler`
Kind: L -/
theorem relocked_of_relocksHigh_overlapping :
    lastLevel 7 (run LockRun.step threeRequests (overlapping.take 5)).calls = some low
      ∧ lastLevel 7 (run LockRun.step threeRequests overlapping).calls = some high
      ∧ Relocked (run LockRun.step threeRequests overlapping) := by
  refine ⟨by decide +kernel, by decide +kernel, ?_⟩
  exact relocked_of_relocksHigh _ (by decide) _ overlapping (by decide +kernel) _ List.prefix_rfl

/-- A rejected request leaves the lock open: it stores `LOW` after an accepted handler has stored `HIGH`
for its relock, and before that handler drives the pin again.
Source: `receive_interface.c` `receive_thread_handler`
Kind: L -/
theorem rejected_request_reopens_lock :
    ¬ ∀ (pdev : Gdevice) (requests : List (Byte × ℚ)) (acts : List ℕ), pdev.gpioPin ≠ -1 →
      pdev.gpioMode ≠ -1 → pdev.checkFaceStatus = 1 →
        Relocked (run LockRun.step (LockRun.init pdev requests) acts) := by
  intro h
  have hrelocked := h ⟨"lock", 0x44, 7, output, high, 1, 1⟩ [(0, 9 / 10), (0, 1 / 10)]
    [0, 0, 0, 0, 1, 1, 0] (by decide) (by decide) (by decide)
  have hidle : ∀ t ∈ (run LockRun.step (LockRun.init ⟨"lock", 0x44, 7, output, high, 1, 1⟩
      [(0, 9 / 10), (0, 1 / 10)]) [0, 0, 0, 0, 1, 1, 0]).threads, t.pc = .store ∨ t.pc = .done := by
    decide +kernel
  have hlow := hrelocked hidle low (by decide +kernel)
  exact high_ne_low hlow.symm

/-! ## A condition on the order of the steps -/

/-- Between its relock's store and its drive a handler finds its own `HIGH`. -/
def RelockStands (s : LockRun) : Prop :=
  ∀ t ∈ s.threads, t.pc = .relockDrive → s.pdev.gpioStatus = high

theorem requestedLevel_eq_high_of_ne_low {status : Byte} (h : requestedLevel status ≠ low) :
    requestedLevel status = high := by
  unfold requestedLevel at h ⊢
  split_ifs at h ⊢ with hstatus
  · exact absurd rfl h
  · rfl

theorem relockStands_step (s : LockRun) (tid : ℕ) (hok : NoLowRequest s tid) (hs : RelockStands s) :
    RelockStands (s.step tid) := by
  unfold LockRun.step
  cases ht : s.threads[tid]? with
  | none => exact hs
  | some t =>
      cases hpc : t.pc with
      | store =>
          simp only [hpc]
          intro u hu hdrive
          rcases List.mem_or_eq_of_mem_set hu with hold | rfl
          · have hne : requestedLevel t.status ≠ low := fun hlow =>
              hok t ht hpc hlow u hold hdrive
            exact requestedLevel_eq_high_of_ne_low hne
          · cases hdrive
      | face =>
          simp only [hpc]
          intro u hu hdrive
          rcases List.mem_or_eq_of_mem_set hu with hold | rfl
          · exact hs u hold hdrive
          · cases haccept : accepted t.score <;> simp [haccept] at hdrive
      | drive =>
          simp only [hpc]
          intro u hu hdrive
          rcases List.mem_or_eq_of_mem_set hu with hold | rfl
          · exact hs u hold hdrive
          · cases hdrive
      | relockStore =>
          simp only [hpc]
          intro u _ _
          rfl
      | relockDrive =>
          simp only [hpc]
          intro u hu hdrive
          rcases List.mem_or_eq_of_mem_set hu with hold | rfl
          · exact hs u hold hdrive
          · cases hdrive
      | done => simpa only [hpc] using hs

/-- **A schedule that keeps the lock safe**: no request stores `LOW` between the relock's store and the
relock's drive of another handler.
Source: `receive_interface.c` `receive_thread_handler`
Kind: P -/
theorem relocked_of_noLowRequest (pdev : Gdevice) (hpin : pdev.gpioPin ≠ -1)
    (requests : List (Byte × ℚ)) (acts : List ℕ)
    (hok : Meets LockRun.step NoLowRequest (LockRun.init pdev requests) acts) :
    ∀ p, p <+: acts → Relocked (run LockRun.step (LockRun.init pdev requests) p) := by
  have hstart : RelockStands (LockRun.init pdev requests) := by
    intro t ht hpc
    obtain ⟨r, -, rfl⟩ := List.mem_map.mp ht
    cases hpc
  have hhigh : ∀ s tid, NoLowRequest s tid → RelockStands s → RelocksHigh s tid := by
    intro s tid _ hs t ht hpc
    rw [hs t (List.mem_of_getElem? ht) hpc]
    exact high_ne_low
  have hrelocks := hok.of_invariant relockStands_step hhigh hstart
  intro p hp
  exact (hrelocks.invariant_of_prefix secured_step (secured_init hpin requests) hp).relocked

/-! ## One request alone -/

/-- **One request alone does what the handler does**: its stores and drives are those of a run of
`receive_thread_handler` on the record.
Source: `receive_interface.c` `receive_thread_handler`
Kind: P -/
theorem lockRun_alone {pdevhead : List Gdevice} {code : Byte} {d : ℕ} {pdev : Gdevice}
    (h40 : code ≠ 0x40) (hfind : findGdeviceByKey pdevhead code.asInt = some d)
    (hg : pdevhead[d]? = some pdev) (hcheck : pdev.checkFaceStatus = 1) (status : Byte) (score : ℚ) :
    ∃ s out, Repeats LockRun.step 0 (LockRun.init pdev [(status, score)]) s ∧
      (∀ t ∈ s.threads, t.pc = .done) ∧
      receiveThreadHandler mainControls score pdevhead (frame code status) = .ok out ∧
      s.calls = gpioCalls out.events ∧ out.pdevhead[d]? = some s.pdev := by
  have hrun : receiveThreadHandler mainControls score pdevhead (frame code status) =
      .ok ⟨setStatus pdevhead d (settledStatus pdev (requestedLevel status) score),
        repliedBuffer pdev score (frame code status),
        commandEvents d pdev (requestedLevel status) score (frame code status)⟩ :=
    receiveThreadHandler_of_find h40 hfind hg
  have hcalls := gpioCalls_commandEvents d pdev (requestedLevel status) score (frame code status)
  cases haccept : accepted score with
  | false =>
      refine ⟨⟨{ pdev with gpioStatus := requestedLevel status }, [], [⟨.done, status, score⟩]⟩, _,
        ⟨2, ?_⟩, by simp, hrun, ?_, ?_⟩
      · simp [run, LockRun.init, LockRun.step, haccept]
      · simp [hcalls, gateCalls, relockCalls, hcheck, haccept]
      · simp [getElem?_setStatus_self hg, settledStatus, haccept]
  | true =>
      refine ⟨⟨{ pdev with gpioStatus := high }, driveCalls pdev (requestedLevel status) ++
        driveCalls pdev high, [⟨.done, status, score⟩]⟩, _, ⟨5, ?_⟩, by simp, hrun, ?_, ?_⟩
      · simp [run, LockRun.init, LockRun.step, haccept, driveCalls]
      · simp [hcalls, gateCalls, relockCalls, hcheck, haccept]
      · simp [getElem?_setStatus_self hg, settledStatus, hcheck, haccept]

end SmartHome.Concurrent
