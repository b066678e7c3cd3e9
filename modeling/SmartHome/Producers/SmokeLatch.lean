import SmartHome.Found.Justified
import SmartHome.Found.Runs
import SmartHome.Producers.SmokeGet

/-!
# `smoke_get` when a send fails

`switch_status` is to remember that an alarm is out, so that it is followed by a clear. The loop writes
it before `mq_send` is called, in both branches, and the error path only skips the `sleep`: after a
failed send the latch and the queue disagree.

`SmokeRun` is the loop with the outcome of each send, and what got through. `LatchHonest` is the purpose
of the latch: it is set exactly when the last frame delivered is an alarm; an alarm delivered is
followed by an attempt to clear it at every `HIGH` until one gets through; a clear gets through only
after an alarm. `latchHonest_iff` says when it holds all along: when no send at a *change* of the sensor
fails. A failed repetition of an alarm does no harm, as the latch was set already;
`lost_clear_forgotten` is the harmful case, a clear that is never tried again.
-/

set_option autoImplicit false

namespace SmartHome.Producers

open SmartHome.Device SmartHome.Found

/-- What one iteration meets: the reading, and whether `mq_send` succeeds if it is called.
Source: `smoke_interface.c` `smoke_get`
Kind: D -/
structure Poll where
  reading : ℤ
  sendOk : Bool
deriving DecidableEq, Repr

/-- The loop and the frames it has got into the queue.
Source: `smoke_interface.c` `smoke_get`
Kind: D -/
structure SmokeRun where
  smoke : SmokeGet
  delivered : List (List Byte)
deriving DecidableEq, Repr

/-- Before the first iteration. Source: `smoke_interface.c` `smoke_get`. Kind: D -/
def SmokeRun.init : SmokeRun := ⟨SmokeGet.init, []⟩

/-- One iteration, back to the head of the loop.
Source: `smoke_interface.c` `smoke_get`
Kind: D -/
def SmokeRun.step (s : SmokeRun) (p : Poll) : SmokeRun :=
  let x := s.smoke.poll p.reading
  ⟨x.1, s.delivered ++ if p.sendOk then x.2.toList else []⟩

/-- **The latch is honest**: it says whether the last frame delivered is an alarm; after such a frame
every `HIGH` reading has a clear sent; a clear is delivered only when the frame before is an alarm.
Source: none: the purpose of `switch_status`. Kind: D -/
structure LatchHonest (s : SmokeRun) : Prop where
  latch : s.smoke.switchStatus = 1 ↔ s.delivered.getLast? = some alarm
  attempt : s.delivered.getLast? = some alarm → (s.smoke.poll high).2 = some clear
  clears : Justified (fun earlier msg => msg = clear → earlier.getLast? = some alarm) s.delivered

/-! ## The condition -/

/-- The last reading that was `LOW` or `HIGH`.
Source: none: infrastructure. Kind: D -/
def lastReading (polls : List Poll) : Option ℤ :=
  lastOf (fun p => if p.reading = low ∨ p.reading = high then some p.reading else none) polls

/-- The reading differs from the one before: a `LOW` that does not follow a `LOW`, a `HIGH` that does.
Source: none: the condition on the readings. Kind: D -/
def Changes (earlier : List Poll) (reading : ℤ) : Prop :=
  (reading = low ∧ lastReading earlier ≠ some low) ∨ (reading = high ∧ lastReading earlier = some low)

/-- Every send at a change of the sensor succeeds.
Source: none: the condition on the sends. Kind: D -/
def ChangesSent (polls : List Poll) : Prop :=
  Justified (fun earlier p => Changes earlier p.reading → p.sendOk = true) polls

/-! ## While all changes are sent -/

/-- The invariant while all changes are sent: the latch, and the last frame delivered, are as the last
reading says.
Source: `smoke_interface.c` `smoke_get`
Kind: D -/
structure InStep (polls : List Poll) (s : SmokeRun) : Prop where
  latch : s.smoke.switchStatus = if lastReading polls = some low then 1 else 0
  buffer : ∃ code status, s.smoke.buffer = frame code status
  last : s.delivered.getLast? = some alarm ↔ lastReading polls = some low
  clears : Justified (fun earlier msg => msg = clear → earlier.getLast? = some alarm) s.delivered

theorem inStep_init : InStep [] SmokeRun.init :=
  ⟨rfl, ⟨0, 0, rfl⟩, by simp [SmokeRun.init, lastReading], Justified.nil⟩

theorem lastReading_concat (polls : List Poll) (p : Poll) : lastReading (polls ++ [p]) =
    if p.reading = low ∨ p.reading = high then some p.reading else lastReading polls := by
  unfold lastReading
  rw [lastOf_concat]
  split_ifs <;> rfl

theorem InStep.latchHonest {polls : List Poll} {s : SmokeRun} (hs : InStep polls s) : LatchHonest s := by
  have hlatch : s.smoke.switchStatus = 1 ↔ lastReading polls = some low := by
    rw [hs.latch]
    split_ifs with hlow <;> simp [hlow]
  refine ⟨hlatch.trans hs.last.symm, fun hout => ?_, hs.clears⟩
  obtain ⟨code, status, hbuffer⟩ := hs.buffer
  rw [poll_high_of_set (hlatch.mpr (hs.last.mp hout)) hbuffer]

/-- A `LOW`: the alarm is sent, or sent again. -/
theorem InStep.step_low {polls : List Poll} {s : SmokeRun} (hs : InStep polls s) {p : Poll}
    (hlow : p.reading = low) (hsent : lastReading polls ≠ some low → p.sendOk = true) :
    InStep (polls ++ [p]) (s.step p) := by
  obtain ⟨code, status, hbuffer⟩ := hs.buffer
  have hstep : s.step p = ⟨⟨1, alarm⟩, s.delivered ++ if p.sendOk then [alarm] else []⟩ := by
    simp only [SmokeRun.step, hlow, poll_low s.smoke hbuffer, Option.toList_some]
  have hreading : lastReading (polls ++ [p]) = some low := by simp [lastReading_concat, hlow]
  rw [hstep]
  refine ⟨by rw [hreading, if_pos rfl], ⟨0x45, 0, rfl⟩, ?_, ?_⟩
  · show (s.delivered ++ if p.sendOk then [alarm] else []).getLast? = some alarm ↔ _
    cases hok : p.sendOk with
    | true => simp [hreading]
    | false =>
        -- a failed repetition: the last frame delivered is an alarm already
        have hbefore : lastReading polls = some low := by
          by_contra hne
          have := hsent hne
          rw [hok] at this
          contradiction
        simp [hreading, hs.last, hbefore]
  · show Justified _ (s.delivered ++ if p.sendOk then [alarm] else [])
    cases p.sendOk with
    | true => exact justified_concat.mpr ⟨hs.clears, fun h => absurd h alarm_ne_clear⟩
    | false => simpa using hs.clears

/-- A `HIGH` after a `LOW`: the clear is sent. -/
theorem InStep.step_clear {polls : List Poll} {s : SmokeRun} (hs : InStep polls s) {p : Poll}
    (hhigh : p.reading = high) (hbefore : lastReading polls = some low) (hsent : p.sendOk = true) :
    InStep (polls ++ [p]) (s.step p) := by
  obtain ⟨code, status, hbuffer⟩ := hs.buffer
  have hlatch := hs.latch
  rw [if_pos hbefore] at hlatch
  have hstep : s.step p = ⟨⟨0, clear⟩, s.delivered ++ [clear]⟩ := by
    simp [SmokeRun.step, hhigh, poll_high_of_set hlatch hbuffer, hsent]
  have hreading : lastReading (polls ++ [p]) ≠ some low := by
    simp [lastReading_concat, hhigh]
  rw [hstep]
  refine ⟨by rw [if_neg hreading], ⟨0x45, 1, rfl⟩, ?_, ?_⟩
  · refine iff_of_false ?_ hreading
    simp [alarm_ne_clear.symm]
  · exact justified_concat.mpr ⟨hs.clears, fun _ => hs.last.mpr hbefore⟩

/-- An iteration that sends nothing. -/
theorem InStep.step_idle {polls : List Poll} {s : SmokeRun} (hs : InStep polls s) {p : Poll}
    (hidle : s.smoke.poll p.reading = (s.smoke, none))
    (hsame : lastReading (polls ++ [p]) = some low ↔ lastReading polls = some low) :
    InStep (polls ++ [p]) (s.step p) := by
  have hstep : s.step p = s := by simp [SmokeRun.step, hidle]
  rw [hstep]
  exact ⟨by rw [hs.latch, if_congr hsame rfl rfl], hs.buffer, hs.last.trans hsame.symm, hs.clears⟩

/-- An iteration that is no change of the sensor, or whose send succeeds, keeps in step. -/
theorem InStep.step {polls : List Poll} {s : SmokeRun} (hs : InStep polls s) {p : Poll}
    (hsent : Changes polls p.reading → p.sendOk = true) : InStep (polls ++ [p]) (s.step p) := by
  by_cases hlow : p.reading = low
  · exact hs.step_low hlow fun hbefore => hsent (.inl ⟨hlow, hbefore⟩)
  · by_cases hhigh : p.reading = high
    · by_cases hbefore : lastReading polls = some low
      · exact hs.step_clear hhigh hbefore (hsent (.inr ⟨hhigh, hbefore⟩))
      · have hlatch := hs.latch
        rw [if_neg hbefore] at hlatch
        apply hs.step_idle
        · rw [hhigh, poll_high_of_clear hlatch]
        · simp [lastReading_concat, hhigh, hbefore]
    · apply hs.step_idle (poll_other s.smoke hlow hhigh)
      simp [lastReading_concat, hlow, hhigh]

/-- A failed send at a change of the sensor leaves the latch wrong. -/
theorem InStep.sendOk_of_latchHonest {polls : List Poll} {s : SmokeRun} (hs : InStep polls s) {p : Poll}
    (hhonest : LatchHonest (s.step p)) (hchange : Changes polls p.reading) : p.sendOk = true := by
  obtain ⟨code, status, hbuffer⟩ := hs.buffer
  have hlatch := hs.latch
  have hlater := hhonest.latch
  by_contra hfailed
  rw [Bool.not_eq_true] at hfailed
  rcases hchange with ⟨hlow, hbefore⟩ | ⟨hhigh, hbefore⟩
  · have hout : s.delivered.getLast? = some alarm := by
      simpa [SmokeRun.step, hlow, poll_low s.smoke hbuffer, hfailed] using hlater
    exact hbefore (hs.last.mp hout)
  · rw [if_pos hbefore] at hlatch
    have hnone : s.delivered.getLast? ≠ some alarm := by
      simpa [SmokeRun.step, hhigh, poll_high_of_set hlatch hbuffer, hfailed] using hlater
    exact hnone (hs.last.mpr hbefore)

theorem inStep_of_changesSent {polls : List Poll} (h : ChangesSent polls) :
    InStep polls (run SmokeRun.step SmokeRun.init polls) := by
  induction polls using List.reverseRecOn with
  | nil => exact inStep_init
  | append_singleton polls p ih =>
      obtain ⟨hpolls, hp⟩ := justified_concat.mp h
      rw [run_append]
      exact (ih hpolls).step hp

/-! ## When the latch is honest all along -/

/-- **The latch is honest at every return to the head of the loop exactly when every send at a change
of the sensor succeeds.** By induction on the run: up to the first failed send at a change the loop is
in step with its readings, and that send leaves the latch wrong.
Source: `smoke_interface.c` `smoke_get`
Kind: P -/
theorem latchHonest_iff (polls : List Poll) :
    (∀ p, p <+: polls → LatchHonest (run SmokeRun.step SmokeRun.init p)) ↔ ChangesSent polls := by
  constructor
  · intro h
    induction polls using List.reverseRecOn with
    | nil => exact Justified.nil
    | append_singleton polls p ih =>
        have hpolls : ChangesSent polls :=
          ih fun q hq => h q (hq.trans (List.prefix_append polls [p]))
        have hlast := h (polls ++ [p]) (List.prefix_refl _)
        rw [run_append] at hlast
        refine justified_concat.mpr ⟨hpolls, fun hchange => ?_⟩
        exact (inStep_of_changesSent hpolls).sendOk_of_latchHonest hlast hchange
  · rintro h p ⟨q, rfl⟩
    have hp : ChangesSent p := by
      intro earlier e later htrace
      apply h earlier e (later ++ q)
      rw [htrace, List.append_assoc, List.cons_append]
    exact (inStep_of_changesSent hp).latchHonest

/-- **A lost clear is forgotten**: the alarm gets through, the clear does not, and the latch is clear
while the last frame delivered is the alarm; the next `HIGH` sends nothing.
Source: `smoke_interface.c` `smoke_get`
Kind: P -/
theorem lost_clear_forgotten :
    ¬ LatchHonest (run SmokeRun.step SmokeRun.init [⟨low, true⟩, ⟨high, false⟩]) ∧
      ((run SmokeRun.step SmokeRun.init [⟨low, true⟩, ⟨high, false⟩]).smoke.poll high).2 = none := by
  refine ⟨fun h => ?_, by decide⟩
  have hlatch := h.latch.mpr (by decide)
  revert hlatch
  decide

end SmartHome.Producers
