import SmartHome.Controls.ControlList
import SmartHome.Found.Pool
import SmartHome.Found.Runs

/-!
# `main` and the four `get` threads

`main` creates one thread for the `get` of each control on its list, joins them in order ("等待线程结束"),
and then tears everything down ("回收资源"): every control's `final`, the queue, `control_info`,
`tid`. Each `get` detaches itself at some point of its own, and all but `socket_control_get` run
for ever once they are in their loop.

`Process` is `main` with the threads created so far. `pthread_join` on a thread already detached
returns at once with an error, on a joinable thread it waits for the end, and a `pthread_detach`
that comes while it waits does not wake it. `TeardownWaits` says that the teardown finds no live
thread. It holds in the runs in which no join is called on a live thread that has detached itself
(`teardownWaits_of_joinsJoinable`); with the queue open it fails in every run that gets to the
teardown at all (`teardownWaits_iff_not_teardown`), as `smoke_get` never ends, and
`detached_threads_overtaken` is such a run.
-/

set_option autoImplicit false

namespace SmartHome.Concurrent

open SmartHome.Controls SmartHome.Found

/-- The four `get` functions.
Source: `receive_interface.c`, `smoke_interface.c`, `socket_interface.c`, `voice_interface.c`
Kind: D -/
inductive Get where
  | receiveGet
  | smokeGet
  | socketControlGet
  | voiceGet
deriving DecidableEq, Repr

/-- The control a `get` belongs to.
Source: `receive_interface.c`, `smoke_interface.c`, `socket_interface.c`, `voice_interface.c`
Kind: D -/
def Get.control : Get → Control
  | .receiveGet => ⟨"receive", false⟩
  | .smokeGet => ⟨"smoke", false⟩
  | .socketControlGet => ⟨"socket_control", false⟩
  | .voiceGet => ⟨"voice", true⟩

/-- The `get` functions in the order in which `main` starts them.
Source: `main.c` `main`
Kind: D -/
def gets : List Get := [.receiveGet, .smokeGet, .socketControlGet, .voiceGet]

/-- The threads are started along the control list. -/
theorem map_control_gets : gets.map Get.control = mainControls := rfl

/-- `node_num`. Source: `main.c` `main`. Kind: D -/
def nodeNum : ℕ := gets.length

/-- Where a `get` thread is: at its first statement, between that and its loop, in the loop, or at its
end.
Source: `receive_interface.c`, `smoke_interface.c`, `socket_interface.c`, `voice_interface.c`
Kind: D -/
inductive GetPc where
  | entry
  | setup
  | loop
  | ended
deriving DecidableEq, Repr

/-- A `get` thread.
Source: none: infrastructure. Kind: D -/
structure GetThread where
  pc : GetPc
  detached : Bool
deriving DecidableEq, Repr

/-- A thread just created. Source: `main.c` `main`. Kind: D -/
def GetThread.created : GetThread := ⟨.entry, false⟩

/-- One step of a `get`. `ok` is what the environment answers where the step depends on it:
`mq_getattr` in `receive_get`, `socket_control_init` and then `accept` in `socket_control_get`,
`voice_init` in `voice_get`.
Source: `receive_interface.c` `receive_get`, `smoke_interface.c` `smoke_get`,
`socket_interface.c` `socket_control_get`, `voice_interface.c` `voice_get`
Kind: D -/
def GetThread.step (mqd : ℤ) (get : Get) (ok : Bool) (t : GetThread) : GetThread :=
  match get, t.pc with
  | .receiveGet, .entry => ⟨.setup, true⟩
  | .receiveGet, .setup => { t with pc := if ok then .loop else .ended }
  | .receiveGet, .loop => t
  | .smokeGet, .entry => { t with pc := if mqd = -1 then .ended else .setup }
  | .smokeGet, .setup => ⟨.loop, true⟩
  | .smokeGet, .loop => t
  | .socketControlGet, .entry => ⟨.setup, true⟩
  | .socketControlGet, .setup => { t with pc := if ok then .loop else .ended }
  | .socketControlGet, .loop => { t with pc := if ok then .loop else .ended }
  | .voiceGet, .entry => { t with pc := if ok then .setup else .ended }
  | .voiceGet, .setup => ⟨.loop, true⟩
  | .voiceGet, .loop => t
  | _, .ended => t

/-- Where `main` is: `join` is before the call, `waiting` inside a call that waits; the teardown begins
at the first `final`.
Source: `main.c` `main`
Kind: D -/
inductive MainPc where
  | createMqd
  | create (i : ℕ)
  | join (i : ℕ)
  | waiting (i : ℕ)
  | final (i : ℕ)
  | destroyMqd
  | freeControlInfo
  | freeTid
  | returned
deriving DecidableEq, Repr

/-- The process: `main` and the threads it has created, `tid[i]` being the one at position `i`.
Source: `main.c` `main`
Kind: D -/
structure Process where
  main : MainPc
  threads : List GetThread
deriving DecidableEq, Repr

/-- Who moves.
Source: `main.c` `main`
Kind: D -/
inductive ProcessAct where
  | main
  | get (i : ℕ) (ok : Bool)
deriving DecidableEq, Repr

/-- At the start of `main`. Source: `main.c` `main`. Kind: D -/
def Process.init : Process := ⟨.createMqd, []⟩

/-- One step of `main`; `mqd` is what `create_mqd` returns.
Source: `main.c` `main`
Kind: D -/
def Process.mainStep (mqd : ℤ) (s : Process) : Process :=
  match s.main with
  | .createMqd => { s with main := if mqd = -1 then .returned else .create 0 }
  | .create i =>
      if i < nodeNum then ⟨.create (i + 1), s.threads ++ [GetThread.created]⟩
      else { s with main := .join 0 }
  | .join i =>
      if i < nodeNum then
        match s.threads[i]? with
        | none => s
        | some t => { s with main := if t.detached then .join (i + 1) else .waiting i }
      else { s with main := .final 0 }
  | .waiting i =>
      match s.threads[i]? with
      | none => s
      | some t => { s with main := if t.pc = .ended then .join (i + 1) else .waiting i }
  | .final i => { s with main := if i < nodeNum then .final (i + 1) else .destroyMqd }
  | .destroyMqd => { s with main := .freeControlInfo }
  | .freeControlInfo => { s with main := .freeTid }
  | .freeTid => { s with main := .returned }
  | .returned => s

/-- One step of the process; nothing moves after `main` has returned.
Source: `main.c` `main`
Kind: D -/
def Process.step (mqd : ℤ) (s : Process) (a : ProcessAct) : Process :=
  if s.main = .returned then s
  else match a with
    | .main => s.mainStep mqd
    | .get i ok =>
        match gets[i]?, s.threads[i]? with
        | some get, some t => { s with threads := s.threads.set i (t.step mqd get ok) }
        | _, _ => s

/-- `main` is in the teardown, or has returned.
Source: `main.c` `main`
Kind: D -/
def MainPc.Teardown : MainPc → Prop
  | .createMqd | .create _ | .join _ | .waiting _ => False
  | _ => True

/-- **Teardown never overtakes a live worker.**
Source: none: the purpose of the joins. Kind: D -/
def TeardownWaits (s : Process) : Prop :=
  s.main.Teardown → ∀ t ∈ s.threads, t.pc = .ended

/-- The thread that `main` is about to join.
Source: `main.c` `main`
Kind: D -/
def Process.joining (s : Process) : Option GetThread :=
  match s.main with
  | .join i => s.threads[i]?
  | _ => none

/-- `main` calls `pthread_join` only on a thread that has not detached itself, or has ended.
Source: none: the condition on the schedule. Kind: D -/
def JoinsJoinable (s : Process) (a : ProcessAct) : Prop :=
  a = .main → ∀ t ∈ s.joining, t.detached = false ∨ t.pc = .ended

instance (s : Process) (a : ProcessAct) : Decidable (JoinsJoinable s a) :=
  inferInstanceAs (Decidable (a = .main → ∀ t ∈ s.joining, t.detached = false ∨ t.pc = .ended))

/-! ## The step, case by case -/

variable {mqd : ℤ} {s : Process}

/-- **What a step of `main` can be.** A call of `pthread_join` passes a detached thread, waits for a
joinable one, and passes that one when it has ended.
Source: `main.c` `main`
Kind: P -/
theorem Process.mainStep_induction {P : Process → Prop} (hstay : P s)
    (hfailed : s.main = .createMqd → mqd = -1 → P { s with main := .returned })
    (hopened : s.main = .createMqd → P { s with main := .create 0 })
    (hcreate : ∀ i, s.main = .create i → i < nodeNum →
      P ⟨.create (i + 1), s.threads ++ [GetThread.created]⟩)
    (hcreated : ∀ i, s.main = .create i → ¬ i < nodeNum → P { s with main := .join 0 })
    (hdetached : ∀ i t, s.main = .join i → s.threads[i]? = some t → t.detached = true →
      P { s with main := .join (i + 1) })
    (hwait : ∀ i, s.main = .join i → P { s with main := .waiting i })
    (hended : ∀ i t, s.main = .waiting i → s.threads[i]? = some t → t.pc = .ended →
      P { s with main := .join (i + 1) })
    (hjoined : ∀ i, s.main = .join i → ¬ i < nodeNum → P { s with main := .final 0 })
    (hteardown : ∀ pc, s.main.Teardown → pc.Teardown → P { s with main := pc }) :
    P (s.mainStep mqd) := by
  unfold Process.mainStep
  cases hmain : s.main with
  | createMqd =>
      by_cases hmqd : mqd = -1
      · simpa only [hmqd, if_true] using hfailed hmain hmqd
      · simpa only [hmqd, if_false] using hopened hmain
  | create i =>
      by_cases hi : i < nodeNum
      · simpa only [hi, if_true] using hcreate i hmain hi
      · simpa only [hi, if_false] using hcreated i hmain hi
  | join i =>
      by_cases hi : i < nodeNum
      · simp only [hi, if_true]
        cases hit : s.threads[i]? with
        | none => exact hstay
        | some t =>
            cases hdet : t.detached with
            | true => simpa only [hdet, if_true] using hdetached i t hmain hit hdet
            | false => simpa only [hdet, Bool.false_eq_true, if_false] using hwait i hmain
      · simpa only [hi, if_false] using hjoined i hmain hi
  | waiting i =>
      cases hit : s.threads[i]? with
      | none => simpa only [hit] using hstay
      | some t =>
          by_cases hpc : t.pc = .ended
          · simpa only [hit, hpc, if_true] using hended i t hmain hit hpc
          · simpa only [hit, hpc, if_false, ← hmain] using hstay
  | final i =>
      have hin : s.main.Teardown := by
        rw [hmain]
        trivial
      by_cases hi : i < nodeNum
      · simpa only [hi, if_true] using hteardown (.final (i + 1)) hin trivial
      · simpa only [hi, if_false] using hteardown .destroyMqd hin trivial
  | destroyMqd => exact hteardown .freeControlInfo (by rw [hmain]; trivial) trivial
  | freeControlInfo => exact hteardown .freeTid (by rw [hmain]; trivial) trivial
  | freeTid => exact hteardown .returned (by rw [hmain]; trivial) trivial
  | returned => exact hstay

/-- What a step of the process can be: nothing, a step of `main`, or a step of one thread.
Source: `main.c` `main`
Kind: P -/
theorem Process.step_induction {P : Process → Prop} (a : ProcessAct) (hstay : P s)
    (hmain : a = .main → P (s.mainStep mqd))
    (hget : ∀ i get t ok, gets[i]? = some get → s.threads[i]? = some t →
      P { s with threads := s.threads.set i (t.step mqd get ok) }) :
    P (s.step mqd a) := by
  unfold Process.step
  by_cases hreturned : s.main = .returned
  · rw [if_pos hreturned]
    exact hstay
  · rw [if_neg hreturned]
    cases a with
    | main => exact hmain rfl
    | get i ok =>
        cases hg : gets[i]? with
        | none => simpa only [hg] using hstay
        | some get =>
            cases ht : s.threads[i]? with
            | none => simpa only [hg, ht] using hstay
            | some t => simpa only [hg, ht] using hget i get t ok hg ht

/-! ## The invariant -/

/-- The invariant: the threads created are those of the list, and those joined have ended.
Source: `main.c` `main`
Kind: D -/
def Waited (s : Process) : Prop :=
  match s.main with
  | .createMqd => s.threads = []
  | .create i => s.threads.length = i ∧ i ≤ nodeNum
  | .join i | .waiting i => s.threads.length = nodeNum ∧ Each (fun j t => j < i → t.pc = .ended) s.threads
  | _ => Each (fun _ t => t.pc = .ended) s.threads

theorem waited_iff_of_teardown {pc : MainPc} (hpc : pc.Teardown) {threads : List GetThread} :
    Waited ⟨pc, threads⟩ ↔ Each (fun _ t => t.pc = .ended) threads := by
  cases pc <;> first | exact hpc.elim | exact Iff.rfl

/-- One more thread joined, and it has ended. -/
theorem joined_succ {threads : List GetThread} {i : ℕ} {t : GetThread}
    (hjoined : Each (fun j t => j < i → t.pc = .ended) threads) (hit : threads[i]? = some t)
    (hended : t.pc = .ended) : Each (fun j t => j < i + 1 → t.pc = .ended) threads := by
  intro j u hj hlt
  have h := hjoined j u hj
  rcases Nat.lt_succ_iff_lt_or_eq.mp hlt with hji | rfl
  · exact h hji
  · rw [hit] at hj
    cases hj
    exact hended

theorem GetThread.step_ended {t : GetThread} (h : t.pc = .ended) (get : Get) (ok : Bool) :
    (t.step mqd get ok).pc = .ended := by
  cases get <;> simp [GetThread.step, h]

theorem Waited.get (hs : Waited s) {i : ℕ} {t : GetThread} (ht : s.threads[i]? = some t) (get : Get)
    (ok : Bool) : Waited { s with threads := s.threads.set i (t.step mqd get ok) } := by
  unfold Waited at hs ⊢
  cases hmain : s.main with
  | createMqd =>
      simp only [hmain] at hs
      rw [hs] at ht
      simp at ht
  | create j =>
      simp only [hmain] at hs
      simpa only [List.length_set] using hs
  | join j =>
      simp only [hmain] at hs
      refine ⟨by rw [List.length_set]; exact hs.1, ?_⟩
      exact hs.2.set (fun hij => GetThread.step_ended (hs.2 i t ht hij) get ok) fun _ _ _ _ h => h
  | waiting j =>
      simp only [hmain] at hs
      refine ⟨by rw [List.length_set]; exact hs.1, ?_⟩
      exact hs.2.set (fun hij => GetThread.step_ended (hs.2 i t ht hij) get ok) fun _ _ _ _ h => h
  | _ =>
      simp only [hmain] at hs
      exact hs.set (GetThread.step_ended (hs i t ht) get ok) fun _ _ _ _ h => h

theorem Waited.main (hs : Waited s) (hok : JoinsJoinable s .main) : Waited (s.mainStep mqd) := by
  have hwaited := hs
  unfold Waited at hs
  apply Process.mainStep_induction hwaited
  · intro hmain _
    simp only [hmain] at hs
    simp only [Waited, hs]
    exact Each.nil
  · intro hmain
    simp only [hmain] at hs
    simp only [Waited, hs]
    exact ⟨rfl, Nat.zero_le _⟩
  · intro i hmain hi
    simp only [hmain] at hs
    refine ⟨?_, hi⟩
    rw [List.length_append, hs.1]
    rfl
  · intro i hmain hi
    simp only [hmain] at hs
    have hall : s.threads.length = nodeNum := by omega
    exact ⟨hall, fun j t _ hj => absurd hj (Nat.not_lt_zero j)⟩
  · intro i t hmain hit hdetached
    simp only [hmain] at hs
    -- the call returns at once, but on a thread that has ended
    have hjoining : s.joining = some t := by simp only [Process.joining, hmain, hit]
    have hended : t.pc = .ended := by
      rcases hok rfl t hjoining with hno | hended
      · rw [hdetached] at hno
        cases hno
      · exact hended
    exact ⟨hs.1, joined_succ hs.2 hit hended⟩
  · intro i hmain
    simpa only [hmain, Waited] using hs
  · intro i t hmain hit hended
    simp only [hmain] at hs
    exact ⟨hs.1, joined_succ hs.2 hit hended⟩
  · intro i hmain hi
    simp only [hmain] at hs
    intro j t hj
    have hjlt : j < s.threads.length := (List.getElem?_eq_some_iff.mp hj).1
    exact hs.2 j t hj (by omega)
  · intro pc hin hpc
    exact (waited_iff_of_teardown hpc).mpr ((waited_iff_of_teardown hin).mp hwaited)

theorem waited_step (s : Process) (a : ProcessAct) (hok : JoinsJoinable s a) (hs : Waited s) :
    Waited (s.step mqd a) := by
  apply Process.step_induction a hs
  · rintro rfl
    exact hs.main hok
  · intro i get t ok _ ht
    exact hs.get ht get ok

theorem Waited.teardownWaits (hs : Waited s) : TeardownWaits s := by
  intro hteardown t ht
  obtain ⟨i, hi⟩ := List.mem_iff_getElem?.mp ht
  exact (waited_iff_of_teardown hteardown).mp hs i t hi

/-- **When the teardown never overtakes a live worker**: in a run in which no `pthread_join` is called on
a live thread that has already detached itself, in every state reached in the teardown, and after it,
all threads have ended.
Source: `main.c` `main`
Kind: P -/
theorem teardownWaits_of_joinsJoinable (mqd : ℤ) (acts : List ProcessAct)
    (hok : Meets (Process.step mqd) JoinsJoinable Process.init acts) :
    ∀ p, p <+: acts → TeardownWaits (run (Process.step mqd) Process.init p) := by
  have hstart : Waited Process.init := rfl
  exact fun _ hp => (hok.invariant_of_prefix waited_step hstart hp).teardownWaits

/-- A run of the condition: `main` waits for `receive_get`, which ends because `mq_getattr` fails, and
then waits for `smoke_get`, which detaches itself meanwhile.
Source: none: a run. Kind: D -/
def patientMain : List ProcessAct :=
  List.replicate 7 .main ++ [.get 0 true, .get 0 false, .main, .main, .get 1 true, .get 1 true]

/-- The run of `patientMain` leaves `main` in its second join.
Source: `main.c` `main`
Kind: L -/
theorem teardownWaits_patientMain :
    (run (Process.step 3) Process.init patientMain).main = .waiting 1
      ∧ TeardownWaits (run (Process.step 3) Process.init patientMain) := by
  refine ⟨by decide, ?_⟩
  exact teardownWaits_of_joinsJoinable 3 patientMain (by decide) patientMain List.prefix_rfl

/-- At the failing input: all four threads detach themselves before `main` joins the first, so no join
waits, and `main` begins the teardown under four live threads.
Source: `main.c` `main`
Kind: C -/
theorem detached_threads_overtaken : ¬ ∀ (mqd : ℤ) (acts : List ProcessAct),
    TeardownWaits (run (Process.step mqd) Process.init acts) := by
  intro h
  have hwaits := h 3 (List.replicate 6 .main
    ++ [.get 0 true, .get 1 true, .get 1 true, .get 2 true, .get 3 true, .get 3 true]
    ++ List.replicate 5 .main)
  -- the receive thread is past its detach and has not entered its loop
  have hlive := hwaits (by trivial) ⟨.setup, true⟩ (by decide)
  cases hlive

/-! ## What the condition amounts to -/

/-- How many threads `main` has created.
Source: `main.c` `main`
Kind: D -/
def MainPc.started : MainPc → ℕ
  | .createMqd => 0
  | .create i => i
  | _ => nodeNum

/-- The invariant of a `main` that has its queue: the smoke thread has not ended.
Source: `smoke_interface.c` `smoke_get`
Kind: D -/
def SmokeRuns (s : Process) : Prop :=
  s.threads.length = s.main.started ∧ s.main.started ≤ nodeNum
    ∧ Each (fun i t => gets[i]? = some .smokeGet → t.pc ≠ .ended) s.threads

theorem GetThread.step_smokeGet {t : GetThread} (hmqd : mqd ≠ -1) (h : t.pc ≠ .ended) (ok : Bool) :
    (t.step mqd .smokeGet ok).pc ≠ .ended := by
  unfold GetThread.step
  cases hpc : t.pc with
  | entry => simp [hmqd]
  | setup => simp
  | loop => simp [hpc]
  | ended => exact absurd hpc h

theorem MainPc.started_of_teardown {pc : MainPc} (hpc : pc.Teardown) : pc.started = nodeNum := by
  cases pc <;> first | exact hpc.elim | rfl

theorem SmokeRuns.main (hmqd : mqd ≠ -1) (hs : SmokeRuns s) : SmokeRuns (s.mainStep mqd) := by
  have hruns := hs
  obtain ⟨hlen, hle, hsmoke⟩ := hs
  apply Process.mainStep_induction hruns
  · intro _ hno
    exact absurd hno hmqd
  · intro hmain
    rw [hmain] at hlen
    exact ⟨hlen, Nat.zero_le _, hsmoke⟩
  · intro i hmain hi
    rw [hmain] at hlen
    refine ⟨?_, hi, hsmoke.concat (fun _ => by simp [GetThread.created]) fun _ _ _ h => h⟩
    rw [List.length_append, hlen]
    rfl
  · intro i hmain hi
    rw [hmain] at hlen hle
    exact ⟨hlen.trans (le_antisymm hle (not_lt.mp hi)), le_rfl, hsmoke⟩
  · intro i t hmain _ _
    rw [hmain] at hlen
    exact ⟨hlen, le_rfl, hsmoke⟩
  · intro i hmain
    rw [hmain] at hlen
    exact ⟨hlen, le_rfl, hsmoke⟩
  · intro i t hmain _ _
    rw [hmain] at hlen
    exact ⟨hlen, le_rfl, hsmoke⟩
  · intro i hmain _
    rw [hmain] at hlen
    exact ⟨hlen, le_rfl, hsmoke⟩
  · intro pc hin hpc
    rw [MainPc.started_of_teardown hin] at hlen
    exact ⟨hlen.trans (MainPc.started_of_teardown hpc).symm,
      (MainPc.started_of_teardown hpc).le, hsmoke⟩

theorem SmokeRuns.get (hmqd : mqd ≠ -1) (hs : SmokeRuns s) {i : ℕ} {get : Get} {t : GetThread}
    (hget : gets[i]? = some get) (ht : s.threads[i]? = some t) (ok : Bool) :
    SmokeRuns { s with threads := s.threads.set i (t.step mqd get ok) } := by
  obtain ⟨hlen, hle, hsmoke⟩ := hs
  refine ⟨by rw [List.length_set]; exact hlen, hle, hsmoke.set ?_ fun _ _ _ _ h => h⟩
  intro hi
  obtain rfl : get = .smokeGet := Option.some.inj (hget.symm.trans hi)
  exact GetThread.step_smokeGet hmqd (hsmoke i t ht hi) ok

theorem smokeRuns_step (hmqd : mqd ≠ -1) (s : Process) (a : ProcessAct) (hs : SmokeRuns s) :
    SmokeRuns (s.step mqd a) := by
  apply Process.step_induction a hs
  · intro _
    exact hs.main hmqd
  · intro i get t ok hget ht
    exact hs.get hmqd hget ht ok

theorem SmokeRuns.not_teardownWaits (hs : SmokeRuns s) (hteardown : s.main.Teardown) :
    ¬ TeardownWaits s := by
  intro hwaits
  obtain ⟨hlen, -, hsmoke⟩ := hs
  have hlt : 1 < s.threads.length := by
    rw [hlen, MainPc.started_of_teardown hteardown]
    decide
  have hended := hwaits hteardown _ (List.getElem_mem hlt)
  exact hsmoke 1 _ (List.getElem?_eq_getElem hlt) rfl hended

/-- Once the queue is open the smoke thread never ends: `main` keeps the condition only by waiting for
ever, and in every run the teardown, where it is reached, overtakes a live thread.
Source: `main.c` `main`, `smoke_interface.c` `smoke_get`
Kind: P -/
theorem teardownWaits_iff_not_teardown (hmqd : mqd ≠ -1) (acts : List ProcessAct) :
    TeardownWaits (run (Process.step mqd) Process.init acts)
      ↔ ¬ (run (Process.step mqd) Process.init acts).main.Teardown := by
  have hstart : SmokeRuns Process.init := ⟨rfl, Nat.zero_le _, Each.nil⟩
  have hs := run_invariant (smokeRuns_step hmqd) hstart acts
  constructor
  · intro hwaits hteardown
    exact hs.not_teardownWaits hteardown hwaits
  · intro hno hteardown
    exact absurd hteardown hno

end SmartHome.Concurrent
