import Mathlib.Data.List.Nodup
import SmartHome.Found.LastOf
import SmartHome.Found.Runs
import SmartHome.Handler.Sequential

/-!
# The search for the voice module, on any control list

`receive_thread_handler` looks for the node whose name contains `voice` with a cursor `pcontrol` on
the nodes in memory. It prints the node's name, tests the cursor, compares the name, and advances;
the name of the next node is printed before the cursor is tested again. Behind the last node that
print is given a null string, which it writes as `(null)`, and the test then ends the loop.
`Search.step` is one of these steps on a heap, `Search.enter` the guard on the head in front of them.

`repeats_stopsAt` says where the cursor comes to rest on a chain (`stopsAt`), by induction along the
chain: at the first node with the name, or behind the last node. `search_endsAs` ties this to
`voiceSearch`, which `voicePhase` uses: the search of the pointers ends as the search of the records
does. Where a node has the name the cursor does not even get to `NULL` (`pcontrol_ne_none`).

`VoiceSearchSafe` is what a list built by registrations is for, and `voiceSearchSafe_iff` says which
registrations achieve it: those whose latest `voice` node, if there is one, has a `set`. (⇐) is
`voiceSearchSafe_of_latest`, or the loop's own test where no node has the name; (⇒) a search that
gets to its end does so where `stopsAt` says, since it comes to rest only once
(`over_stopsAt_of_reaches`). The list of `main` is safe in whatever order its modules are added
(`voiceSearchSafe_of_perm`).
-/

set_option autoImplicit false

namespace SmartHome.Handler

open SmartHome.Controls SmartHome.Found

/-! ## The loop -/

/-- What the search does next: print `pcontrol->control_name`, test `pcontrol`, compare the name; or
it is over, or the process died.
Source: `receive_interface.c` `receive_thread_handler`, the loop of the voice announcement
Kind: D -/
inductive SearchPc where
  | print
  | test
  | compare
  | over
  | crashed (null : NullDeref)
deriving DecidableEq, Repr

/-- The cursor, and the nodes whose `set` was started.
Source: `receive_interface.c` `receive_thread_handler`, the loop of the voice announcement
Kind: D -/
structure Search where
  pc : SearchPc
  pcontrol : Option ℕ
  started : List ℕ
deriving DecidableEq, Repr

/-- `strstr(pcontrol->control_name, "voice")`.
Source: `receive_interface.c` `receive_thread_handler`
Kind: D -/
def NamedVoice (pcontrol : Control) : Prop := strstr pcontrol.controlName "voice" = true

instance (pcontrol : Control) : Decidable (NamedVoice pcontrol) :=
  inferInstanceAs (Decidable (_ = true))

/-- The guard `NULL != control_phead` in front of the first print.
Source: `receive_interface.c` `receive_thread_handler`
Kind: D -/
def Search.enter (controlPhead : Option ℕ) : Search :=
  ⟨if controlPhead = none then .over else .print, controlPhead, []⟩

/-- One step of the search. The print changes nothing: `control_name` is an array at the start of the
node, so behind the last node `printf` is given a null string and reads none. `strstr` reads the name
through the cursor. A node found hands its `set` to `pthread_create`, and the loop breaks; the fire
test in between reads the frame only (`smokeStatus`).
Source: `receive_interface.c` `receive_thread_handler`, the loop of the voice announcement
Kind: D -/
def Search.step (heap : ℕ → Node) (s : Search) (_ : Unit) : Search :=
  match s.pc with
  | .print => { s with pc := .test }
  | .test => { s with pc := if s.pcontrol = none then .over else .compare }
  | .compare =>
      match s.pcontrol with
      | none => { s with pc := .crashed .pcontrol }
      | some a =>
          if NamedVoice (heap a).control then
            if (heap a).control.hasSet then { s with pc := .over, started := s.started ++ [a] }
            else { s with pc := .crashed .setRoutine }
          else { s with pc := .print, pcontrol := (heap a).next }
  | .over => s
  | .crashed _ => s

/-- The search gets from its guard to `s`. Source: none: infrastructure. Kind: D -/
def Search.Reaches (heap : ℕ → Node) (controlPhead : Option ℕ) (s : Search) : Prop :=
  Repeats (Search.step heap) () (Search.enter controlPhead) s

/-! ## Where the cursor comes to rest -/

/-- The search at a node with the name. Source: none: infrastructure. Kind: D -/
def stopAt (control : ℕ → Control) (a : ℕ) : Search :=
  if (control a).hasSet then ⟨.over, some a, [a]⟩ else ⟨.crashed .setRoutine, some a, []⟩

/-- The search along the nodes at the addresses `as`, once inside the loop.
Source: none: infrastructure. Kind: D -/
def stopsAt (control : ℕ → Control) : List ℕ → Search
  | [] => ⟨.over, none, []⟩
  | a :: as => if NamedVoice (control a) then stopAt control a else stopsAt control as

variable {heap : ℕ → Node} {control : ℕ → Control} {controlPhead : Option ℕ} {as : List ℕ} {a : ℕ}

theorem stopsAt_append_of_forall_not {as bs : List ℕ} (h : ∀ a ∈ as, ¬ NamedVoice (control a)) :
    stopsAt control (as ++ bs) = stopsAt control bs := by
  induction as with
  | nil => rfl
  | cons a as ih =>
      rw [List.cons_append, stopsAt, if_neg (h a List.mem_cons_self)]
      exact ih fun b hb => h b (List.mem_cons_of_mem _ hb)

theorem stopsAt_of_forall_not (h : ∀ a ∈ as, ¬ NamedVoice (control a)) :
    stopsAt control as = ⟨.over, none, []⟩ := by
  rw [← List.append_nil as, stopsAt_append_of_forall_not h, stopsAt]

theorem step_of_over (heap : ℕ → Node) {s : Search} (h : s.pc = .over) : s.step heap () = s := by
  simp only [Search.step, h]

theorem step_of_crashed (heap : ℕ → Node) {s : Search} {null : NullDeref}
    (h : s.pc = .crashed null) : s.step heap () = s := by
  simp only [Search.step, h]

/-- The search comes to rest where `stopsAt` says. -/
theorem step_stopsAt (heap : ℕ → Node) (control : ℕ → Control) (as : List ℕ) :
    (stopsAt control as).step heap () = stopsAt control as := by
  induction as with
  | nil => rfl
  | cons a as ih =>
      unfold stopsAt stopAt
      split_ifs
      · rfl
      · rfl
      · exact ih

/-- **The walk along a chain**: from the print on, the cursor gets to the first node with the name,
or through the last node to the test that ends the loop.
Source: `receive_interface.c` `receive_thread_handler`, the loop of the voice announcement
Kind: P -/
theorem repeats_stopsAt (h : Chain heap controlPhead as) :
    Repeats (Search.step heap) () ⟨.print, controlPhead, []⟩
      (stopsAt (fun a => (heap a).control) as) := by
  induction as generalizing controlPhead with
  | nil =>
      obtain rfl : controlPhead = none := h
      exact Repeats.head rfl (Repeats.single rfl)
  | cons a as ih =>
      obtain ⟨rfl, hnext⟩ := h
      have hcompare : Repeats (Search.step heap) () ⟨.print, some a, []⟩ ⟨.compare, some a, []⟩ :=
        Repeats.head rfl (Repeats.single rfl)
      refine hcompare.trans ?_
      by_cases hvoice : NamedVoice (heap a).control
      · rw [stopsAt, if_pos hvoice]
        apply Repeats.single
        simp only [Search.step, if_pos hvoice, stopAt, List.nil_append]
      · rw [stopsAt, if_neg hvoice]
        refine Repeats.head ?_ (ih hnext)
        simp only [Search.step, if_neg hvoice]

/-- The same from the guard on. -/
theorem reaches_stopsAt (h : Chain heap controlPhead as) :
    Search.Reaches heap controlPhead (stopsAt (fun a => (heap a).control) as) := by
  cases as with
  | nil =>
      obtain rfl : controlPhead = none := h
      exact Repeats.refl _ _
  | cons a as =>
      have hhead : controlPhead ≠ none := by simp [h.1]
      rw [Search.Reaches, Search.enter, if_neg hhead]
      exact repeats_stopsAt h

/-! ## Where a node has the name -/

/-- The cursor is on a chain on which a node with the name is still to come.
Source: none: infrastructure. Kind: D -/
def Search.Ahead (heap : ℕ → Node) (s : Search) : Prop :=
  ∃ as, Chain heap s.pcontrol as ∧ ∃ a ∈ as, NamedVoice (heap a).control

/-- The cursor does not pass a node with the name. -/
theorem ahead_step (s : Search) (u : Unit) (h : s.Ahead heap) : (Search.step heap s u).Ahead heap := by
  unfold Search.step
  cases s.pc with
  | compare =>
      obtain ⟨as, hchain, a, ha, hvoice⟩ := h
      cases as with
      | nil => exact absurd ha List.not_mem_nil
      | cons b as =>
          obtain ⟨hb, hnext⟩ := hchain
          have hstay : Chain heap s.pcontrol (b :: as) := ⟨hb, hnext⟩
          rw [hb] at hstay ⊢
          by_cases hname : NamedVoice (heap b).control
          · simp only [if_pos hname]
            split_ifs <;> exact ⟨b :: as, hstay, a, ha, hvoice⟩
          · simp only [if_neg hname]
            refine ⟨as, hnext, a, (List.mem_cons.mp ha).resolve_left ?_, hvoice⟩
            rintro rfl
            exact hname hvoice
  | _ => exact h

/-- **Where a node has the name, the cursor is never `NULL`**: the search ends at that node.
Source: `receive_interface.c` `receive_thread_handler`, the loop of the voice announcement
Kind: P -/
theorem pcontrol_ne_none (h : Chain heap controlPhead as) (ha : a ∈ as)
    (hvoice : NamedVoice (heap a).control) {s : Search} (hs : s.Reaches heap controlPhead) :
    s.pcontrol ≠ none := by
  obtain ⟨n, rfl⟩ := hs
  have henter : (Search.enter controlPhead).Ahead heap := ⟨as, h, a, ha, hvoice⟩
  have hahead : (run (Search.step heap) (Search.enter controlPhead) (List.replicate n ())).Ahead heap :=
    run_invariant ahead_step henter _
  obtain ⟨bs, hchain, b, hb, -⟩ := hahead
  intro hnull
  cases bs with
  | nil => exact absurd hb List.not_mem_nil
  | cons c bs => exact absurd (hnull.symm.trans hchain.1) (by simp)

/-! ## The records on the chain -/

/-- The search of the pointers ends as the announcement part does: over, with the same starts, or
in the same `NULL`.
Source: none: infrastructure. Kind: D -/
def Search.EndsAs (heap : ℕ → Node) (s : Outcome) (x : Search) :
    Except NullDeref (Outcome × ℤ) → Prop
  | .ok out =>
      x.pc = .over ∧
        out.1.events = s.events ++ x.started.map fun a => .startSet (heap a).control
  | .error e => x.pc = .crashed e

theorem voiceSearch_cons (pcontrol : Control) (next : List Control) :
    voiceSearch (pcontrol :: next) =
      if NamedVoice pcontrol then some pcontrol else voiceSearch next := rfl

/-- The two searches of one chain. Source: none: infrastructure. Kind: L -/
theorem voiceSearch_map (control : ℕ → Control) (as : List ℕ) :
    (voiceSearch (as.map control) = none ∧
        stopsAt control as = ⟨.over, none, []⟩) ∨
      ∃ a, voiceSearch (as.map control) = some (control a) ∧
        stopsAt control as = stopAt control a := by
  induction as with
  | nil => exact Or.inl ⟨rfl, rfl⟩
  | cons a as ih =>
      rw [List.map_cons, voiceSearch_cons, stopsAt]
      by_cases hvoice : NamedVoice (control a)
      · rw [if_pos hvoice, if_pos hvoice]
        exact Or.inr ⟨a, rfl, rfl⟩
      · rw [if_neg hvoice, if_neg hvoice]
        exact ih

/-- **The pointers and the records**: on a chain the search of the nodes in memory ends as the
announcement part of the handler does on the records.
Source: `receive_interface.c` `receive_thread_handler`, the loop of the voice announcement
Kind: P -/
theorem search_endsAs (h : Chain heap controlPhead as) {pdev : Device.Gdevice}
    (hvoice : pdev.voiceSetStatus = 1) (s : Outcome) :
    ∃ x, Search.Reaches heap controlPhead x ∧
      x.EndsAs heap s (voicePhase (as.map fun a => (heap a).control) pdev s) := by
  refine ⟨_, reaches_stopsAt h, ?_⟩
  cases as with
  | nil => simp [Search.EndsAs, stopsAt, voicePhase]
  | cons a as =>
      have hne : ((a :: as).map fun a => (heap a).control) ≠ [] := by simp
      rw [voicePhase, if_pos ⟨hvoice, hne⟩]
      rcases voiceSearch_map (fun a => (heap a).control) (a :: as) with
        ⟨hsearch, hstop⟩ | ⟨b, hsearch, hstop⟩
      · rw [hsearch, hstop]
        exact ⟨rfl, (List.append_nil _).symm⟩
      · rw [hsearch, hstop, stopAt]
        by_cases hset : (heap b).control.hasSet = true
        · simp [hset, Search.EndsAs, Outcome.emit]
        · simp [hset, Search.EndsAs]

/-! ## Lists built by registrations -/

/-- `a` is the most recently registered node whose name contains `voice`.
Source: none: the meaning of the search. Kind: D -/
def LatestVoice (heap : ℕ → Node) (registered : List ℕ) (a : ℕ) : Prop :=
  ∃ before after, registered = before ++ a :: after ∧ NamedVoice (heap a).control ∧
    ∀ b ∈ after, ¬ NamedVoice (heap b).control

/-- On the list these registrations build, the search gets to `s`.
Source: none: infrastructure. Kind: D -/
def Search.ReachesAfter (heap : ℕ → Node) (registered : List ℕ) (s : Search) : Prop :=
  s.Reaches (register heap registered).1 (register heap registered).2

/-- What the list is for: it holds each registered node once, the latest first, and the search on it
comes to its end without a read through a `NULL` cursor, having started the `set` of the most
recently registered node with the name, and of no node where there is none.
Source: none: the meaning of the search. Kind: D -/
structure VoiceSearchSafe (heap : ℕ → Node) (registered : List ℕ) : Prop where
  visits : ∀ as, Chain (register heap registered).1 (register heap registered).2 as ↔
    as = registered.reverse
  once : ∀ a ∈ registered, registered.reverse.count a = 1
  notNull : ∀ s : Search, s.ReachesAfter heap registered → s.pc ≠ .crashed .pcontrol
  ends : ∃ s : Search, s.ReachesAfter heap registered ∧ s.pc = .over ∧
    (∀ a, LatestVoice heap registered a → s.started = [a]) ∧
    ((∀ a ∈ registered, ¬ NamedVoice (heap a).control) → s.started = [])

variable {registered : List ℕ}

theorem latestVoice_or_forall_not (heap : ℕ → Node) (registered : List ℕ) :
    (∃ a, LatestVoice heap registered a) ∨ ∀ a ∈ registered, ¬ NamedVoice (heap a).control := by
  rcases exists_last_or_forall_not (fun a => NamedVoice (heap a).control) registered with
    ⟨before, a, after, hsplit, hvoice, hafter⟩ | hnone
  · exact Or.inl ⟨a, before, after, hsplit, hvoice, hafter⟩
  · exact Or.inr hnone

theorem LatestVoice.mem (h : LatestVoice heap registered a) : a ∈ registered := by
  obtain ⟨before, after, rfl, -, -⟩ := h
  simp

theorem LatestVoice.named (h : LatestVoice heap registered a) : NamedVoice (heap a).control := by
  obtain ⟨-, -, -, hvoice, -⟩ := h
  exact hvoice

theorem stopAt_pcontrol (control : ℕ → Control) (a : ℕ) :
    (stopAt control a).pcontrol = some a := by
  unfold stopAt
  split_ifs <;> rfl

/-- From the head, the search meets the most recent of the nodes with the name first. -/
theorem LatestVoice.stopsAt_reverse (h : LatestVoice heap registered a) :
    stopsAt (fun a => (heap a).control) registered.reverse =
      stopAt (fun a => (heap a).control) a := by
  obtain ⟨before, after, rfl, hvoice, hafter⟩ := h
  rw [List.reverse_append, List.reverse_cons, List.append_assoc, stopsAt_append_of_forall_not
    fun b hb => hafter b (List.mem_reverse.mp hb), List.singleton_append, stopsAt, if_pos hvoice]

theorem LatestVoice.unique {b : ℕ} (h : LatestVoice heap registered a)
    (h' : LatestVoice heap registered b) : a = b := by
  have hstop := congrArg Search.pcontrol (h.stopsAt_reverse.symm.trans h'.stopsAt_reverse)
  rw [stopAt_pcontrol, stopAt_pcontrol] at hstop
  exact Option.some.inj hstop

theorem stopsAt_reverse_of_forall_not (h : ∀ a ∈ registered, ¬ NamedVoice (heap a).control) :
    stopsAt (fun a => (heap a).control) registered.reverse = ⟨.over, none, []⟩ :=
  stopsAt_of_forall_not fun a ha => h a (List.mem_reverse.mp ha)

/-- **The search on a list built by registrations.**
Source: `receive_interface.c` `receive_thread_handler`, `control.c` `add_interface_to_control_list`
Kind: P -/
theorem reaches_register (hnodup : registered.Nodup)
    (hnext : ∀ a ∈ registered, (heap a).next = none) :
    (stopsAt (fun a => (heap a).control) registered.reverse).ReachesAfter heap registered := by
  have hwalk := reaches_stopsAt (chain_register hnodup hnext)
  simp only [control_register] at hwalk
  exact hwalk

/-! ## Which registrations make the search safe -/

/-- The search of a list built by registrations gets to its end only where `stopsAt` says so.
Source: none: infrastructure. Kind: L -/
theorem over_stopsAt_of_reaches (hnodup : registered.Nodup)
    (hnext : ∀ a ∈ registered, (heap a).next = none) {s : Search}
    (hs : s.ReachesAfter heap registered) (hover : s.pc = .over) :
    (stopsAt (fun a => (heap a).control) registered.reverse).pc = .over := by
  have hrest := hs.eq_of_fixed (reaches_register hnodup hnext) (step_of_over _ hover)
    (step_stopsAt _ _ _)
  rw [← hrest, hover]

/-- A search that gets to its end has not gone through `NULL` on the way; what is left of the safety
is what it has started.
Source: none: infrastructure. Kind: L -/
theorem voiceSearchSafe_of_over (hnodup : registered.Nodup)
    (hnext : ∀ a ∈ registered, (heap a).next = none) {x : Search}
    (hx : x.ReachesAfter heap registered)
    (hover : x.pc = .over) (hlatest : ∀ a, LatestVoice heap registered a → x.started = [a])
    (hnone : (∀ a ∈ registered, ¬ NamedVoice (heap a).control) → x.started = []) :
    VoiceSearchSafe heap registered where
  visits as := by
    have hchain := chain_register hnodup hnext
    constructor
    · intro h
      exact h.unique hchain
    · rintro rfl
      exact hchain
  once a ha := List.count_eq_one_of_mem (List.nodup_reverse.mpr hnodup) (List.mem_reverse.mpr ha)
  notNull s hs hnull := by
    have hrest := hs.eq_of_fixed hx (step_of_crashed _ hnull) (step_of_over _ hover)
    rw [hrest, hover] at hnull
    cases hnull
  ends := ⟨x, hx, hover, hlatest, hnone⟩

/-- **A list without a voice module**: the loop ends by its own test, and nothing is started.
Source: `receive_interface.c` `receive_thread_handler`
Kind: P -/
theorem voiceSearchSafe_of_forall_not (hnodup : registered.Nodup)
    (hnext : ∀ a ∈ registered, (heap a).next = none)
    (hnone : ∀ a ∈ registered, ¬ NamedVoice (heap a).control) : VoiceSearchSafe heap registered := by
  have hx := reaches_register hnodup hnext
  rw [stopsAt_reverse_of_forall_not hnone] at hx
  refine voiceSearchSafe_of_over hnodup hnext hx rfl ?_ fun _ => rfl
  intro a h
  exact absurd h.named (hnone a h.mem)

/-- **A list with a voice module**: the search stops at the latest of them and starts its `set`.
Source: `receive_interface.c` `receive_thread_handler`
Kind: P -/
theorem voiceSearchSafe_of_latest (hnodup : registered.Nodup)
    (hnext : ∀ a ∈ registered, (heap a).next = none) (h : LatestVoice heap registered a)
    (hset : (heap a).control.hasSet = true) : VoiceSearchSafe heap registered := by
  have hx := reaches_register hnodup hnext
  rw [h.stopsAt_reverse, stopAt, if_pos hset] at hx
  refine voiceSearchSafe_of_over hnodup hnext hx rfl ?_ ?_
  · intro b hb
    rw [h.unique hb]
  · intro hnone
    exact absurd h.named (hnone a h.mem)

/-- **When the search is safe**: exactly where the latest node with the name, if there is one, has a
`set`. The search hands it to `pthread_create` without a look.
Source: `receive_interface.c` `receive_thread_handler`, `control.c` `add_interface_to_control_list`
Kind: P -/
theorem voiceSearchSafe_iff (hnodup : registered.Nodup)
    (hnext : ∀ a ∈ registered, (heap a).next = none) :
    VoiceSearchSafe heap registered ↔
      ∀ a, LatestVoice heap registered a → (heap a).control.hasSet = true := by
  constructor
  · intro hsafe a h
    obtain ⟨s, hs, hover, -, -⟩ := hsafe.ends
    have hstop := over_stopsAt_of_reaches hnodup hnext hs hover
    by_contra hset
    rw [h.stopsAt_reverse, stopAt, if_neg hset] at hstop
    cases hstop
  · intro hset
    rcases latestVoice_or_forall_not heap registered with ⟨a, h⟩ | hnone
    · exact voiceSearchSafe_of_latest hnodup hnext h (hset a h)
    · exact voiceSearchSafe_of_forall_not hnodup hnext hnone

/-- The registrations of `main`: the voice module is the first, the last on the list.
Source: `main.c` `main`
Kind: L -/
theorem voiceSearchSafe_main :
    LatestVoice staticControls [0, 1, 2, 3] 0 ∧ VoiceSearchSafe staticControls [0, 1, 2, 3] := by
  have hvoice : ∀ a ∈ [0, 1, 2, 3], NamedVoice (staticControls a).control →
      (staticControls a).control.hasSet = true := by decide
  refine ⟨⟨[], [1, 2, 3], rfl, by decide, by decide⟩, ?_⟩
  exact (voiceSearchSafe_iff (by decide) fun a _ => next_staticControls a).mpr
    fun a h => hvoice a h.mem h.named

/-- The modules of `main` and, at address `4`, one whose name contains `voice` and that like three of
them has no `set`.
Source: none: an example. Kind: D -/
def withVoiceInput : ℕ → Node
  | 4 => ⟨⟨"voice_input", false⟩, none⟩
  | a => staticControls a

/-- `main` with that module added last: the search stops there, and its `NULL` is started.
Source: `main.c` `main`, `receive_interface.c` `receive_thread_handler`
Kind: L -/
theorem latest_voice_without_set_crashes :
    ¬ ∀ (heap : ℕ → Node) (registered : List ℕ), registered.Nodup →
      (∀ a ∈ registered, (heap a).next = none) → VoiceSearchSafe heap registered := by
  intro h
  have hnodup : [0, 1, 2, 3, 4].Nodup := by decide
  have hnext : ∀ a ∈ [0, 1, 2, 3, 4], (withVoiceInput a).next = none := by decide
  obtain ⟨s, hs, hover, -, -⟩ := (h withVoiceInput [0, 1, 2, 3, 4] hnodup hnext).ends
  exact absurd (over_stopsAt_of_reaches hnodup hnext hs hover) (by decide)

/-- **The order of registration does not matter**: the four modules, added in any order, make a safe
list.
Source: `main.c` `main`, `control.c` `add_interface_to_control_list`
Kind: C -/
theorem voiceSearchSafe_of_perm (h : registered.Perm [0, 1, 2, 3]) :
    VoiceSearchSafe staticControls registered := by
  have hnodup : registered.Nodup := h.nodup_iff.mpr (by decide)
  have hvoice : ∀ a ∈ [0, 1, 2, 3], NamedVoice (staticControls a).control → a = 0 := by decide
  rcases latestVoice_or_forall_not staticControls registered with ⟨a, hlatest⟩ | hnone
  · have ha := hvoice a (h.mem_iff.mp hlatest.mem) hlatest.named
    subst ha
    exact voiceSearchSafe_of_latest hnodup (fun b _ => next_staticControls b) hlatest rfl
  · exact absurd (by decide) (hnone 0 (h.mem_iff.mpr (by simp)))

end SmartHome.Handler
