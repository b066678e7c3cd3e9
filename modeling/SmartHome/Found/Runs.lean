import Mathlib.Data.List.Infix

/-!
# Runs of a machine that takes labelled steps

A machine is a function `step : σ → α → σ`; a label stands for who moves and for what the
environment answers, and a label that is not enabled leaves the state alone. A run is the list
of its labels, an interleaving of several parties is a list of their labels in any order, and
the states a run reaches are the states after its prefixes.

`Meets step ok s as` says that every step of the run `as` from `s` is taken in a state in which
`ok` allows it. `Meets.invariant` is the induction rule: an invariant that holds at the start
and that every allowed step preserves holds in every state reached; `run_invariant` is the
case of a machine whose every step is allowed.
-/

set_option autoImplicit false

namespace SmartHome.Found

variable {σ α : Type*} (step : σ → α → σ)

/-- The state after the run `as`. Source: none: infrastructure. Kind: D -/
def run (s : σ) (as : List α) : σ := as.foldl step s

/-- The run that does nothing. Source: none: infrastructure. Kind: L -/
@[simp] theorem run_nil (s : σ) : run step s [] = s := rfl

/-- The first step of a run. Source: none: infrastructure. Kind: L -/
@[simp] theorem run_cons (s : σ) (a : α) (as : List α) :
    run step s (a :: as) = run step (step s a) as := rfl

/-- Runs compose. Source: none: infrastructure. Kind: L -/
theorem run_append (s : σ) (as bs : List α) :
    run step s (as ++ bs) = run step (run step s as) bs := by
  simp [run]

/-- Every step of the run is taken in a state that allows it.
Source: none: infrastructure. Kind: D -/
def Meets (ok : σ → α → Prop) : σ → List α → Prop
  | _, [] => True
  | s, a :: as => ok s a ∧ Meets ok (step s a) as

variable {step}

instance Meets.decidable {ok : σ → α → Prop} [∀ s a, Decidable (ok s a)] (s : σ) (as : List α) :
    Decidable (Meets step ok s as) :=
  match as with
  | [] => inferInstanceAs (Decidable True)
  | a :: as =>
      have : Decidable (Meets step ok (step s a) as) := Meets.decidable (step s a) as
      inferInstanceAs (Decidable (ok s a ∧ Meets step ok (step s a) as))

/-- The steps of a prefix are steps of the run. Source: none: infrastructure. Kind: L -/
theorem Meets.of_append {ok : σ → α → Prop} {s : σ} {as bs : List α}
    (h : Meets step ok s (as ++ bs)) : Meets step ok s as := by
  induction as generalizing s with
  | nil => trivial
  | cons a as ih => exact ⟨h.1, ih h.2⟩

/-- Allowed runs compose. Source: none: infrastructure. Kind: L -/
theorem Meets.append {ok : σ → α → Prop} {s : σ} {as bs : List α} (h : Meets step ok s as)
    (h' : Meets step ok (run step s as) bs) : Meets step ok s (as ++ bs) := by
  induction as generalizing s with
  | nil => exact h'
  | cons a as ih => exact ⟨h.1, ih h.2 h'⟩

/-- A weaker condition allows the same run. Source: none: infrastructure. Kind: L -/
theorem Meets.imp {ok ok' : σ → α → Prop} (himp : ∀ s a, ok s a → ok' s a) {s : σ} {as : List α}
    (h : Meets step ok s as) : Meets step ok' s as := by
  induction as generalizing s with
  | nil => trivial
  | cons a as ih => exact ⟨himp s a h.1, ih h.2⟩

/-- A run all of whose steps are allowed outright. Source: none: infrastructure. Kind: L -/
theorem Meets.of_forall {ok : σ → α → Prop} (h : ∀ s a, ok s a) (s : σ) (as : List α) :
    Meets step ok s as := by
  induction as generalizing s with
  | nil => trivial
  | cons a as ih => exact ⟨h s a, ih _⟩

/-- A condition on the labels alone can be added to the condition on the steps.
Source: none: infrastructure. Kind: L -/
theorem Meets.and_of_forall_mem {ok : σ → α → Prop} {ok' : α → Prop} {s : σ} {as : List α}
    (h : Meets step ok s as) (h' : ∀ a ∈ as, ok' a) :
    Meets step (fun s a => ok s a ∧ ok' a) s as := by
  induction as generalizing s with
  | nil => trivial
  | cons a as ih =>
      exact ⟨⟨h.1, h' a List.mem_cons_self⟩, ih h.2 fun b hb => h' b (List.mem_cons_of_mem _ hb)⟩

theorem Meets.and {ok ok' : σ → α → Prop} {s : σ} {as : List α} (h : Meets step ok s as)
    (h' : Meets step ok' s as) : Meets step (fun s a => ok s a ∧ ok' s a) s as := by
  induction as generalizing s with
  | nil => trivial
  | cons a as ih => exact ⟨⟨h.1, h'.1⟩, ih h.2 h'.2⟩

theorem Meets.of_forall_mem {ok' : α → Prop} {s : σ} {as : List α} (h' : ∀ a ∈ as, ok' a) :
    Meets step (fun _ a => ok' a) s as := by
  induction as generalizing s with
  | nil => trivial
  | cons a as ih => exact ⟨h' a List.mem_cons_self, ih fun b hb => h' b (List.mem_cons_of_mem _ hb)⟩

/-- **The run rule**: what holds at the start and is preserved by every allowed step holds at the
end of a run whose steps are allowed.
Source: none: infrastructure. Kind: P -/
theorem Meets.invariant {ok : σ → α → Prop} {Inv : σ → Prop}
    (hstep : ∀ s a, ok s a → Inv s → Inv (step s a)) {s : σ} {as : List α}
    (h : Meets step ok s as) (h₀ : Inv s) : Inv (run step s as) := by
  induction as generalizing s with
  | nil => exact h₀
  | cons a as ih => exact ih h.2 (hstep s a h.1 h₀)

/-- The run rule in every state reached. Source: none: infrastructure. Kind: C -/
theorem Meets.invariant_of_prefix {ok : σ → α → Prop} {Inv : σ → Prop}
    (hstep : ∀ s a, ok s a → Inv s → Inv (step s a)) {s : σ} {as : List α}
    (h : Meets step ok s as) (h₀ : Inv s) {p : List α} (hp : p <+: as) : Inv (run step s p) := by
  obtain ⟨q, rfl⟩ := hp
  exact h.of_append.invariant hstep h₀

/-- A condition that an invariant derives from another holds of the same runs.
Source: none: infrastructure. Kind: L -/
theorem Meets.of_invariant {ok ok' : σ → α → Prop} {Inv : σ → Prop}
    (hstep : ∀ s a, ok s a → Inv s → Inv (step s a)) (himp : ∀ s a, ok s a → Inv s → ok' s a)
    {s : σ} {as : List α} (h : Meets step ok s as) (h₀ : Inv s) : Meets step ok' s as := by
  induction as generalizing s with
  | nil => trivial
  | cons a as ih => exact ⟨himp s a h.1 h₀, ih h.2 (hstep s a h.1 h₀)⟩

/-- The run rule of a machine whose every step preserves the invariant.
Source: none: infrastructure. Kind: C -/
theorem run_invariant {Inv : σ → Prop} (hstep : ∀ s a, Inv s → Inv (step s a)) {s : σ}
    (h₀ : Inv s) (as : List α) : Inv (run step s as) :=
  (Meets.of_forall (fun _ _ => trivial) s as : Meets step (fun _ _ => True) s as).invariant
    (fun s a _ => hstep s a) h₀

/-- **The variant rule**: a measure that no step increases, and that the steps of one party decrease
while it is positive, has been brought down by one for each of these steps, or is at zero.
Source: none: infrastructure. Kind: P -/
theorem run_variant {Inv : σ → Prop} (hinv : ∀ s a, Inv s → Inv (step s a)) (μ : σ → ℕ)
    (own : α → Bool) (hle : ∀ s a, Inv s → μ (step s a) ≤ μ s)
    (hlt : ∀ s a, Inv s → own a = true → 0 < μ s → μ (step s a) < μ s) {s : σ} (h₀ : Inv s)
    (as : List α) : μ (run step s as) ≤ μ s - as.countP own := by
  induction as generalizing s with
  | nil => simp
  | cons a as ih =>
      have hrest := ih (hinv s a h₀)
      have hstep := hle s a h₀
      rw [run_cons, List.countP_cons]
      split_ifs with hown
      · rcases Nat.eq_zero_or_pos (μ s) with hzero | hpos
        · omega
        · have hdown := hlt s a h₀ hown hpos
          omega
      · omega

/-- **Termination**: where every allowed step decreases a measure, no run is longer than it.
Source: none: infrastructure. Kind: P -/
theorem Meets.length_le {ok : σ → α → Prop} {μ : σ → ℕ} (hlt : ∀ s a, ok s a → μ (step s a) < μ s)
    {s : σ} {as : List α} (h : Meets step ok s as) : as.length ≤ μ s := by
  induction as generalizing s with
  | nil => exact Nat.zero_le _
  | cons a as ih => exact (Nat.succ_le_succ (ih h.2)).trans (hlt s a h.1)

/-- **A run to the end**: then some run ends where no step is allowed.
Source: none: infrastructure. Kind: P -/
theorem exists_meets_stuck {ok : σ → α → Prop} {μ : σ → ℕ}
    (hlt : ∀ s a, ok s a → μ (step s a) < μ s) (s : σ) :
    ∃ as, Meets step ok s as ∧ ∀ a, ¬ ok (run step s as) a := by
  induction hn : μ s using Nat.strong_induction_on generalizing s with
  | _ n ih =>
      by_cases hstuck : ∀ a, ¬ ok s a
      · exact ⟨[], trivial, hstuck⟩
      · obtain ⟨a, ha⟩ := not_forall_not.mp hstuck
        obtain ⟨as, has, hend⟩ := ih _ (hn ▸ hlt s a ha) (step s a) rfl
        exact ⟨a :: as, ⟨ha, has⟩, hend⟩

/-! ## One party moving alone -/

variable (step) in
/-- Taking the one label `a` some number of times leads from `s` to `s'`.
Source: none: infrastructure. Kind: D -/
def Repeats (a : α) (s s' : σ) : Prop := ∃ n, run step s (List.replicate n a) = s'

theorem Repeats.refl (a : α) (s : σ) : Repeats step a s s := ⟨0, rfl⟩

theorem Repeats.head {a : α} {s s₁ s' : σ} (hs : step s a = s₁) (h : Repeats step a s₁ s') :
    Repeats step a s s' := by
  obtain ⟨n, hn⟩ := h
  exact ⟨n + 1, by rw [List.replicate_succ, run_cons, hs, hn]⟩

theorem Repeats.single {a : α} {s s' : σ} (hs : step s a = s') : Repeats step a s s' :=
  (Repeats.refl a s').head hs

theorem Repeats.trans {a : α} {s s' s'' : σ} (h : Repeats step a s s')
    (h' : Repeats step a s' s'') : Repeats step a s s'' := by
  obtain ⟨n, rfl⟩ := h
  obtain ⟨k, rfl⟩ := h'
  refine ⟨n + k, ?_⟩
  rw [← List.replicate_append_replicate, run_append]

theorem run_replicate_of_fixed {a : α} {s : σ} (h : step s a = s) (n : ℕ) :
    run step s (List.replicate n a) = s := by
  induction n with
  | zero => rfl
  | succ n ih => rw [List.replicate_succ, run_cons, h, ih]

/-- **A party alone comes to rest in at most one state.** Source: none: infrastructure. Kind: P -/
theorem Repeats.eq_of_fixed {a : α} {s s' s'' : σ} (h : Repeats step a s s')
    (h' : Repeats step a s s'') (hs' : step s' a = s') (hs'' : step s'' a = s'') : s' = s'' := by
  obtain ⟨n, rfl⟩ := h
  obtain ⟨k, rfl⟩ := h'
  -- the longer run is the shorter one and then steps at rest
  rcases le_total n k with hle | hle
  · obtain ⟨j, rfl⟩ := Nat.exists_eq_add_of_le hle
    rw [List.replicate_add, run_append, run_replicate_of_fixed hs']
  · obtain ⟨j, rfl⟩ := Nat.exists_eq_add_of_le hle
    rw [List.replicate_add, run_append, run_replicate_of_fixed hs'']

end SmartHome.Found
