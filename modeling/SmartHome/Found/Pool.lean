import Mathlib.Data.List.Basic

/-!
# Thread pools

A pool is the list of the local states of the threads started so far, a thread's number being its
position. `Each P ts` says that every thread satisfies `P`, which may depend on the thread's
number and, through its other arguments, on the shared state. A pool changes in two ways: one
thread moves (`Each.set`) or a new one is started (`Each.concat`). In both, the threads that did
not move must be shown to tolerate what the mover did to the shared state: that is the
interference obligation, stated once per rule and discharged thread by thread. `total` sums a measure
over the pool.
-/

set_option autoImplicit false

namespace SmartHome.Found

variable {τ : Type*}

/-- Every thread of the pool satisfies `P` at its number.
Source: none: infrastructure. Kind: D -/
def Each (P : ℕ → τ → Prop) (ts : List τ) : Prop := ∀ i t, ts[i]? = some t → P i t

variable {P P' : ℕ → τ → Prop} {ts : List τ}

/-- No thread, no obligation. Source: none: infrastructure. Kind: L -/
theorem Each.nil : Each P [] := fun i t h => by simp at h

/-- The shared state changed and no thread moved. Source: none: infrastructure. Kind: L -/
theorem Each.mono (h : Each P ts) (himp : ∀ i t, ts[i]? = some t → P i t → P' i t) :
    Each P' ts := fun i t ht => himp i t ht (h i t ht)

/-- **One thread moves**: the mover meets its new obligation and the others tolerate the move.
Source: none: infrastructure. Kind: P -/
theorem Each.set (h : Each P ts) {i : ℕ} {t' : τ} (hmover : P' i t')
    (hothers : ∀ j t, j ≠ i → ts[j]? = some t → P j t → P' j t) : Each P' (ts.set i t') := by
  intro j t ht
  rw [List.getElem?_set] at ht
  by_cases hij : i = j
  · subst hij
    rw [if_pos rfl] at ht
    split_ifs at ht
    cases ht
    exact hmover
  · rw [if_neg hij] at ht
    exact hothers j t (Ne.symm hij) ht (h j t ht)

/-- **A thread is started**: the new one meets its obligation and the others tolerate the start.
Source: none: infrastructure. Kind: P -/
theorem Each.concat (h : Each P ts) {t' : τ} (hnew : P' ts.length t')
    (hothers : ∀ j t, ts[j]? = some t → P j t → P' j t) : Each P' (ts ++ [t']) := by
  intro j t ht
  rw [List.getElem?_append] at ht
  split_ifs at ht with hj
  · exact hothers j t ht (h j t ht)
  · have hlt := (List.getElem?_eq_some_iff.mp ht).1
    obtain rfl : j = ts.length := by
      simp only [List.length_singleton] at hlt
      omega
    simp only [Nat.sub_self, List.getElem?_cons_zero, Option.some.injEq] at ht
    subst ht
    exact hnew

/-- The total of a measure over the pool. Source: none: infrastructure. Kind: D -/
def total (f : τ → ℕ) : List τ → ℕ
  | [] => 0
  | t :: ts => f t + total f ts

theorem total_concat (f : τ → ℕ) (ts : List τ) (t : τ) : total f (ts ++ [t]) = total f ts + f t := by
  induction ts with
  | nil => simp [total]
  | cons t₀ ts ih => simp only [List.cons_append, total, ih, Nat.add_assoc]

/-- The total after one thread has moved. Source: none: infrastructure. Kind: L -/
theorem total_set (f : τ → ℕ) {i : ℕ} {t : τ} (h : ts[i]? = some t) (t' : τ) :
    total f (ts.set i t') + f t = total f ts + f t' := by
  induction ts generalizing i with
  | nil => simp at h
  | cons t₀ ts ih =>
      cases i with
      | zero =>
          obtain rfl : t₀ = t := by simpa using h
          simp only [List.set_cons_zero, total]
          omega
      | succ i =>
          have hrest := ih (i := i) (by simpa using h)
          simp only [List.set_cons_succ, total]
          omega

end SmartHome.Found
