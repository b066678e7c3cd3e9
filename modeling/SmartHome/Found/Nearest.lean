import Mathlib.Algebra.Order.Floor.Ring
import Mathlib.Tactic.Linarith

/-!
# Rounding to the nearest integer with a tie rule

`nearest tie x` is the integer nearest to `x`. Half way between `n` and `n + 1` the rule decides:
`tie n` says whether to go up, so that half-up is `fun _ => true`, half-down `fun _ => false`, and
half-to-even the test for an odd `n`.

`lt_nearest_iff` says where the rounded value passes an integer, and the rest is read off it: rounding
is monotone whatever the rule (`nearest_mono`).
-/

set_option autoImplicit false

namespace SmartHome.Found

variable {K : Type*} [Field K] [LinearOrder K] [IsStrictOrderedRing K] [FloorRing K]

/-- The integer nearest to `x`. Source: none: infrastructure. Kind: D -/
def nearest (tie : ℤ → Bool) (x : K) : ℤ :=
  if x < ⌊x⌋ + 1 / 2 then ⌊x⌋
  else if ⌊x⌋ + 1 / 2 < x then ⌊x⌋ + 1
  else if tie ⌊x⌋ then ⌊x⌋ + 1 else ⌊x⌋

variable (tie : ℤ → Bool) {x y : K}

/-- **Where rounding passes an integer**: above its half, and at its half when the rule goes up.
Source: none: infrastructure. Kind: P -/
theorem lt_nearest_iff (n : ℤ) :
    n < nearest tie x ↔ (n : K) + 1 / 2 < x ∨ (x = n + 1 / 2 ∧ tie n = true) := by
  have hfloor := Int.floor_le x
  have hceil := Int.lt_floor_add_one x
  rcases lt_trichotomy n ⌊x⌋ with hlt | heq | hgt
  · have hle : (n : K) + 1 ≤ ⌊x⌋ := by exact_mod_cast hlt
    refine iff_of_true ?_ (.inl (by linarith))
    unfold nearest
    split_ifs <;> omega
  · subst heq
    unfold nearest
    split_ifs with hbelow habove htie
    · simp only [lt_irrefl, false_iff, not_or]
      exact ⟨by linarith, fun h => by linarith [h.1]⟩
    · exact iff_of_true (by omega) (.inl habove)
    · have htied : x = ⌊x⌋ + 1 / 2 := le_antisymm (not_lt.mp habove) (not_lt.mp hbelow)
      exact iff_of_true (by omega) (.inr ⟨htied, htie⟩)
    · refine iff_of_false (by omega) ?_
      rintro (h | h)
      · exact habove h
      · exact htie h.2
  · have hle : (⌊x⌋ : K) + 1 ≤ n := by exact_mod_cast hgt
    refine iff_of_false ?_ ?_
    · unfold nearest
      split_ifs <;> omega
    · rintro (h | h)
      · linarith
      · linarith [h.1]

/-- Rounding is monotone. Source: none: infrastructure. Kind: C -/
theorem nearest_mono (h : x ≤ y) : nearest tie x ≤ nearest tie y := by
  by_contra hlt
  rcases (lt_nearest_iff tie _).mp (not_le.mp hlt) with habove | ⟨htied, htie⟩
  · exact lt_irrefl _ ((lt_nearest_iff tie _).mpr (.inl (habove.trans_le h)))
  · rcases h.lt_or_eq with hxy | rfl
    · exact lt_irrefl _ ((lt_nearest_iff tie _).mpr (.inl (htied ▸ hxy)))
    · exact hlt le_rfl

end SmartHome.Found
