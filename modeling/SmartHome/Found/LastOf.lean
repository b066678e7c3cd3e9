import Mathlib.Data.List.Basic

/-!
# The last entry of a history

A history is a list, oldest entry first. `lastOf f l` is what `f` says about the last entry of
`l` on which it says anything: the last value written to a register, the last byte left in a
cell, the last request for a device. The rules below compute it entry by entry
(`lastOf_cons`), across a concatenation (`lastOf_append`), and say when it is defined
(`lastOf_eq_none_iff`, `lastOf_isSome_iff`).
-/

set_option autoImplicit false

namespace SmartHome.Found

variable {α β : Type*}

/-- What `f` reads off the last entry of `l` it reads anything off.
Source: none: infrastructure. Kind: D -/
def lastOf (f : α → Option β) (l : List α) : Option β := l.reverse.findSome? f

variable (f : α → Option β)

@[simp] theorem lastOf_nil : lastOf f [] = none := rfl

/-- The later part of a history is read first. Source: none: infrastructure. Kind: L -/
theorem lastOf_append (l m : List α) : lastOf f (l ++ m) = (lastOf f m).or (lastOf f l) := by
  simp [lastOf, List.findSome?_append]

/-- A one-entry history. Source: none: infrastructure. Kind: L -/
@[simp] theorem lastOf_singleton (a : α) : lastOf f [a] = f a := by
  simp [lastOf]

/-- The oldest entry counts only where the rest is silent. Source: none: infrastructure. Kind: L -/
theorem lastOf_cons (a : α) (l : List α) : lastOf f (a :: l) = (lastOf f l).or (f a) := by
  rw [← List.singleton_append, lastOf_append, lastOf_singleton]

/-- The newest entry, where it says something, is the last. Source: none: infrastructure. Kind: L -/
theorem lastOf_concat (l : List α) (a : α) : lastOf f (l ++ [a]) = (f a).or (lastOf f l) := by
  rw [lastOf_append, lastOf_singleton]

/-- A history on which `f` is silent has no last entry, and conversely.
Source: none: infrastructure. Kind: L -/
theorem lastOf_eq_none_iff {l : List α} : lastOf f l = none ↔ ∀ a ∈ l, f a = none := by
  simp [lastOf]

/-- Some entry speaks exactly when there is a last one. Source: none: infrastructure. Kind: L -/
theorem lastOf_isSome_iff {l : List α} : (lastOf f l).isSome ↔ ∃ a ∈ l, (f a).isSome := by
  rw [← not_iff_not]
  simp [lastOf_eq_none_iff]

/-- The last entry is one of the entries. Source: none: infrastructure. Kind: L -/
theorem exists_mem_of_lastOf_eq_some {l : List α} {b : β} (h : lastOf f l = some b) :
    ∃ a ∈ l, f a = some b := by
  obtain ⟨a, ha, hb⟩ := List.exists_of_findSome?_eq_some h
  exact ⟨a, List.mem_reverse.mp ha, hb⟩

/-- Reading through a map. Source: none: infrastructure. Kind: L -/
theorem lastOf_map {γ : Type*} (g : γ → α) (l : List γ) :
    lastOf f (l.map g) = lastOf (fun c => f (g c)) l := by
  simp only [lastOf, ← List.map_reverse, List.findSome?_map]
  rfl

/-- Entries on which `f` is silent can be dropped. Source: none: infrastructure. Kind: L -/
theorem lastOf_filter {l : List α} {p : α → Bool} (h : ∀ a ∈ l, p a = false → f a = none) :
    lastOf f (l.filter p) = lastOf f l := by
  induction l with
  | nil => rfl
  | cons a l ih =>
      have htail := ih fun b hb => h b (List.mem_cons_of_mem _ hb)
      cases hp : p a with
      | true => rw [List.filter_cons_of_pos hp, lastOf_cons, lastOf_cons, htail]
      | false =>
          rw [List.filter_cons_of_neg (by simp [hp]), lastOf_cons, htail,
            h a List.mem_cons_self hp, Option.or_none]

/-- The order does not matter where only one entry speaks. -/
theorem lastOf_eq_of_perm {l l' : List α} (hperm : l.Perm l')
    (huniq : ∀ a ∈ l, ∀ b ∈ l, (f a).isSome → (f b).isSome → a = b) : lastOf f l = lastOf f l' := by
  cases h : lastOf f l with
  | none =>
      rw [lastOf_eq_none_iff] at h
      exact ((lastOf_eq_none_iff f).mpr fun a ha => h a (hperm.mem_iff.mpr ha)).symm
  | some v =>
      obtain ⟨a, ha, hav⟩ := exists_mem_of_lastOf_eq_some f h
      have hspeaks : (lastOf f l').isSome := by
        rw [lastOf_isSome_iff]
        exact ⟨a, hperm.mem_iff.mp ha, by rw [hav]; rfl⟩
      obtain ⟨w, hw⟩ := Option.isSome_iff_exists.mp hspeaks
      obtain ⟨b, hb, hbw⟩ := exists_mem_of_lastOf_eq_some f hw
      obtain rfl : a = b := huniq a ha b (hperm.mem_iff.mpr hb) (by rw [hav]; rfl) (by rw [hbw]; rfl)
      rw [hw, ← hbw, hav]

/-- A history has a last entry with a property, or no entry with it.
Source: none: infrastructure. Kind: L -/
theorem exists_last_or_forall_not (p : α → Prop) (l : List α) :
    (∃ before a after, l = before ++ a :: after ∧ p a ∧ ∀ b ∈ after, ¬ p b) ∨ ∀ a ∈ l, ¬ p a := by
  induction l with
  | nil => exact Or.inr (by simp)
  | cons c l ih =>
      rcases ih with ⟨before, a, after, rfl, ha, hafter⟩ | hnone
      · exact Or.inl ⟨c :: before, a, after, rfl, ha, hafter⟩
      · by_cases hc : p c
        · exact Or.inl ⟨[], c, l, rfl, hc, hnone⟩
        · exact Or.inr (List.forall_mem_cons.mpr ⟨hc, hnone⟩)

end SmartHome.Found
