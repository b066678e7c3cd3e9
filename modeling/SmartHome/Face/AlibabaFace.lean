import Mathlib.Data.Rat.Floor
import SmartHome.Found.Nearest
import SmartHome.Handler.Parts

/-!
# The recogniser: `alibaba_face`

`alibaba_face` sends the snapshot to the face service, takes the best of the match scores, prints
whether it is at least `0.6`, and returns it rounded to two decimals. What the service does with a
picture is an input (`Answer`); scores are rationals and the rounding is exact, with any rule for the
half-way case.

`maxScore_iff` is the loop: what holds of every larger score too holds of the maximum exactly when it
holds of some score. `lt_roundTwo_iff` is the rounding. From the two, `accepted_returned_iff` and
`success_iff` say in terms of the single scores when the lock opens and when the comparison is reported
as a success: not at the same scores.
-/

set_option autoImplicit false

namespace SmartHome.Face

open SmartHome.Found SmartHome.Handler

variable {Photo : Type*}

/-- What comes of the request: the scores of the `FaceItems`, or an exception, which may have no
attribute `code`.
Source: `face.py` `alibaba_face`
Kind: D -/
inductive Answer (Photo : Type*) where
  | faceItems (scores : Photo → List ℚ)
  | error (hasCode : Bool)

/-- `maxScore` after the loop.
Source: `face.py` `alibaba_face`
Kind: D -/
def maxScore (faceItems : List ℚ) : ℚ :=
  faceItems.foldl
    (fun maxScore faceItemScore => if faceItemScore > maxScore then faceItemScore else maxScore) 0

/-- `round(x, 2)`. Source: `face.py` `alibaba_face`. Kind: D -/
def roundTwo (tie : ℤ → Bool) (x : ℚ) : ℚ := nearest tie (100 * x) / 100

/-- What the comparison ends with: the branch it prints, and the value returned.
Source: `face.py` `alibaba_face`
Kind: D -/
structure Comparison where
  success : Bool
  returned : ℚ
deriving DecidableEq

/-- The comparison of the scores.
Source: `face.py` `alibaba_face`
Kind: D -/
def compareScores (tie : ℤ → Bool) (faceItems : List ℚ) : Comparison :=
  ⟨if maxScore faceItems < 3 / 5 then false else true, roundTwo tie (maxScore faceItems)⟩

/-- The value returned, `none` when an exception leaves the function: there is no file to open, or
`error.code` fails in the handler.
Source: `face.py` `alibaba_face`
Kind: D -/
def alibabaFace (tie : ℤ → Bool) (stream0 : Option Photo) (answer : Answer Photo) : Option ℚ :=
  match stream0, answer with
  | none, _ => none
  | some photo, .faceItems scores => some (compareScores tie (scores photo)).returned
  | some _, .error hasCode => if hasCode then some 0 else none

/-! ## The loop -/

/-- What passes from a score to the larger ones passes the loop. -/
theorem foldl_max_iff {P : ℚ → Prop} (hP : ∀ a b, a ≤ b → P a → P b) (faceItems : List ℚ) (m : ℚ) :
    P (faceItems.foldl (fun maxScore faceItemScore =>
        if faceItemScore > maxScore then faceItemScore else maxScore) m) ↔
      P m ∨ ∃ score ∈ faceItems, P score := by
  induction faceItems generalizing m with
  | nil => simp
  | cons score faceItems ih =>
      rw [List.foldl_cons, ih]
      have hmax : P (if score > m then score else m) ↔ P m ∨ P score := by
        split_ifs with hgt
        · exact ⟨.inr, fun h => h.elim (hP m score hgt.le) id⟩
        · exact ⟨.inl, fun h => h.elim id (hP score m (not_lt.mp hgt))⟩
      rw [hmax, List.exists_mem_cons_iff, or_assoc]

/-- **The maximum**: it has a property of large scores exactly when some score has it.
Source: `face.py` `alibaba_face`
Kind: L -/
theorem maxScore_iff {P : ℚ → Prop} (hP : ∀ a b, a ≤ b → P a → P b) (hzero : ¬ P 0)
    (faceItems : List ℚ) : P (maxScore faceItems) ↔ ∃ score ∈ faceItems, P score := by
  unfold maxScore
  rw [foldl_max_iff hP, or_iff_right hzero]

theorem maxScore_nonneg (faceItems : List ℚ) : 0 ≤ maxScore faceItems :=
  (foldl_max_iff (fun _ _ hab ha => le_trans ha hab) faceItems 0).mpr (.inl le_rfl)

/-! ## The rounding -/

variable (tie : ℤ → Bool)

/-- Where the rounded score passes a number of hundredths.
Source: `face.py` `alibaba_face`
Kind: L -/
theorem lt_roundTwo_iff (n : ℤ) {x : ℚ} : (n : ℚ) / 100 < roundTwo tie x ↔
    (n + 1 / 2) / 100 < x ∨ (x = (n + 1 / 2) / 100 ∧ tie n = true) := by
  have hcast : (n : ℚ) / 100 < roundTwo tie x ↔ n < nearest tie (100 * x) := by
    unfold roundTwo
    rw [div_lt_div_iff_of_pos_right (by norm_num), Int.cast_lt]
  rw [hcast, lt_nearest_iff, div_lt_iff₀' (by norm_num), eq_div_iff (by norm_num), mul_comm x 100]

theorem roundTwo_mono {a b : ℚ} (h : a ≤ b) : roundTwo tie a ≤ roundTwo tie b := by
  unfold roundTwo
  have hnearest := nearest_mono tie (mul_le_mul_of_nonneg_left h (show (0 : ℚ) ≤ 100 by norm_num))
  exact div_le_div_of_nonneg_right (Int.cast_le.mpr hnearest) (by norm_num)

/-- The maximum, rounded, passes a number of hundredths when some score does. -/
theorem lt_returned_iff {n : ℤ} (hn : 0 ≤ n) (faceItems : List ℚ) :
    (n : ℚ) / 100 < (compareScores tie faceItems).returned ↔
      ∃ score ∈ faceItems,
        (n + 1 / 2 : ℚ) / 100 < score ∨ (score = (n + 1 / 2) / 100 ∧ tie n = true) := by
  have hn' : (0 : ℚ) ≤ n := by exact_mod_cast hn
  simp only [compareScores, ← lt_roundTwo_iff]
  refine maxScore_iff (P := fun x => (n : ℚ) / 100 < roundTwo tie x)
    (fun a b hab ha => ha.trans_le (roundTwo_mono tie hab)) ?_ faceItems
  rw [lt_roundTwo_iff]
  rintro (h | h)
  · linarith
  · linarith [h.1]

/-- **When the lock opens**: some score rounds to more than `0.5`.
Source: `face.py` `alibaba_face`, `receive_interface.c` `receive_thread_handler`
Kind: L -/
theorem accepted_returned_iff (faceItems : List ℚ) :
    accepted (compareScores tie faceItems).returned = true ↔
      ∃ score ∈ faceItems, 101 / 200 < score ∨ (score = 101 / 200 ∧ tie 50 = true) := by
  have hpass := lt_returned_iff tie (n := 50) (by norm_num) faceItems
  norm_num at hpass
  rw [accepted_iff, hpass]

/-- **When the comparison is reported as a success**: some score is at least `0.6`.
Source: `face.py` `alibaba_face`
Kind: L -/
theorem success_iff (faceItems : List ℚ) :
    (compareScores tie faceItems).success = true ↔ ∃ score ∈ faceItems, 3 / 5 ≤ score := by
  have hmax := maxScore_iff (P := fun x => 3 / 5 ≤ x) (fun a b hab ha => le_trans ha hab) (by norm_num)
    faceItems
  rw [← hmax]
  simp [compareScores]

end SmartHome.Face
