import SmartHome.Face.AlibabaFace
import SmartHome.Found.Justified
import SmartHome.Found.Runs

/-!
# `face_score`: from the snapshot to the score

`face_score` fetches a snapshot with `wget`, and goes through `access`, the module, its function, the
call and the parse; a stage that fails ends the call with `0.0`. The exit status of `wget` is not looked
at, and `face.jpg` stays between calls, so the stages may go through on a picture that this call did not
take.

* `agrees_iff` — the lock and the recogniser agree on a comparison exactly when no score lies between
  their thresholds, `0.5` after rounding and `0.6` before.
* `fresh_iff` — over any sequence of calls, every call answers from its own snapshot or with `0.0`
  exactly when no call whose `wget` failed goes through on a picture left in place that scores.
-/

set_option autoImplicit false

namespace SmartHome.Face

open SmartHome.Found SmartHome.Handler

variable {Photo : Type*}

/-- What `wget` does to `face.jpg`: it succeeds with a snapshot; it fails and leaves the file alone; it
fails and leaves something else, or nothing.
Source: `face.h` `WGET_CMD`
Kind: D -/
inductive Wget (Photo : Type*) where
  | snapshot (photo : Photo)
  | keeps
  | leaves (picture : Option Photo)

/-- What a call of `face_score` meets: `wget`, whether `access` can see the file, the import, the
attribute, the service, the parse.
Source: `face.c` `face_score`
Kind: D -/
structure FaceCall (Photo : Type*) where
  wget : Wget Photo
  access : Bool
  importModule : Bool
  getAttr : Bool
  answer : Answer Photo
  parse : Bool

/-- The content `wget` gives the file, if it touches it.
Source: `face.h` `WGET_CMD`
Kind: D -/
def Wget.written : Wget Photo → Option (Option Photo)
  | .snapshot photo => some (some photo)
  | .keeps => none
  | .leaves picture => some picture

/-- `face.jpg` after the `wget` of the call. Source: `face.c` `face_score`. Kind: D -/
def FaceCall.picture (c : FaceCall Photo) (file : Option Photo) : Option Photo :=
  c.wget.written.getD file

/-- A call: the file it leaves, and the score it returns.
Source: `face.c` `face_score`
Kind: D -/
def faceScore (tie : ℤ → Bool) (file : Option Photo) (c : FaceCall Photo) : Option Photo × ℚ :=
  let file := c.picture file
  let result :=
    if file.isNone || !c.access then 0
    else if !c.importModule then 0
    else if !c.getAttr then 0
    else match alibabaFace tie file c.answer with
      | none => 0
      | some pValue => if c.parse then pValue else 0
  (file, result)

/-- Every stage after `wget` succeeds, and the service answers with scores.
Source: none: the condition on the stages. Kind: D -/
structure FaceCall.StagesSucceed (c : FaceCall Photo) (scores : Photo → List ℚ) : Prop where
  access : c.access = true
  importModule : c.importModule = true
  getAttr : c.getAttr = true
  answer : c.answer = .faceItems scores
  parse : c.parse = true

variable {tie : ℤ → Bool} {file : Option Photo} {c : FaceCall Photo}

/-- A call all of whose stages succeed returns the value of the comparison. -/
theorem faceScore_of_stagesSucceed {photo : Photo} {scores : Photo → List ℚ}
    (hpicture : c.picture file = some photo) (hstages : c.StagesSucceed scores) :
    (faceScore tie file c).2 = (compareScores tie (scores photo)).returned := by
  simp [faceScore, hpicture, hstages.access, hstages.importModule, hstages.getAttr, hstages.answer,
    hstages.parse, alibabaFace]

/-- **A stage that fails ends the call with `0.0`.** -/
theorem faceScore_eq_zero
    (hfails : ∀ photo scores, c.picture file = some photo → ¬ c.StagesSucceed scores) :
    (faceScore tie file c).2 = 0 := by
  rcases hpicture : c.picture file with _ | photo
  · simp [faceScore, hpicture]
  · rcases hanswer : c.answer with scores | hasCode
    · simp only [faceScore, hpicture, hanswer, alibabaFace]
      split_ifs with haccess himport hattr hparse
      · rfl
      · rfl
      · rfl
      · -- every stage has gone through
        simp only [Option.isNone_some, Bool.false_or, Bool.not_eq_true', Bool.not_eq_false]
          at haccess himport hattr
        exact absurd ⟨haccess, himport, hattr, hanswer, hparse⟩ (hfails photo scores hpicture)
      · rfl
    · cases hasCode <;> simp [faceScore, hpicture, hanswer, alibabaFace]

/-! ## Two thresholds -/

/-- **When the lock and the recogniser agree**: some score is at least `0.6`, or every score rounds to at
most `0.5`.
Source: `face.py` `alibaba_face`, `face.c` `face_score`, `receive_interface.c` `receive_thread_handler`
Kind: P -/
theorem agrees_iff (tie : ℤ → Bool) (file : Option Photo) (c : FaceCall Photo) (photo : Photo)
    (scores : Photo → List ℚ) (hpicture : c.picture file = some photo)
    (hstages : c.StagesSucceed scores) :
    (accepted (faceScore tie file c).2 = true ↔
        (compareScores tie (scores photo)).success = true) ↔
      (∃ score ∈ scores photo, 3 / 5 ≤ score) ∨
        ∀ score ∈ scores photo, score < 101 / 200 ∨ (score = 101 / 200 ∧ tie 50 = false) := by
  rw [faceScore_of_stagesSucceed hpicture hstages, accepted_returned_iff, success_iff]
  by_cases hsuccess : ∃ score ∈ scores photo, 3 / 5 ≤ score
  · have hopens : ∃ score ∈ scores photo,
        101 / 200 < score ∨ (score = 101 / 200 ∧ tie 50 = true) := by
      obtain ⟨score, hscore, hhigh⟩ := hsuccess
      exact ⟨score, hscore, .inl (by linarith)⟩
    exact iff_of_true (iff_of_true hopens hsuccess) (.inl hsuccess)
  · simp only [hsuccess, iff_false, false_or, not_exists, not_and]
    refine forall₂_congr fun score _ => ?_
    rcases lt_trichotomy score (101 / 200) with hlt | rfl | hgt
    · simp [hlt, hlt.le, hlt.ne]
    · cases tie 50 <;> simp
    · simp [hgt, hgt.le.not_gt, hgt.ne']

/-- A call that takes a snapshot and goes through, on a picture with these scores.
Source: none: an example. Kind: D -/
def cleanCall (faceItems : List ℚ) : FaceCall Unit :=
  ⟨.snapshot (), true, true, true, .faceItems fun _ => faceItems, true⟩

/-- One good and one poor match, ties to even.
Source: `face.py` `alibaba_face`
Kind: L -/
theorem agrees_of_good_match :
    accepted (faceScore (fun n => n % 2 == 1) none (cleanCall [1 / 5, 9 / 10])).2 = true ↔
      (compareScores (fun n => n % 2 == 1) [1 / 5, 9 / 10]).success = true :=
  (agrees_iff (fun n => n % 2 == 1) none (cleanCall [1 / 5, 9 / 10]) () (fun _ => [1 / 5, 9 / 10]) rfl
    ⟨rfl, rfl, rfl, rfl, rfl⟩).mpr (.inl ⟨9 / 10, by simp, by norm_num⟩)

/-- **A refused face opens the lock**: the best match scores `0.55`.
Source: `face.py` `alibaba_face`, `receive_interface.c` `receive_thread_handler`
Kind: P -/
theorem refused_face_accepted :
    accepted (faceScore (fun n => n % 2 == 1) none (cleanCall [11 / 20])).2 = true ∧
      (compareScores (fun n => n % 2 == 1) [11 / 20]).success = false := by
  decide +kernel

/-! ## Over a sequence of calls -/

/-- The file after one more call. Source: `face.c` `face_score`. Kind: D -/
def faceFile (tie : ℤ → Bool) (file : Option Photo) (c : FaceCall Photo) : Option Photo :=
  (faceScore tie file c).1

/-- **The score is fresh**: it comes from a snapshot of its own call, through stages that all succeed, or
it is `0.0`.
Source: none: the purpose of `face_score`. Kind: D -/
def Fresh (c : FaceCall Photo) (score : ℚ) : Prop :=
  ((∃ photo, c.wget = .snapshot photo) ∧ ∃ scores, c.StagesSucceed scores) ∨ score = 0

/-- The picture that a failed `wget` leaves in place: the last one written before, or what it leaves
itself.
Source: none: the condition on the calls. Kind: D -/
def LeftInPlace (file : Option Photo) (earlier : List (FaceCall Photo)) (c : FaceCall Photo)
    (photo : Photo) : Prop :=
  (c.wget = .keeps ∧ (lastOf (fun c => c.wget.written) earlier).getD file = some photo) ∨
    c.wget = .leaves (some photo)

/-- The call goes through on a picture that a failed `wget` left in place, and some score of it does
not round to `0`.
Source: none: the condition on the calls. Kind: D -/
def ScoresStale (tie : ℤ → Bool) (file : Option Photo) (earlier : List (FaceCall Photo))
    (c : FaceCall Photo) : Prop :=
  ∃ photo scores, LeftInPlace file earlier c photo ∧ c.StagesSucceed scores ∧
    ∃ score ∈ scores photo, 1 / 200 < score ∨ (score = 1 / 200 ∧ tie 0 = true)

/-- The file is the last content that a `wget` gave it. -/
theorem run_faceFile (tie : ℤ → Bool) (file : Option Photo) (earlier : List (FaceCall Photo)) :
    run (faceFile tie) file earlier = (lastOf (fun c => c.wget.written) earlier).getD file := by
  induction earlier using List.reverseRecOn with
  | nil => rfl
  | append_singleton earlier c ih =>
      rw [run_append, run_cons, run_nil, ih, lastOf_concat]
      show (c.wget.written).getD _ = _
      cases c.wget.written <;> rfl

/-- A picture in place after `wget` is its snapshot, or was left there. -/
theorem picture_eq_some_iff {earlier : List (FaceCall Photo)} {photo : Photo} :
    c.picture (run (faceFile tie) file earlier) = some photo ↔
      c.wget = .snapshot photo ∨ LeftInPlace file earlier c photo := by
  rw [run_faceFile]
  unfold FaceCall.picture LeftInPlace
  rcases hwget : c.wget with photo' | _ | picture <;> simp [Wget.written]

/-- The comparison returns more than `0` when some score rounds to more. -/
theorem returned_ne_zero_iff (faceItems : List ℚ) : (compareScores tie faceItems).returned ≠ 0 ↔
    ∃ score ∈ faceItems, 1 / 200 < score ∨ (score = 1 / 200 ∧ tie 0 = true) := by
  have hpass := lt_returned_iff tie (n := 0) le_rfl faceItems
  norm_num at hpass
  rw [← hpass]
  have hnonneg : 0 ≤ (compareScores tie faceItems).returned := by
    have hmono := roundTwo_mono tie (maxScore_nonneg faceItems)
    have hzero : roundTwo tie 0 = 0 := by simp [roundTwo, nearest]
    rwa [hzero] at hmono
  exact ⟨fun h => lt_of_le_of_ne hnonneg (Ne.symm h), fun h => ne_of_gt h⟩

/-- **One call** answers freshly unless it scores a picture that was left in place. -/
theorem fresh_faceScore_iff (earlier : List (FaceCall Photo)) (c : FaceCall Photo) :
    Fresh c (faceScore tie (run (faceFile tie) file earlier) c).2 ↔ ¬ ScoresStale tie file earlier c := by
  constructor
  · rintro (⟨⟨photo, hsnapshot⟩, -⟩ | hzero) ⟨photo', scores, hleft, hstages, hscore⟩
    · rcases hleft with ⟨hkeeps, -⟩ | hleaves
      · rw [hsnapshot] at hkeeps
        contradiction
      · rw [hsnapshot] at hleaves
        contradiction
    · have hpicture : c.picture (run (faceFile tie) file earlier) = some photo' :=
        picture_eq_some_iff.mpr (.inr hleft)
      rw [faceScore_of_stagesSucceed hpicture hstages] at hzero
      exact (returned_ne_zero_iff _).mpr hscore hzero
  · intro hstale
    by_cases hthrough : ∃ photo scores,
        c.picture (run (faceFile tie) file earlier) = some photo ∧ c.StagesSucceed scores
    · obtain ⟨photo, scores, hpicture, hstages⟩ := hthrough
      rcases picture_eq_some_iff.mp hpicture with hsnapshot | hleft
      · exact .inl ⟨⟨photo, hsnapshot⟩, scores, hstages⟩
      · right
        by_contra hne
        rw [faceScore_of_stagesSucceed hpicture hstages] at hne
        exact hstale ⟨photo, scores, hleft, hstages, (returned_ne_zero_iff _).mp hne⟩
    · right
      apply faceScore_eq_zero
      intro photo scores hpicture hstages
      exact hthrough ⟨photo, scores, hpicture, hstages⟩

/-- **When every score is fresh**: from any file, over any sequence of calls, exactly when none of them
scores a picture that a failed `wget` left in place.
Source: `face.c` `face_score`, `face.py` `alibaba_face`
Kind: P -/
theorem fresh_iff (tie : ℤ → Bool) (file : Option Photo) (calls : List (FaceCall Photo)) :
    Justified (fun earlier c => Fresh c (faceScore tie (run (faceFile tie) file earlier) c).2) calls ↔
      Justified (fun earlier c => ¬ ScoresStale tie file earlier c) calls := by
  simp only [fresh_faceScore_iff]

/-- **Yesterday's picture opens the lock**: the second `wget` fails, and the picture of the first call is
scored again.
Source: `face.c` `face_score`
Kind: P -/
theorem earlier_picture_scored :
    ¬ Justified (fun earlier c =>
        Fresh c (faceScore (fun _ => true) (run (faceFile fun _ => true) none earlier) c).2)
      [cleanCall [9 / 10], { cleanCall [9 / 10] with wget := .keeps }] := by
  intro h
  rcases h [_] _ [] rfl with ⟨⟨photo, hsnapshot⟩, -⟩ | hzero
  · cases hsnapshot
  · revert hzero
    decide +kernel

end SmartHome.Face
