import Mathlib.Data.List.DropRight
import SmartHome.Device.Scan

/-!
# The text functions of the INI parser: `ini.c`

A C string is the list of its bytes up to the terminator, one `Char` for each byte. The parser
works on its line buffer in place; here a function that moves a pointer returns what the pointer
then points to, and one that writes a `'\0'` returns what is left in front of it.

* `rstrip`, `lskip` — the blanks at the two ends. A text both leave alone is `Trimmed`.
* `findCharsOrComment` — the part in front of the first of some characters, or of an inline
  comment, which is a `;` after a blank; and the part from there on. `CommentFree` texts are those
  it passes over.
-/

set_option autoImplicit false

namespace SmartHome.Ini

open SmartHome.Device

/-- The string in a buffer: what stands in front of the terminator.
Source: none: infrastructure. Kind: D -/
def cstr (buffer : List Char) : List Char := buffer.takeWhile fun c => c ≠ '\x00'

theorem cstr_eq_self {s : List Char} (h : '\x00' ∉ s) : cstr s = s := by
  refine List.takeWhile_eq_self_iff.mpr fun c hc => ?_
  simp only [decide_eq_true_eq]
  exact fun h0 => h (h0 ▸ hc)

/-! ## Blanks at the ends -/

/-- Cuts the blanks at the end off. Source: `ini.c` `rstrip`. Kind: D -/
def rstrip (s : List Char) : List Char := s.rdropWhile isSpace

/-- Skips the blanks at the start. Source: `ini.c` `lskip`. Kind: D -/
def lskip (s : List Char) : List Char := s.dropWhile isSpace

/-- No blank at either end. Source: none: infrastructure. Kind: D -/
structure Trimmed (s : List Char) : Prop where
  head : ∀ c ∈ s.head?, isSpace c = false
  last : ∀ c ∈ s.getLast?, isSpace c = false

/-- Nothing but blanks. Source: none: infrastructure. Kind: D -/
def Blank (s : List Char) : Prop := ∀ c ∈ s, isSpace c = true

variable {s : List Char}

theorem Trimmed.nil : Trimmed [] := ⟨by simp, by simp⟩

theorem isPrefix_rstrip (s : List Char) : rstrip s <+: s := List.rdropWhile_prefix _ _

theorem lskip_suffix (s : List Char) : lskip s <:+ s := List.dropWhile_suffix _

theorem head_lskip : ∀ c ∈ (lskip s).head?, isSpace c = false := by
  intro c hc
  have hne : lskip s ≠ [] := by
    intro h
    simp [h] at hc
  have hhead := List.head_dropWhile_not isSpace hne
  rw [List.head?_eq_some_head hne, Option.mem_some] at hc
  rw [← hc]
  exact hhead

theorem last_rstrip : ∀ c ∈ (rstrip s).getLast?, isSpace c = false := by
  intro c hc
  have hne : rstrip s ≠ [] := by
    intro h
    simp [h] at hc
  have hlast := List.rdropWhile_last_not isSpace s hne
  rw [List.getLast?_eq_some_getLast hne, Option.mem_some] at hc
  rw [← hc]
  exact Bool.not_eq_true _ ▸ hlast

theorem head_of_isPrefix {t : List Char} (h : t <+: s) : ∀ c ∈ t.head?, c ∈ s.head? := by
  obtain ⟨rest, rfl⟩ := h
  intro c hc
  rw [List.head?_append, Option.mem_def.mp hc]
  rfl

/-- **What the parser hands on is trimmed.** Source: `ini.c` `ini_parse_stream`. Kind: L -/
theorem trimmed_rstrip_lskip (s : List Char) : Trimmed (rstrip (lskip s)) :=
  ⟨fun c hc => head_lskip c (head_of_isPrefix (isPrefix_rstrip _) c hc), last_rstrip⟩

theorem trimmed_rstrip (h : ∀ c ∈ s.head?, isSpace c = false) : Trimmed (rstrip s) :=
  ⟨fun c hc => h c (head_of_isPrefix (isPrefix_rstrip _) c hc), last_rstrip⟩

theorem lskip_eq_self (h : ∀ c ∈ s.head?, isSpace c = false) : lskip s = s := by
  cases s with
  | nil => rfl
  | cons c cs =>
      have hc : ¬ isSpace c = true := by simp [h c rfl]
      exact List.dropWhile_cons_of_neg hc

theorem rstrip_eq_self (h : ∀ c ∈ s.getLast?, isSpace c = false) : rstrip s = s := by
  refine List.rdropWhile_eq_self_iff.mpr fun hne => ?_
  simp [h _ (List.getLast?_eq_some_getLast hne)]

theorem lskip_blank_append {pad : List Char} (hpad : Blank pad) (s : List Char) :
    lskip (pad ++ s) = lskip s := List.dropWhile_append_of_pos hpad

theorem rstrip_append_blank {pad : List Char} (hpad : Blank pad) (s : List Char) :
    rstrip (s ++ pad) = rstrip s := by
  unfold rstrip List.rdropWhile
  rw [List.reverse_append, List.dropWhile_append_of_pos fun c hc => hpad c (List.mem_reverse.mp hc)]

/-- Blanks are cut behind the last character that is none. -/
theorem rstrip_append_cons {c : Char} (hc : isSpace c = false) (s t : List Char) :
    rstrip (s ++ c :: t) = s ++ c :: rstrip t := by
  induction t using List.reverseRecOn with
  | nil =>
      have hlast := List.rdropWhile_concat_neg isSpace s c (by simp [hc])
      simpa [rstrip] using hlast
  | append_singleton t d ih =>
      by_cases hd : isSpace d = true
      · have hblank : Blank [d] := by simpa [Blank] using hd
        rw [rstrip_append_blank hblank, ← List.cons_append, ← List.append_assoc,
          rstrip_append_blank hblank, ih]
      · have hlast : ∀ e ∈ (t ++ [d]).getLast?, isSpace e = false := by simpa using hd
        have hall : ∀ e ∈ (s ++ c :: (t ++ [d])).getLast?, isSpace e = false := by
          rw [← List.cons_append, ← List.append_assoc, List.getLast?_concat]
          simpa using hd
        rw [rstrip_eq_self hall, rstrip_eq_self hlast]

theorem rstrip_blank (h : Blank s) : rstrip s = [] := by
  have hnil := rstrip_append_blank h []
  simpa [rstrip] using hnil

/-- A trimmed text comes out of any blanks around it. -/
theorem rstrip_lskip_of_trimmed {pad pad' : List Char} (hpad : Blank pad) (hpad' : Blank pad')
    (hs : Trimmed s) : rstrip (lskip (pad ++ s ++ pad')) = s := by
  rw [List.append_assoc, lskip_blank_append hpad]
  cases s with
  | nil =>
      have hall : lskip ([] ++ pad') = [] := by
        have := lskip_blank_append hpad' []
        simpa [lskip] using this
      rw [hall]
      rfl
  | cons c cs =>
      rw [lskip_eq_self (by simpa using hs.head), rstrip_append_blank hpad', rstrip_eq_self hs.last]

/-! ## Looking for a character or a comment -/

/-- `ini_start_comment_prefixes`. Source: `ini.h` `INI_START_COMMENT_PREFIXES`. Kind: D -/
def iniStartCommentPrefixes : List Char := [';', '#']

/-- `ini_inline_comment_prefixes`. Source: `ini.h` `INI_INLINE_COMMENT_PREFIXES`. Kind: D -/
def iniInlineCommentPrefixes : List Char := [';']

/-- The loop of `find_chars_or_comment`; `wasSpace` says whether the character before was a blank.
Source: `ini.c` `find_chars_or_comment`
Kind: D -/
def findLoop (chars : List Char) : Bool → List Char → List Char × List Char
  | _, [] => ([], [])
  | wasSpace, c :: cs =>
      if c ∈ chars ∨ (wasSpace = true ∧ c ∈ iniInlineCommentPrefixes) then ([], c :: cs)
      else (c :: (findLoop chars (isSpace c) cs).1, (findLoop chars (isSpace c) cs).2)

/-- The text in front of the first of `chars` or of a comment, and the text from there on.
Source: `ini.c` `find_chars_or_comment`
Kind: D -/
def findCharsOrComment (chars s : List Char) : List Char × List Char := findLoop chars false s

/-- No inline comment starts in the text; `wasSpace` says whether a blank stands before it.
Source: none: infrastructure. Kind: D -/
def CommentFree : Bool → List Char → Prop
  | _, [] => True
  | wasSpace, c :: cs =>
      ¬ (wasSpace = true ∧ c ∈ iniInlineCommentPrefixes) ∧ CommentFree (isSpace c) cs

instance CommentFree.decidable (wasSpace : Bool) (s : List Char) :
    Decidable (CommentFree wasSpace s) :=
  match s with
  | [] => inferInstanceAs (Decidable True)
  | c :: cs =>
      have : Decidable (CommentFree (isSpace c) cs) := CommentFree.decidable (isSpace c) cs
      inferInstanceAs (Decidable (_ ∧ _))

variable {chars : List Char} {wasSpace : Bool}

theorem findLoop_append (chars : List Char) (wasSpace : Bool) (s : List Char) :
    (findLoop chars wasSpace s).1 ++ (findLoop chars wasSpace s).2 = s := by
  induction s generalizing wasSpace with
  | nil => rfl
  | cons c cs ih =>
      rw [findLoop]
      split_ifs
      · rfl
      · rw [List.cons_append, ih]

/-- What is passed over has none of the characters, and no comment starts in it. -/
theorem findLoop_fst (chars : List Char) (wasSpace : Bool) (s : List Char) :
    (∀ c ∈ (findLoop chars wasSpace s).1, c ∉ chars) ∧
      CommentFree wasSpace (findLoop chars wasSpace s).1 := by
  induction s generalizing wasSpace with
  | nil => exact ⟨by simp [findLoop], trivial⟩
  | cons c cs ih =>
      rw [findLoop]
      split_ifs with hstop
      · exact ⟨by simp, trivial⟩
      · obtain ⟨hchar, hcomment⟩ := not_or.mp hstop
        obtain ⟨hall, hfree⟩ := ih (isSpace c)
        exact ⟨List.forall_mem_cons.mpr ⟨hchar, hall⟩, hcomment, hfree⟩

/-- The blank flag behind a text. Source: none: infrastructure. Kind: D -/
def endsInSpace : Bool → List Char → Bool
  | wasSpace, [] => wasSpace
  | _, c :: cs => endsInSpace (isSpace c) cs

/-- **A text without the characters and without a comment is passed over.**
Source: `ini.c` `find_chars_or_comment`
Kind: L -/
theorem findLoop_of_free (hchars : ∀ c ∈ s, c ∉ chars) (hfree : CommentFree wasSpace s)
    (rest : List Char) :
    findLoop chars wasSpace (s ++ rest) =
      (s ++ (findLoop chars (endsInSpace wasSpace s) rest).1,
        (findLoop chars (endsInSpace wasSpace s) rest).2) := by
  induction s generalizing wasSpace with
  | nil => rfl
  | cons c cs ih =>
      have hgo : ¬ (c ∈ chars ∨ (wasSpace = true ∧ c ∈ iniInlineCommentPrefixes)) :=
        not_or.mpr ⟨hchars c List.mem_cons_self, hfree.1⟩
      have hcs : ∀ d ∈ cs, d ∉ chars := fun d hd => hchars d (List.mem_cons_of_mem _ hd)
      rw [List.cons_append, findLoop, if_neg hgo, ih hcs hfree.2]
      rfl

theorem findCharsOrComment_of_free (hchars : ∀ c ∈ s, c ∉ chars) (hfree : CommentFree false s) :
    findCharsOrComment chars s = (s, []) := by
  have hall := findLoop_of_free hchars hfree []
  simpa [findLoop, findCharsOrComment] using hall

theorem findCharsOrComment_char {c : Char} (hchars : ∀ d ∈ s, d ∉ chars)
    (hfree : CommentFree false s) (hc : c ∈ chars) (rest : List Char) :
    findCharsOrComment chars (s ++ c :: rest) = (s, c :: rest) := by
  rw [findCharsOrComment, findLoop_of_free hchars hfree, findLoop, if_pos (Or.inl hc),
    List.append_nil]

theorem commentFree_append {t : List Char} :
    CommentFree wasSpace (s ++ t) ↔
      CommentFree wasSpace s ∧ CommentFree (endsInSpace wasSpace s) t := by
  induction s generalizing wasSpace with
  | nil => simp [CommentFree, endsInSpace]
  | cons c cs ih =>
      rw [List.cons_append, CommentFree, CommentFree, ih, endsInSpace, and_assoc]

theorem not_mem_prefixes_of_isSpace {c : Char} (hc : isSpace c = true) :
    c ∉ iniInlineCommentPrefixes := by
  intro hmem
  obtain rfl : c = ';' := by simpa [iniInlineCommentPrefixes] using hmem
  exact absurd hc (by decide)

theorem commentFree_of_blank (h : Blank s) : CommentFree wasSpace s := by
  induction s generalizing wasSpace with
  | nil => trivial
  | cons c cs ih =>
      exact ⟨fun hc => not_mem_prefixes_of_isSpace (h c List.mem_cons_self) hc.2,
        ih fun d hd => h d (List.mem_cons_of_mem _ hd)⟩

/-! ## Bounded copies -/

/-- `strncpy0(dest, src, size)`: what `dest` then holds.
Source: `ini.c` `strncpy0`
Kind: D -/
def strncpy0 (src : List Char) (size : ℕ) : List Char := src.take (size - 1)

theorem isPrefix_strncpy0 (src : List Char) (size : ℕ) : strncpy0 src size <+: src :=
  List.take_prefix _ _

theorem length_strncpy0_lt {size : ℕ} (h : 0 < size) (src : List Char) :
    (strncpy0 src size).length < size := by
  have hle := List.length_take_le (size - 1) src
  unfold strncpy0
  omega

theorem strncpy0_eq_self {size : ℕ} {src : List Char} (h : src.length < size) :
    strncpy0 src size = src := List.take_of_length_le (by omega)

end SmartHome.Ini
