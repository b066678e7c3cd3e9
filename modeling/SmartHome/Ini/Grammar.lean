import SmartHome.Ini.Parse

/-!
# How a line is written

`Written continues line text` says, without the parser, that `text` is a way to write `line`:
where blanks may stand, what a name and a value may have in them, where a comment ends a value.
`WrittenAt` adds the byte order mark that may stand in front of the first line. `recognise_eq_iff`
says that the parser reads exactly this: a text is recognised as a line if and only if it is
written so. What is written in no way is malformed (`recognise_eq_malformed_iff`).

Two rules of the grammar may surprise. A line that is indented is more of the value of the entry
before, whatever is in it (`Written.continuation`): its `;` starts no comment, and a section line
or an entry must not be indented there. And the text behind the `]` of a section line is free.
-/

set_option autoImplicit false

namespace SmartHome.Ini

open SmartHome.Device SmartHome.Found

/-- How an entry does not start: with a blank, a comment, a section.
Source: `ini.c` `ini_parse_stream`
Kind: D -/
def EntryHead (c : Char) : Prop := isSpace c = false ∧ c ∉ iniStartCommentPrefixes ∧ c ≠ '['

/-- What can be the name of an entry. Source: `ini.c` `ini_parse_stream`. Kind: D -/
structure EntryName (s : List Char) : Prop where
  head : ∀ c ∈ s.head?, EntryHead c
  noSeparator : ∀ c ∈ s, c ∉ ['=', ':']
  comment : CommentFree false s

/-- `WrittenValue value tail`: behind the separator stands the value, in blanks, and perhaps a comment.
Source: `ini.c` `ini_parse_stream`
Kind: D -/
inductive WrittenValue : List Char → List Char → Prop
  | plain {pad value pad' : List Char} (hpad : Blank pad) (hvalue : Trimmed value)
      (hpad' : Blank pad') (hfree : CommentFree false (pad ++ value)) :
      WrittenValue value (pad ++ value ++ pad')
  | comment {pad value pad' text : List Char} {mark : Char} (hpad : Blank pad)
      (hvalue : Trimmed value) (hpad' : Blank pad') (hfree : CommentFree false (pad ++ value))
      (hspace : endsInSpace false (pad ++ value ++ pad') = true)
      (hmark : mark ∈ iniInlineCommentPrefixes) :
      WrittenValue value (pad ++ value ++ pad' ++ mark :: text)

/-- The indent a line may have that continues nothing. Source: `ini.c` `ini_parse_stream`. Kind: D -/
def Indent (continues : Bool) (pad : List Char) : Prop := Blank pad ∧ (continues = true → pad = [])

/-- `Written continues line text`: the text is a way to write the line; `continues` says whether a
value may be continued.
Source: `ini.c` `ini_parse_stream`
Kind: D -/
inductive Written (continues : Bool) : Line → List Char → Prop
  | blank {pad : List Char} (hpad : Blank pad) : Written continues .skip pad
  | comment {pad text : List Char} {mark : Char} (hpad : Blank pad)
      (hmark : mark ∈ iniStartCommentPrefixes) : Written continues .skip (pad ++ mark :: text)
  | continuation {indent value pad : List Char} (hcontinues : continues = true)
      (hindent : Blank indent) (hsome : indent ≠ []) (hvalue : Trimmed value) (hne : value ≠ [])
      (hhead : ∀ c ∈ value.head?, c ∉ iniStartCommentPrefixes) (hpad : Blank pad) :
      Written continues (.continuation value) (indent ++ (value ++ pad))
  | sectionLine {indent name rest : List Char} (hindent : Indent continues indent)
      (hclosed : ']' ∉ name) (hfree : CommentFree false name) :
      Written continues (.sectionLine (strncpy0 name maxSection))
        (indent ++ '[' :: (name ++ ']' :: rest))
  | entry {indent name pad tail value : List Char} {sep : Char} (hindent : Indent continues indent)
      (htrimmed : Trimmed name) (hname : EntryName name) (hpad : Blank pad)
      (hempty : name = [] → pad = []) (hsep : sep ∈ ['=', ':']) (hvalue : WrittenValue value tail) :
      Written continues (.entry name value) (indent ++ (name ++ pad ++ sep :: tail))

/-- `WrittenAt isFirst continues line text`: the text is a way to write the line there; the first line
may have a byte order mark in front.
Source: `ini.c` `ini_parse_stream`
Kind: D -/
inductive WrittenAt (isFirst continues : Bool) (line : Line) : List Char → Prop
  | plain {text : List Char} (hmark : isFirst = true → ¬ byteOrderMark <+: text)
      (hwritten : Written continues line text) : WrittenAt isFirst continues line text
  | marked {text : List Char} (hfirst : isFirst = true) (hwritten : Written continues line text) :
      WrittenAt isFirst continues line (byteOrderMark ++ text)

/-! ## The value -/

variable {s t pad : List Char}

theorem split_lskip (s : List Char) : ∃ pad, Blank pad ∧ s = pad ++ lskip s :=
  ⟨s.takeWhile isSpace, fun _ hc => List.mem_takeWhile_imp hc,
    (List.takeWhile_append_dropWhile).symm⟩

theorem split_rstrip (s : List Char) : ∃ pad, Blank pad ∧ s = rstrip s ++ pad :=
  ⟨s.rtakeWhile isSpace, fun _ hc => List.mem_rtakeWhile_imp hc,
    (List.rdropWhile_append_rtakeWhile).symm⟩

theorem Blank.append (hs : Blank s) (ht : Blank t) : Blank (s ++ t) := fun c hc =>
  (List.mem_append.mp hc).elim (hs c) (ht c)

/-- Why the search stops. Source: `ini.c` `find_chars_or_comment`. Kind: L -/
theorem findLoop_snd {chars rest : List Char} {wasSpace : Bool} {c : Char}
    (h : (findLoop chars wasSpace s).2 = c :: rest) :
    c ∈ chars ∨ (endsInSpace wasSpace (findLoop chars wasSpace s).1 = true ∧
      c ∈ iniInlineCommentPrefixes) := by
  induction s generalizing wasSpace with
  | nil => simp [findLoop] at h
  | cons d ds ih =>
      rw [findLoop] at h ⊢
      split_ifs at h ⊢ with hstop
      · obtain ⟨rfl, rfl⟩ : d = c ∧ ds = rest := by simpa using h
        exact hstop
      · exact ih h

/-- Every text is written as the value that is read from it. Source: `ini.c` `ini_parse_stream`.
Kind: L -/
theorem writtenValue_read (tail : List Char) :
    WrittenValue (rstrip (lskip (findCharsOrComment [] tail).1)) tail := by
  obtain ⟨_, hfree⟩ := findLoop_fst [] false tail
  have happend : (findCharsOrComment [] tail).1 ++ (findCharsOrComment [] tail).2 = tail :=
    findLoop_append _ _ _
  have hstop : ∀ c rest, (findCharsOrComment [] tail).2 = c :: rest → _ :=
    fun c rest h => findLoop_snd h
  rw [findCharsOrComment] at *
  generalize findLoop [] false tail = found at *
  obtain ⟨pad, hpad, hfront⟩ := split_lskip found.1
  obtain ⟨pad', hpad', hback⟩ := split_rstrip (lskip found.1)
  have hsplit : found.1 = pad ++ rstrip (lskip found.1) ++ pad' := by
    rw [List.append_assoc, ← hback, ← hfront]
  generalize hvalue : rstrip (lskip found.1) = value at hsplit
  have htrimmed : Trimmed value := hvalue ▸ trimmed_rstrip_lskip found.1
  rw [hsplit] at hfree hstop happend
  have hfree' := (commentFree_append.mp hfree).1
  rw [← happend]
  cases hrest : found.2 with
  | nil =>
      rw [List.append_nil]
      exact .plain hpad htrimmed hpad' hfree'
  | cons c rest =>
      rcases hstop c rest hrest with h | h
      · simp at h
      · exact .comment hpad htrimmed hpad' hfree' h.1 h.2

/-- A written value is read. Source: `ini.c` `ini_parse_stream`. Kind: L -/
theorem WrittenValue.read {value tail : List Char} (h : WrittenValue value tail) :
    rstrip (lskip (findCharsOrComment [] tail).1) = value := by
  cases h with
  | @plain pad _ pad' hpad hvalue hpad' hfree =>
      have hall : CommentFree false (pad ++ value ++ pad') :=
        commentFree_append.mpr ⟨hfree, commentFree_of_blank hpad'⟩
      rw [findCharsOrComment_of_free (by simp) hall]
      exact rstrip_lskip_of_trimmed hpad hpad' hvalue
  | @comment pad _ pad' text mark hpad hvalue hpad' hfree hspace hmark =>
      have hall : CommentFree false (pad ++ value ++ pad') :=
        commentFree_append.mpr ⟨hfree, commentFree_of_blank hpad'⟩
      rw [findCharsOrComment, findLoop_of_free (by simp) hall, hspace, findLoop,
        if_pos (Or.inr ⟨rfl, hmark⟩), List.append_nil]
      exact rstrip_lskip_of_trimmed hpad hpad' hvalue

theorem WrittenValue.append_blank {value tail : List Char} (h : WrittenValue value tail)
    (hpad : Blank pad) : WrittenValue value (tail ++ pad) := by
  cases h with
  | plain hpad₀ hvalue hpad' hfree =>
      rw [List.append_assoc]
      exact .plain hpad₀ hvalue (hpad'.append hpad) hfree
  | comment hpad₀ hvalue hpad' hfree hspace hmark =>
      rw [List.append_assoc, List.cons_append]
      exact .comment hpad₀ hvalue hpad' hfree hspace hmark

theorem WrittenValue.rstrip {value tail : List Char} (h : WrittenValue value tail) :
    WrittenValue value (rstrip tail) := by
  cases h with
  | @plain pad _ pad' hpad hvalue hpad' hfree =>
      rw [rstrip_append_blank hpad']
      by_cases hne : value = []
      · subst hne
        rw [List.append_nil, rstrip_blank hpad]
        have hempty : WrittenValue [] ([] ++ [] ++ []) :=
          .plain (by simp [Blank]) hvalue (by simp [Blank]) trivial
        exact hempty
      · have hlast : ∀ c ∈ (pad ++ value).getLast?, isSpace c = false := by
          rw [List.getLast?_append_of_ne_nil _ hne]
          exact hvalue.last
        rw [rstrip_eq_self hlast]
        have hwritten : WrittenValue value (pad ++ value ++ []) :=
          .plain hpad hvalue (by simp [Blank]) hfree
        simpa using hwritten
  | @comment pad _ pad' text mark hpad hvalue hpad' hfree hspace hmark =>
      have hnonblank : isSpace mark = false := by
        obtain rfl : mark = ';' := by simpa [iniInlineCommentPrefixes] using hmark
        decide
      rw [rstrip_append_cons hnonblank]
      exact .comment hpad hvalue hpad' hfree hspace hmark

/-! ## The parts of a line -/

variable {continues : Bool}

theorem CommentFree.of_isPrefix {wasSpace : Bool} (h : CommentFree wasSpace s) (hpre : t <+: s) :
    CommentFree wasSpace t := by
  obtain ⟨rest, rfl⟩ := hpre
  exact (commentFree_append.mp h).1

theorem EntryName.of_isPrefix (h : EntryName s) (hpre : t <+: s) : EntryName t where
  head c hc := h.head c (head_of_isPrefix hpre c hc)
  noSeparator c hc := h.noSeparator c (hpre.subset hc)
  comment := h.comment.of_isPrefix hpre

/-- A section line that is read is written so. Source: `ini.c` `ini_parse_stream`. Kind: L -/
theorem written_of_recogniseSection {indent start : List Char} (hindent : Indent continues indent)
    (hok : recogniseSection start ≠ .malformed) :
    Written continues (recogniseSection start) (indent ++ '[' :: start) := by
  obtain ⟨hchars, hfree⟩ := findLoop_fst [']'] false start
  have happend : (findCharsOrComment [']'] start).1 ++ (findCharsOrComment [']'] start).2 = start :=
    findLoop_append _ _ _
  rw [recogniseSection] at hok ⊢
  split_ifs at hok ⊢ with hhead
  · obtain ⟨rest, hrest⟩ : ∃ rest, (findCharsOrComment [']'] start).2 = ']' :: rest := by
      cases hfound : (findCharsOrComment [']'] start).2 with
      | nil => simp [hfound] at hhead
      | cons c rest =>
          obtain rfl : c = ']' := by simpa [hfound] using hhead
          exact ⟨rest, rfl⟩
    rw [hrest] at happend
    have hclosed : ']' ∉ (findCharsOrComment [']'] start).1 := fun hc => hchars _ hc (by simp)
    have hwritten : Written continues
        (.sectionLine (strncpy0 (findCharsOrComment [']'] start).1 maxSection))
        (indent ++ '[' :: ((findCharsOrComment [']'] start).1 ++ ']' :: rest)) :=
      .sectionLine hindent hclosed hfree
    rwa [happend] at hwritten
  · exact absurd rfl hok

/-- An entry that is read is written so. Source: `ini.c` `ini_parse_stream`. Kind: L -/
theorem written_of_recogniseEntry {indent start : List Char} (hindent : Indent continues indent)
    (hhead : ∀ c ∈ start.head?, EntryHead c) (hok : recogniseEntry start ≠ .malformed) :
    Written continues (recogniseEntry start) (indent ++ start) := by
  obtain ⟨hchars, hfree⟩ := findLoop_fst ['=', ':'] false start
  have happend : (findCharsOrComment ['=', ':'] start).1 ++ (findCharsOrComment ['=', ':'] start).2 =
      start := findLoop_append _ _ _
  rw [recogniseEntry] at hok ⊢
  rw [findCharsOrComment] at *
  generalize findLoop ['=', ':'] false start = found at *
  cases hfound : found.2 with
  | nil => simp [hfound] at hok
  | cons sep value =>
      simp only [hfound] at hok ⊢
      split_ifs at hok ⊢ with hsep
      · rw [hfound] at happend
        have hname : EntryName found.1 :=
          ⟨fun c hc => hhead c (head_of_isPrefix ⟨_, happend⟩ c hc), hchars, hfree⟩
        obtain ⟨pad, hpad, hback⟩ := split_rstrip found.1
        have hempty : rstrip found.1 = [] → pad = [] := by
          intro hnil
          rw [hnil, List.nil_append] at hback
          cases pad with
          | nil => rfl
          | cons c cs =>
              have hc := (hname.head c (by rw [hback]; rfl)).1
              rw [hpad c List.mem_cons_self] at hc
              cases hc
        have htrimmed := trimmed_rstrip fun c hc => (hname.head c hc).1
        have hwritten := Written.entry hindent htrimmed (hname.of_isPrefix (isPrefix_rstrip _)) hpad hempty
          (by simpa using hsep) (writtenValue_read value)
        rwa [← hback, happend] at hwritten
      · exact absurd rfl hok

theorem Written.append_blank {line : Line} {text : List Char} (h : Written continues line text)
    (hpad : Blank pad) : Written continues line (text ++ pad) := by
  cases h with
  | blank hpad₀ => exact .blank (hpad₀.append hpad)
  | comment hpad₀ hmark =>
      rw [List.append_assoc, List.cons_append]
      exact .comment hpad₀ hmark
  | continuation hcontinues hindent hsome hvalue hne hhead hpad₀ =>
      rw [List.append_assoc, List.append_assoc]
      exact .continuation hcontinues hindent hsome hvalue hne hhead (hpad₀.append hpad)
  | sectionLine hindent hclosed hfree =>
      rw [List.append_assoc, List.cons_append, List.append_assoc, List.cons_append]
      exact .sectionLine hindent hclosed hfree
  | entry hindent htrimmed hname hpad₀ hempty hsep hvalue =>
      rw [List.append_assoc, List.append_assoc, List.cons_append]
      exact .entry hindent htrimmed hname hpad₀ hempty hsep (hvalue.append_blank hpad)

/-! ## The parser reads what is written -/

theorem recognise_blank {text : List Char} (h : Blank text) (continues : Bool) :
    recognise false continues text = .skip := by
  simp [recognise, rstrip_blank h, lskip]

/-- How the first character decides. Source: `ini.c` `ini_parse_stream`. Kind: L -/
theorem recognise_cons {indent : List Char} {c : Char} (hindent : Blank indent)
    (hc : isSpace c = false) (text : List Char) :
    recognise false continues (indent ++ c :: text) =
      if c ∈ iniStartCommentPrefixes then .skip
      else if continues = true ∧ indent ≠ [] then .continuation (c :: rstrip text)
      else if c = '[' then recogniseSection (rstrip text)
      else recogniseEntry (c :: rstrip text) := by
  have hskip : lskip (c :: rstrip text) = c :: rstrip text := lskip_eq_self (by simpa using hc)
  simp [recognise, rstrip_append_cons hc, lskip_blank_append hindent, hskip, List.length_pos_iff]

theorem not_isSpace_of_mem_prefixes {c : Char} (hc : c ∈ iniStartCommentPrefixes) :
    isSpace c = false := by
  obtain rfl | rfl : c = ';' ∨ c = '#' := by simpa [iniStartCommentPrefixes] using hc
  · decide
  · decide

theorem entryHead_separator {c : Char} (hc : c ∈ ['=', ':']) : EntryHead c := by
  obtain rfl | rfl : c = '=' ∨ c = ':' := by simpa using hc
  · exact ⟨by decide, by decide, by decide⟩
  · exact ⟨by decide, by decide, by decide⟩

/-- **What is read is written so.** Source: `ini.c` `ini_parse_stream`. Kind: L -/
theorem written_of_recognise {text : List Char} (hok : recognise false continues text ≠ .malformed) :
    Written continues (recognise false continues text) text := by
  obtain ⟨indent, hindent, hsplit⟩ := split_lskip text
  have hhead := head_lskip (s := text)
  generalize lskip text = start at hsplit hhead
  subst hsplit
  cases start with
  | nil =>
      rw [List.append_nil, recognise_blank hindent]
      exact .blank hindent
  | cons c rest =>
      have hc : isSpace c = false := hhead c rfl
      obtain ⟨pad, hpad, hback⟩ := split_rstrip rest
      rw [recognise_cons hindent hc] at hok ⊢
      split_ifs at hok ⊢ with hcomment hcontinues hsection
      · exact .comment hindent hcomment
      · have htrimmed : Trimmed (c :: rstrip rest) := by
          rw [show c :: rstrip rest = rstrip (c :: rest) from (rstrip_append_cons hc [] rest).symm]
          exact trimmed_rstrip (by simpa using hc)
        have hwritten := Written.continuation hcontinues.1 hindent hcontinues.2 htrimmed (by simp)
          (by simpa using hcomment) hpad
        rwa [List.cons_append, ← hback] at hwritten
      · have hnone : Indent continues indent :=
          ⟨hindent, fun hk => by_contra fun hne => hcontinues ⟨hk, hne⟩⟩
        have hwritten := (written_of_recogniseSection hnone hok).append_blank hpad
        rwa [List.append_assoc, List.cons_append, ← hback, ← hsection] at hwritten
      · have hnone : Indent continues indent :=
          ⟨hindent, fun hk => by_contra fun hne => hcontinues ⟨hk, hne⟩⟩
        have hentry : ∀ d ∈ (c :: rstrip rest).head?, EntryHead d := by
          intro d hd
          obtain rfl : c = d := by simpa using hd
          exact ⟨hc, hcomment, hsection⟩
        have hwritten := (written_of_recogniseEntry hnone hentry hok).append_blank hpad
        rwa [List.append_assoc, List.cons_append, ← hback] at hwritten

theorem recogniseEntry_of_written {name tail value : List Char} {sep : Char} (htrimmed : Trimmed name)
    (hname : EntryName name) (hpad : Blank pad) (hsep : sep ∈ ['=', ':'])
    (hvalue : WrittenValue value tail) :
    recogniseEntry (name ++ pad ++ sep :: tail) = .entry name value := by
  have hchars : ∀ c ∈ name ++ pad, c ∉ ['=', ':'] := by
    intro c hc hmem
    rcases List.mem_append.mp hc with hc | hc
    · exact hname.noSeparator c hc hmem
    · have hblank := (entryHead_separator hmem).1
      rw [hpad c hc] at hblank
      cases hblank
  have hfree : CommentFree false (name ++ pad) :=
    commentFree_append.mpr ⟨hname.comment, commentFree_of_blank hpad⟩
  have hfound := findCharsOrComment_char hchars hfree hsep tail
  have hsep' : sep = '=' ∨ sep = ':' := by simpa using hsep
  simp only [recogniseEntry, hfound, if_pos hsep', hvalue.read, rstrip_append_blank hpad,
    rstrip_eq_self htrimmed.last]

/-- **What is written is read.** Source: `ini.c` `ini_parse_stream`. Kind: L -/
theorem Written.recognise {line : Line} {text : List Char} (h : Written continues line text) :
    recognise false continues text = line := by
  cases h with
  | blank hpad => exact recognise_blank hpad _
  | comment hpad hmark =>
      rw [recognise_cons hpad (not_isSpace_of_mem_prefixes hmark), if_pos hmark]
  | @continuation indent value pad hcontinues hindent hsome hvalue hne hhead hpad =>
      obtain ⟨c, rest, rfl⟩ := List.exists_cons_of_ne_nil hne
      have hc : isSpace c = false := hvalue.head c rfl
      have hrest : c :: rstrip (rest ++ pad) = c :: rest := by
        rw [rstrip_append_blank hpad,
          show c :: rstrip rest = rstrip (c :: rest) from (rstrip_append_cons hc [] rest).symm,
          rstrip_eq_self hvalue.last]
      rw [List.cons_append, recognise_cons hindent hc, if_neg (hhead c rfl),
        if_pos ⟨hcontinues, hsome⟩, hrest]
  | @sectionLine indent name rest hindent hclosed hfree =>
      have hchars : ∀ c ∈ name, c ∉ [']'] := by
        intro c hc hmem
        obtain rfl := List.mem_singleton.mp hmem
        exact hclosed hc
      have hfound := findCharsOrComment_char hchars hfree (List.mem_singleton_self _) (rstrip rest)
      rw [recognise_cons hindent.1 (by decide), if_neg (by decide),
        if_neg fun h => h.2 (hindent.2 h.1), if_pos rfl, rstrip_append_cons (by decide),
        recogniseSection, hfound]
      rfl
  | @entry indent name pad tail value sep hindent htrimmed hname hpad hempty hsep hvalue =>
      -- the name may be empty, and then the separator is the first character
      obtain ⟨c, rest, hstart, hc⟩ : ∃ c rest, name ++ pad ++ sep :: tail = c :: rest ∧
          EntryHead c := by
        cases name with
        | nil => exact ⟨sep, tail, by simp [hempty], entryHead_separator hsep⟩
        | cons c cs => exact ⟨c, cs ++ pad ++ sep :: tail, rfl, hname.head c rfl⟩
      have hrest : c :: rstrip rest = name ++ pad ++ sep :: rstrip tail := by
        rw [show c :: rstrip rest = rstrip (c :: rest) from (rstrip_append_cons hc.1 [] rest).symm,
          ← hstart, rstrip_append_cons (entryHead_separator hsep).1]
      rw [hstart, recognise_cons hindent.1 hc.1, if_neg hc.2.1, if_neg fun h => h.2 (hindent.2 h.1),
        if_neg hc.2.2, hrest, recogniseEntry_of_written htrimmed hname hpad hsep hvalue.rstrip]

/-! ## The first line -/

/-- A byte order mark in front of the first line changes nothing.
Source: `ini.c` `ini_parse_stream`
Kind: L -/
theorem recognise_byteOrderMark (text : List Char) :
    recognise true false (byteOrderMark ++ text) = recognise false false text := by
  simp [recognise, byteOrderMark]

/-- Without the mark, the first line is read as the others. Source: `ini.c` `ini_parse_stream`.
Kind: L -/
theorem recognise_isFirst {isFirst : Bool} {text : List Char}
    (hmark : isFirst = true → ¬ byteOrderMark <+: text) :
    recognise isFirst continues text = recognise false continues text := by
  have hbom : (isFirst && text.take 3 == byteOrderMark) = false := by
    rw [Bool.and_eq_false_imp, beq_eq_false_iff_ne]
    intro hfirst htake
    exact hmark hfirst (htake ▸ List.take_prefix 3 text)
  simp [recognise, hbom]

variable {isFirst : Bool} {line : Line} {text : List Char}

/-- What is read is written so, on the first line too; there no value can be continued.
Source: `ini.c` `ini_parse_stream`
Kind: L -/
theorem writtenAt_of_recognise (hfirst : isFirst = true → continues = false)
    (hok : recognise isFirst continues text ≠ .malformed) :
    WrittenAt isFirst continues (recognise isFirst continues text) text := by
  by_cases hmark : isFirst = true ∧ byteOrderMark <+: text
  · obtain ⟨rfl, rest, rfl⟩ := hmark
    obtain rfl := hfirst rfl
    rw [recognise_byteOrderMark] at hok ⊢
    exact .marked rfl (written_of_recognise hok)
  · have hnone : isFirst = true → ¬ byteOrderMark <+: text := fun h hpre => hmark ⟨h, hpre⟩
    rw [recognise_isFirst hnone] at hok ⊢
    exact .plain hnone (written_of_recognise hok)

theorem WrittenAt.recognise (hfirst : isFirst = true → continues = false)
    (h : WrittenAt isFirst continues line text) : recognise isFirst continues text = line := by
  cases h with
  | plain hmark hwritten => rw [recognise_isFirst hmark, hwritten.recognise]
  | marked htrue hwritten =>
      obtain rfl := hfirst htrue
      rw [htrue, recognise_byteOrderMark, hwritten.recognise]

theorem WrittenAt.ne_malformed (h : WrittenAt isFirst continues line text) : line ≠ .malformed := by
  rintro rfl
  cases h with
  | plain hmark hwritten => cases hwritten
  | marked htrue hwritten => cases hwritten

/-- **The parser reads the grammar**: a text is recognised as a line exactly when it is written so,
the first line and its byte order mark included.
Source: `ini.c` `ini_parse_stream`
Kind: P -/
theorem recognise_eq_iff (hfirst : isFirst = true → continues = false) (hok : line ≠ .malformed) :
    recognise isFirst continues text = line ↔ WrittenAt isFirst continues line text := by
  constructor
  · rintro rfl
    exact writtenAt_of_recognise hfirst hok
  · exact WrittenAt.recognise hfirst

/-- The first line of a file, with a mark and a remark, is read as it is written; and what an indented
line behind an entry is read as says how it is written.
Source: `ini/gdevice.ini`
Kind: L -/
theorem recognise_lock :
    recognise true false (byteOrderMark ++ "[lock] ; door".toList) = .sectionLine "lock".toList ∧
      WrittenAt false true (.continuation "[lock] ; door".toList) " [lock] ; door".toList := by
  have hsection : Written false (.sectionLine (strncpy0 "lock".toList maxSection))
      ([] ++ '[' :: ("lock".toList ++ ']' :: " ; door".toList)) :=
    .sectionLine ⟨by simp [Blank], by simp⟩ (by decide) (by decide)
  exact ⟨(recognise_eq_iff (fun _ => rfl) (by simp)).mpr (.marked rfl hsection),
    (recognise_eq_iff (by simp) (by simp)).mp (by decide)⟩

/-- Malformed is what is written in no way. Source: `ini.c` `ini_parse_stream`. Kind: P -/
theorem recognise_eq_malformed_iff (hfirst : isFirst = true → continues = false) :
    recognise isFirst continues text = .malformed ↔
      ∀ line, ¬ WrittenAt isFirst continues line text := by
  constructor
  · intro hbad line h
    exact h.ne_malformed ((h.recognise hfirst).symm.trans hbad)
  · intro hnone
    by_contra hok
    exact hnone _ (writtenAt_of_recognise hfirst hok)

end SmartHome.Ini
