import SmartHome.Ini.Entries
import SmartHome.Ini.Grammar

/-!
# What the handler can rely on

Whatever file is parsed, the strings given to the handler have a form (`HandedOn`): the name of the
section has less than `MAX_SECTION` characters, the name of the entry has no `=` and no `:` in it
and does not look like another kind of line, the value has no blanks at its ends, and no string
goes over a line end or does not fit into the line buffer (`handedOn_of_mem_iniCalls`).

`recognise` gives clean lines (`clean_recognise`), and the context stays clean from line to line.
The name of a continuation line is the copy in `prev_name`, which may be cut short and then may
end in a blank; this is why a name is not promised to be trimmed.
-/

set_option autoImplicit false

namespace SmartHome.Ini

open SmartHome.Device SmartHome.Found

/-! ## Clean texts -/

/-- No line end and no terminator. Source: none: infrastructure. Kind: D -/
def OneLine (s : List Char) : Prop := '\n' ∉ s ∧ '\x00' ∉ s

/-- What can be the name of a section. Source: `ini.c` `ini_parse_stream`. Kind: D -/
structure SectionText (s : List Char) : Prop where
  fits : s.length < maxSection
  closed : ']' ∉ s
  comment : CommentFree false s
  oneLine : OneLine s

/-- What is handed on as the name of an entry. Source: `ini.c` `ini_parse_stream`. Kind: D -/
structure NameText (s : List Char) : Prop extends EntryName s where
  oneLine : OneLine s

/-- What can be a value. Source: `ini.c` `ini_parse_stream`. Kind: D -/
structure ValueText (s : List Char) : Prop where
  trimmed : Trimmed s
  oneLine : OneLine s

/-- The form of a call. Source: `ini.c` `ini_parse_stream`. Kind: D -/
structure HandedOn (c : IniCall) : Prop where
  sectionName : SectionText c.sectionName.toList
  name : NameText c.name.toList
  value : ValueText c.value.toList
  fits : c.name.toList.length + 1 < iniMaxLine ∧ c.value.toList.length + 1 < iniMaxLine

variable {s t : List Char}

theorem OneLine.of_subset (h : OneLine s) (hsub : t ⊆ s) : OneLine t :=
  ⟨fun hc => h.1 (hsub hc), fun hc => h.2 (hsub hc)⟩

theorem last_of_suffix (h : t <:+ s) : ∀ c ∈ t.getLast?, c ∈ s.getLast? := by
  obtain ⟨before, rfl⟩ := h
  intro c hc
  rw [List.getLast?_append, Option.mem_def.mp hc]
  rfl

theorem trimmed_lskip_rstrip (s : List Char) : Trimmed (lskip (rstrip s)) :=
  ⟨head_lskip, fun c hc => last_rstrip c (last_of_suffix (lskip_suffix _) c hc)⟩

theorem SectionText.nil : SectionText [] :=
  ⟨by decide, by simp, trivial, by simp [OneLine]⟩

theorem NameText.nil : NameText [] := ⟨⟨by simp, by simp, trivial⟩, by simp [OneLine]⟩

/-- A copy that is cut short is still such a name. Source: `ini.c` `strncpy0`. Kind: L -/
theorem NameText.of_isPrefix (h : NameText s) (hpre : t <+: s) : NameText t :=
  ⟨h.toEntryName.of_isPrefix hpre, h.oneLine.of_subset hpre.subset⟩

/-! ## Lines -/

/-- What is read at once: it fits into the buffer, and a line end is its last character.
Source: `ini.h` `ini_reader`
Kind: D -/
structure ReadLine (line : List Char) : Prop where
  fits : line.length < iniMaxLine
  lineEnd : '\n' ∉ line.dropLast
  terminator : '\x00' ∉ line

/-- What a line hands on, by its kind. Source: `ini.c` `ini_parse_stream`. Kind: D -/
def Line.Clean : Line → Prop
  | .continuation value => ValueText value ∧ value.length + 1 < iniMaxLine
  | .sectionLine name => SectionText name
  | .entry name value => NameText name ∧ ValueText value ∧ name.length + value.length + 1 < iniMaxLine
  | _ => True

theorem mem_dropLast_of_isPrefix {c : Char} (hpre : t <+: s) (hc : c ∈ t.dropLast) :
    c ∈ s.dropLast := by
  obtain ⟨rest, rfl⟩ := hpre
  rcases rest with _ | ⟨d, rest⟩
  · rwa [List.append_nil]
  · rw [List.dropLast_append_of_ne_nil (by simp)]
    exact List.mem_append_left _ (List.dropLast_subset _ hc)

theorem ReadLine.of_isPrefix {line : List Char} (h : ReadLine line) (hpre : t <+: line) :
    ReadLine t where
  fits := lt_of_le_of_lt hpre.length_le h.fits
  lineEnd hc := h.lineEnd (mem_dropLast_of_isPrefix hpre hc)
  terminator hc := h.terminator (hpre.subset hc)

theorem ReadLine.drop {line : List Char} (h : ReadLine line) (n : ℕ) : ReadLine (line.drop n) where
  fits := lt_of_le_of_lt (by simp) h.fits
  lineEnd hc := by
    have hne : line.drop n ≠ [] := by
      intro h0
      simp [h0] at hc
    apply h.lineEnd
    rw [← List.take_append_drop n line, List.dropLast_append_of_ne_nil hne]
    exact List.mem_append_right _ hc
  terminator hc := h.terminator (List.mem_of_mem_drop hc)

/-- The line end is cut off with the blanks. Source: `ini.c` `rstrip`. Kind: L -/
theorem ReadLine.oneLine_rstrip {line : List Char} (h : ReadLine line) : OneLine (rstrip line) := by
  refine ⟨fun hc => ?_, fun hc => h.terminator ((isPrefix_rstrip line).subset hc)⟩
  have hpre := h.of_isPrefix (isPrefix_rstrip line)
  have hne : rstrip line ≠ [] := List.ne_nil_of_mem hc
  rw [← List.dropLast_append_getLast hne, List.mem_append, List.mem_singleton] at hc
  rcases hc with hc | hc
  · exact hpre.lineEnd hc
  · have hspace := last_rstrip _ (List.getLast?_eq_some_getLast hne)
    rw [← hc] at hspace
    exact absurd hspace (by decide)

theorem clean_recogniseSection {start : List Char} (hline : OneLine start) :
    (recogniseSection start).Clean := by
  obtain ⟨hchars, hfree⟩ := findLoop_fst [']'] false start
  have happend : (findCharsOrComment [']'] start).1 ++ (findCharsOrComment [']'] start).2 = start :=
    findLoop_append _ _ _
  rw [recogniseSection]
  split_ifs
  · have hpre := isPrefix_strncpy0 (findCharsOrComment [']'] start).1 maxSection
    have hsub : (findCharsOrComment [']'] start).1 ⊆ start := by
      intro c hc
      rw [← happend]
      exact List.mem_append_left _ hc
    exact {
      fits := length_strncpy0_lt (by decide) _
      closed := fun hc => hchars _ (hpre.subset hc) (by simp)
      comment := CommentFree.of_isPrefix hfree hpre
      oneLine := (hline.of_subset hsub).of_subset hpre.subset }
  · trivial

theorem clean_recogniseEntry {start : List Char} (hline : OneLine start)
    (hfits : start.length < iniMaxLine) (hhead : ∀ c ∈ start.head?, EntryHead c) :
    (recogniseEntry start).Clean := by
  obtain ⟨hchars, hfree⟩ := findLoop_fst ['=', ':'] false start
  have happend : (findCharsOrComment ['=', ':'] start).1 ++ (findCharsOrComment ['=', ':'] start).2 =
      start := findLoop_append _ _ _
  rw [recogniseEntry]
  rw [findCharsOrComment] at happend ⊢
  split
  · trivial
  case h_2 c value hfound =>
    split_ifs
    · rw [hfound] at happend
      have hname : NameText (findLoop ['=', ':'] false start).1 :=
        ⟨⟨fun d hd => hhead d (head_of_isPrefix ⟨_, happend⟩ d hd), hchars, hfree⟩,
          hline.of_subset fun d hd => happend ▸ List.mem_append_left _ hd⟩
      have hpart : (findCharsOrComment [] value).1 <+: value := ⟨_, findLoop_append _ _ _⟩
      have hsub : rstrip (lskip (findCharsOrComment [] value).1) <:+: value :=
        (isPrefix_rstrip _).isInfix.trans ((lskip_suffix _).isInfix.trans hpart.isInfix)
      have hvalue : value ⊆ start := fun d hd => by
        rw [← happend]
        exact List.mem_append_right _ (List.mem_cons_of_mem _ hd)
      refine ⟨hname.of_isPrefix (isPrefix_rstrip _), ⟨trimmed_rstrip_lskip _,
        (hline.of_subset hvalue).of_subset hsub.subset⟩, ?_⟩
      have hlen := congrArg List.length happend
      have hnameLen := (isPrefix_rstrip (findLoop ['=', ':'] false start).1).length_le
      have hvalueLen := hsub.length_le
      rw [List.length_append, List.length_cons] at hlen
      omega
    · trivial

/-- **A line is clean**, whatever is in it. Source: `ini.c` `ini_parse_stream`. Kind: P -/
theorem clean_recognise {line : List Char} (h : ReadLine line) (isFirst continues : Bool) :
    (recognise isFirst continues line).Clean := by
  rw [recognise]
  generalize hbom : (isFirst && line.take 3 == byteOrderMark) = bom
  have hread : ReadLine (if bom then line.drop 3 else line) := by
    cases bom with
    | false => exact h
    | true => exact h.drop 3
  generalize hfrom : (if bom then line.drop 3 else line) = from_ at hread
  have hstart : OneLine (lskip (rstrip from_)) :=
    hread.oneLine_rstrip.of_subset (lskip_suffix _).subset
  have htrimmed := trimmed_lskip_rstrip from_
  have hlen := (lskip_suffix (rstrip from_)).length_le
  have hstripped := (isPrefix_rstrip from_).length_le
  generalize hs : lskip (rstrip from_) = start at hstart htrimmed hlen
  cases start with
  | nil => trivial
  | cons c rest =>
      dsimp only
      split_ifs with hcomment hcontinues hsection
      · trivial
      · -- something stands in front of the value: the mark, or a blank
        have hlong : (c :: rest).length < line.length := by
          cases bom with
          | true =>
              obtain rfl : line.drop 3 = from_ := hfrom
              rw [List.length_drop] at hstripped
              rw [List.length_cons] at hlen ⊢
              omega
          | false =>
              obtain rfl : line = from_ := hfrom
              have hblank : (c :: rest).length < (rstrip line).length := by
                simpa using (Bool.and_eq_true_iff.mp hcontinues).2
              exact lt_of_lt_of_le hblank hstripped
        exact ⟨⟨htrimmed, hstart⟩, lt_of_le_of_lt hlong h.fits⟩
      · exact clean_recogniseSection (hstart.of_subset (List.subset_cons_self c rest))
      · refine clean_recogniseEntry hstart (lt_of_le_of_lt (hlen.trans hstripped) hread.fits) ?_
        intro d hd
        obtain rfl : c = d := by simpa using hd
        exact ⟨htrimmed.head c rfl, hcomment, hsection⟩

/-! ## The whole file -/

/-- The context stays of this form. Source: `ini.c` `ini_parse_stream`. Kind: D -/
structure Context.Clean (ctx : Context) : Prop where
  sectionName : SectionText ctx.sectionName
  prevName : NameText ctx.prevName
  fits : ctx.prevName.length < maxName

theorem Context.Clean.init : Context.init.Clean := ⟨SectionText.nil, NameText.nil, by decide⟩

variable {ctx : Context}

theorem Context.Clean.next (h : ctx.Clean) {line : Line} (hline : line.Clean) :
    (ctx.next line).Clean := by
  cases line with
  | skip => exact h
  | continuation value => exact h
  | sectionLine name => exact ⟨hline, NameText.nil, by simp [Context.next, maxName]⟩
  | entry name value =>
      exact ⟨h.sectionName, hline.1.of_isPrefix (isPrefix_strncpy0 _ _), length_strncpy0_lt (by decide) _⟩
  | malformed => exact h

/-- **A clean line in a clean context hands on what it should.**
Source: `ini.c` `ini_parse_stream`
Kind: L -/
theorem Context.Clean.handedOn (h : ctx.Clean) {line : Line} (hline : line.Clean) {c : IniCall}
    (hc : ctx.call line = some c) : HandedOn c := by
  have hname : maxName < iniMaxLine := by decide
  cases line with
  | skip => cases hc
  | sectionLine name => cases hc
  | malformed => cases hc
  | continuation value =>
      obtain rfl : iniCall ctx.sectionName ctx.prevName value = c := Option.some.inj hc
      have hfits := h.fits
      exact ⟨by simpa [iniCall] using h.sectionName, by simpa [iniCall] using h.prevName,
        by simpa [iniCall] using hline.1, by simp only [iniCall, String.toList_ofList]; omega,
        by simpa [iniCall] using hline.2⟩
  | entry name value =>
      obtain rfl : iniCall ctx.sectionName name value = c := Option.some.inj hc
      obtain ⟨hnameText, hvalueText, hfits⟩ := hline
      refine ⟨by simpa [iniCall] using h.sectionName, by simpa [iniCall] using hnameText,
        by simpa [iniCall] using hvalueText, ?_⟩
      simp only [iniCall, String.toList_ofList]
      omega

theorem handedOn_of_mem_callsOf {isFirst : Bool} {lines : List (List Char)}
    (hlines : ∀ line ∈ lines, ReadLine (cstr line)) (h : ctx.Clean) {c : IniCall}
    (hc : c ∈ callsOf (linesIn isFirst ctx lines)) : HandedOn c := by
  induction lines generalizing isFirst ctx with
  | nil => simp [linesIn, callsOf] at hc
  | cons line lines ih =>
      have hclean : (ctx.line isFirst line).Clean :=
        clean_recognise (hlines line List.mem_cons_self) _ _
      rw [linesIn, callsOf_cons, List.mem_append, Option.mem_toList] at hc
      rcases hc with hc | hc
      · exact h.handedOn hclean hc
      · exact ih (fun line' h' => hlines line' (List.mem_cons_of_mem _ h')) (h.next hclean) hc

theorem readLine_cstr {text line : List Char} (hline : line ∈ fileLines text) :
    ReadLine (cstr line) := by
  have hroom : 0 < iniMaxLine - 1 := by decide
  have hbuffer : iniMaxLine - 1 < iniMaxLine := by decide
  have hfits := length_le_of_mem_chunks isNewline hroom hline
  have hend := not_stop_of_mem_dropLast_of_mem_chunks hroom hline
  have hpre : cstr line <+: line := List.takeWhile_prefix _
  refine ⟨lt_of_le_of_lt (hpre.length_le.trans hfits) hbuffer, fun hc => ?_, fun hc => ?_⟩
  · have hstop := hend _ (mem_dropLast_of_isPrefix hpre hc)
    simp [isNewline] at hstop
  · have hkept := List.mem_takeWhile_imp hc
    simp at hkept

/-- **What the handler can rely on**, for every file and every entry in it.
Source: `ini.c` `ini_parse_stream`
Kind: P -/
theorem handedOn_of_mem_iniCalls {text : List Char} {c : IniCall} (hc : c ∈ iniCalls text) :
    HandedOn c :=
  handedOn_of_mem_callsOf (fun _ => readLine_cstr) Context.Clean.init hc

end SmartHome.Ini
