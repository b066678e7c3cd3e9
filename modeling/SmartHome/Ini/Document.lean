import SmartHome.Ini.Entries
import SmartHome.Ini.Grammar

/-!
# Files in the grammar

`WrittenLines isFirst ctx lines texts` says that the texts, one after the other, are ways to write the
lines; whether a line may continue a value depends on the lines before. `iniParseFile_eq_iff` says
when a file is read without an error, and with what result: exactly when its lines are written in the
grammar, and then the handler gets the entries of these lines (`callsOf (ctx.along lines)`). The file
may start with a byte order mark and may end without a line end.

So a file can be laid out in any of the ways of `Written`, and the entries do not change. That
comments and blank lines can also be put in later is `iniParseFile_insert_skip`; it holds for any
file and any handler.
-/

set_option autoImplicit false

namespace SmartHome.Ini

open SmartHome.Device SmartHome.Found

/-- A text that is one line of a file, and fits into the buffer with its line end.
Source: `ini.h` `INI_MAX_LINE`
Kind: D -/
structure FileLine (text : List Char) : Prop where
  lineEnd : '\n' ∉ text
  terminator : '\x00' ∉ text
  fits : text.length + 1 < iniMaxLine

/-- A text that is the last line of a file, without a line end, and fits into the buffer; the empty one
is no line.
Source: `ini.h` `INI_MAX_LINE`
Kind: D -/
structure LastLine (text : List Char) : Prop where
  lineEnd : '\n' ∉ text
  terminator : '\x00' ∉ text
  fits : text.length < iniMaxLine

/-- The last line, if there is one. Source: none: the meaning of a file. Kind: D -/
def lastLine (text : List Char) : List (List Char) := if text = [] then [] else [text]

/-- The file with the given lines. Source: none: the meaning of a file. Kind: D -/
def fileText (texts : List (List Char)) : List Char := texts.flatMap fun text => text ++ ['\n']

/-- The lines with the contexts they stand in. Source: none: the meaning of a file. Kind: D -/
def Context.along (ctx : Context) : List Line → List (Context × Line)
  | [] => []
  | line :: lines => (ctx, line) :: (ctx.next line).along lines

/-- The texts are ways to write the lines, at the front of a file (`isFirst`) or later.
Source: none: the meaning of a file. Kind: D -/
inductive WrittenLines : Bool → Context → List Line → List (List Char) → Prop
  | nil (isFirst : Bool) (ctx : Context) : WrittenLines isFirst ctx [] []
  | cons {isFirst : Bool} {ctx : Context} {line : Line} {lines : List Line} {text : List Char}
      {texts : List (List Char)} (hline : WrittenAt isFirst (ctx.prevName ≠ []) line text)
      (hlines : WrittenLines false (ctx.next line) lines texts) :
      WrittenLines isFirst ctx (line :: lines) (text :: texts)

variable {text last : List Char} {texts : List (List Char)} {lines : List Line} {ctx : Context}

theorem isNewline_eq_false (h : '\n' ∉ text) : ∀ c ∈ text, isNewline c = false := by
  intro c hc
  have hne : c ≠ '\n' := fun hnewline => h (hnewline ▸ hc)
  simpa [isNewline] using hne

/-- The lines a file is read in. Source: `ini.c` `ini_parse_stream`. Kind: L -/
theorem fileLines_fileText (htexts : ∀ text ∈ texts, FileLine text) (rest : List Char) :
    fileLines (fileText texts ++ rest) =
      (texts.map fun text => text ++ ['\n']) ++ fileLines rest := by
  have hstop : isNewline '\n' = true := by decide
  apply chunks_lines hstop
  intro text htext
  obtain ⟨hend, -, hfits⟩ := htexts text htext
  exact ⟨isNewline_eq_false hend, by omega⟩

theorem fileLines_last (hlast : LastLine last) : fileLines last = lastLine last := by
  obtain ⟨hend, -, hfits⟩ := hlast
  exact chunks_open (by decide) (isNewline_eq_false hend) (by omega)

theorem mem_lastLine (h : text ∈ lastLine last) : text = last := by
  unfold lastLine at h
  split_ifs at h
  · cases h
  · exact List.mem_singleton.mp h

/-- The line end does not count. Source: `ini.c` `rstrip`. Kind: L -/
theorem recognise_append_newline (isFirst continues : Bool) (text : List Char) :
    recognise isFirst continues (text ++ ['\n']) = recognise isFirst continues text := by
  have hblank : Blank ['\n'] := by simp [Blank, isSpace]
  have hrest : recognise false continues (text ++ ['\n']) = recognise false continues text := by
    simp [recognise, rstrip_append_blank hblank]
  by_cases hmark : isFirst = true ∧ byteOrderMark <+: text
  · obtain ⟨rfl, rest, rfl⟩ := hmark
    simp [recognise, byteOrderMark, rstrip_append_blank hblank]
  · -- a line end is not part of a mark
    have hmark' : isFirst = true → ¬ byteOrderMark <+: text ++ ['\n'] := by
      intro hfirst hpre
      rcases List.prefix_concat_iff.mp hpre with heq | hpre
      · have hmem : '\n' ∈ byteOrderMark := by
          rw [heq]
          simp
        exact absurd hmem (by decide)
      · exact hmark ⟨hfirst, hpre⟩
    rw [recognise_isFirst hmark', recognise_isFirst fun hfirst hpre => hmark ⟨hfirst, hpre⟩, hrest]

/-- A line of the file, by its text. Source: `ini.c` `ini_parse_stream`. Kind: L -/
theorem line_append_newline (hterminator : '\x00' ∉ text) (isFirst : Bool) :
    ctx.line isFirst (text ++ ['\n']) = ctx.line isFirst text := by
  have hterminator' : '\x00' ∉ text ++ ['\n'] := by simpa using hterminator
  rw [Context.line, Context.line, cstr_eq_self hterminator', cstr_eq_self hterminator,
    recognise_append_newline]

theorem linesIn_append_newline (hterminator : ∀ text ∈ texts, '\x00' ∉ text) (isFirst : Bool)
    (ctx : Context) (more : List (List Char)) :
    linesIn isFirst ctx ((texts.map fun text => text ++ ['\n']) ++ more) =
      linesIn isFirst ctx (texts ++ more) := by
  induction texts generalizing isFirst ctx with
  | nil => rfl
  | cons text texts ih =>
      rw [List.map_cons, List.cons_append, List.cons_append, linesIn, linesIn,
        line_append_newline (hterminator text List.mem_cons_self),
        ih fun text' h => hterminator text' (List.mem_cons_of_mem _ h)]

/-- What the parser makes of a file. Source: `ini.c` `ini_parse_stream`. Kind: L -/
theorem linesIn_fileLines (htexts : ∀ text ∈ texts, FileLine text) (hlast : LastLine last) :
    linesIn true Context.init (fileLines (fileText texts ++ last)) =
      linesIn true Context.init (texts ++ lastLine last) := by
  rw [fileLines_fileText htexts, fileLines_last hlast,
    linesIn_append_newline fun text htext => (htexts text htext).terminator]

/-- **The lines of a file are read without an error exactly when they are written in the grammar.**
Source: `ini.c` `ini_parse_stream`
Kind: L -/
theorem linesIn_eq_along_iff (hterminator : ∀ text ∈ texts, '\x00' ∉ text) {isFirst : Bool}
    (hfirst : isFirst = true → ctx.prevName = []) :
    (linesIn isFirst ctx texts = ctx.along lines ∧ Line.malformed ∉ lines) ↔
      WrittenLines isFirst ctx lines texts := by
  induction texts generalizing ctx lines isFirst with
  | nil =>
      cases lines with
      | nil => simp [linesIn, Context.along, WrittenLines.nil]
      | cons line lines =>
          refine ⟨fun h => ?_, fun h => ?_⟩
          · simp [linesIn, Context.along] at h
          · cases h
  | cons text texts ih =>
      have hline : ctx.line isFirst text = recognise isFirst (ctx.prevName ≠ []) text := by
        rw [Context.line, cstr_eq_self (hterminator text List.mem_cons_self)]
      have hnone : isFirst = true → decide (ctx.prevName ≠ []) = false := by simpa using hfirst
      have hrest : ∀ (ctx : Context) (lines : List Line),
          (linesIn false ctx texts = ctx.along lines ∧ Line.malformed ∉ lines) ↔
            WrittenLines false ctx lines texts := fun _ _ =>
        ih (fun text' h => hterminator text' (List.mem_cons_of_mem _ h)) (by simp)
      rw [linesIn, hline]
      constructor
      · rintro ⟨heq, hok⟩
        cases lines with
        | nil => simp [Context.along] at heq
        | cons line lines =>
            rw [Context.along, List.cons.injEq, Prod.mk.injEq] at heq
            obtain ⟨⟨-, rfl⟩, hlines⟩ := heq
            obtain ⟨hne, hlater⟩ := not_or.mp fun h => hok (List.mem_cons.mpr h)
            exact .cons (writtenAt_of_recognise hnone (Ne.symm hne)) ((hrest _ _).mp ⟨hlines, hlater⟩)
      · intro h
        cases h with
        | @cons _ _ line lines _ _ hwritten hlines =>
            obtain ⟨heq, hlater⟩ := (hrest _ _).mpr hlines
            rw [hwritten.recognise hnone, heq]
            refine ⟨rfl, fun h => ?_⟩
            rcases List.mem_cons.mp h with rfl | h
            · exact hwritten.ne_malformed rfl
            · exact hlater h

theorem linesIn_eq_along (isFirst : Bool) (ctx : Context) (texts : List (List Char)) :
    linesIn isFirst ctx texts = ctx.along ((linesIn isFirst ctx texts).map Prod.snd) := by
  induction texts generalizing isFirst ctx with
  | nil => rfl
  | cons text texts ih =>
      rw [linesIn, List.map_cons, Context.along, ← ih]

theorem mem_of_mem_along {x : Context × Line} (hx : x ∈ ctx.along lines) : x.2 ∈ lines := by
  induction lines generalizing ctx with
  | nil => simp [Context.along] at hx
  | cons line lines ih =>
      rcases List.mem_cons.mp hx with rfl | hx
      · exact List.mem_cons_self
      · exact List.mem_cons_of_mem _ (ih hx)

theorem head?_malformedFrom_eq_zero_iff (n : ℕ) (read : List (Context × Line)) :
    (malformedFrom (n + 1) read).head?.getD 0 = 0 ↔ Line.malformed ∉ read.map Prod.snd := by
  induction read generalizing n with
  | nil => simp [malformedFrom]
  | cons x read ih =>
      rw [malformedFrom, List.map_cons, List.mem_cons]
      by_cases hx : x.2 = .malformed
      · simp [hx]
      · simpa [hx, Ne.symm hx] using ih (n + 1)

variable {σ : Type*} {handler : IniHandler σ}

theorem terminator_of_mem (htexts : ∀ text ∈ texts, FileLine text) (hlast : LastLine last) :
    ∀ text ∈ texts ++ lastLine last, '\x00' ∉ text := by
  intro text htext
  rcases List.mem_append.mp htext with htext | htext
  · exact (htexts text htext).terminator
  · rw [mem_lastLine htext]
    exact hlast.terminator

/-- What is written in the grammar is read without an error.
Source: `ini.c` `ini_parse_file`, `ini_parse_stream`
Kind: L -/
theorem iniParseFile_of_written (haccepts : ∀ user c, (handler user c).2 = true)
    (htexts : ∀ text ∈ texts, FileLine text) (hlast : LastLine last)
    (hwritten : WrittenLines true Context.init lines (texts ++ lastLine last)) (user : σ) :
    iniParseFile (fileText texts ++ last) handler user =
      (0, feedAll handler user (callsOf (Context.init.along lines))) := by
  have hterminator := terminator_of_mem htexts hlast
  obtain ⟨hread, hok⟩ := (linesIn_eq_along_iff hterminator fun _ => rfl).mpr hwritten
  have hnone : Line.malformed ∉ (Context.init.along lines).map Prod.snd := by
    intro h
    obtain ⟨x, hx, hmalformed⟩ := List.mem_map.mp h
    rw [← hmalformed] at hok
    exact hok (mem_of_mem_along hx)
  rw [iniParseFile_of_accepts haccepts, iniCalls, malformedLines, linesIn_fileLines htexts hlast, hread,
    Prod.mk.injEq, Int.natCast_eq_zero]
  exact ⟨(head?_malformedFrom_eq_zero_iff 0 _).mpr hnone, rfl⟩

/-- **A file is read without an error exactly when its lines are written in the grammar**, and then the
handler's work is on the entries of these lines. The last line may lack its line end.
Source: `ini.c` `ini_parse_file`, `ini_parse_stream`
Kind: P -/
theorem iniParseFile_eq_iff (haccepts : ∀ user c, (handler user c).2 = true)
    (htexts : ∀ text ∈ texts, FileLine text) (hlast : LastLine last) (user result : σ) :
    iniParseFile (fileText texts ++ last) handler user = (0, result) ↔
      ∃ lines, WrittenLines true Context.init lines (texts ++ lastLine last) ∧
        result = feedAll handler user (callsOf (Context.init.along lines)) := by
  constructor
  · have hself := linesIn_eq_along true Context.init (texts ++ lastLine last)
    rw [iniParseFile_of_accepts haccepts, iniCalls, malformedLines, linesIn_fileLines htexts hlast,
      Prod.mk.injEq, Int.natCast_eq_zero, head?_malformedFrom_eq_zero_iff]
    rintro ⟨hok, rfl⟩
    have hwritten := (linesIn_eq_along_iff (terminator_of_mem htexts hlast) fun _ => rfl).mp
      ⟨hself, hok⟩
    exact ⟨_, hwritten, by rw [← hself]⟩
  · rintro ⟨lines, hwritten, rfl⟩
    exact iniParseFile_of_written haccepts htexts hlast hwritten user

/-! ## Writing a file -/

/-- A line in its plainest form. Source: `ini/gdevice.ini`. Kind: D -/
def writeLine : Line → List Char
  | .sectionLine name => '[' :: (name ++ [']'])
  | .entry name value => name ++ '=' :: value
  | _ => []

/-- The lines that have such a form. Source: `ini.c` `ini_parse_stream`. Kind: D -/
def Line.Writable : Line → Prop
  | .skip => True
  | .sectionLine name => name.length < maxSection ∧ ']' ∉ name ∧ CommentFree false name
  | .entry name value => Trimmed name ∧ EntryName name ∧ Trimmed value ∧ CommentFree false value
  | _ => False

theorem written_writeLine {line : Line} (h : line.Writable) (continues : Bool) :
    Written continues line (writeLine line) := by
  have hnone : Blank [] := by simp [Blank]
  have hindent : Indent continues [] := ⟨hnone, fun _ => rfl⟩
  cases line with
  | skip => exact .blank hnone
  | continuation value => exact h.elim
  | sectionLine name =>
      obtain ⟨hfits, hclosed, hfree⟩ := h
      have hwritten : Written continues (.sectionLine (strncpy0 name maxSection))
          ([] ++ '[' :: (name ++ [']'])) := .sectionLine hindent hclosed hfree
      rwa [strncpy0_eq_self hfits] at hwritten
  | entry name value =>
      obtain ⟨htrimmed, hname, hvalue, hfree⟩ := h
      have htail : WrittenValue value ([] ++ value ++ []) := .plain hnone hvalue hnone hfree
      have hwritten : Written continues (.entry name value)
          ([] ++ (name ++ [] ++ '=' :: ([] ++ value ++ []))) :=
        .entry hindent htrimmed hname hnone (fun _ => rfl) (by simp) htail
      simpa [writeLine] using hwritten
  | malformed => exact h.elim

theorem writtenLines_writeLine (hlines : ∀ line ∈ lines, line.Writable) {isFirst : Bool}
    (hmark : isFirst = true → ∀ line ∈ lines.head?, ¬ byteOrderMark <+: writeLine line)
    (ctx : Context) : WrittenLines isFirst ctx lines (lines.map writeLine) := by
  induction lines generalizing isFirst ctx with
  | nil => exact .nil isFirst ctx
  | cons line lines ih =>
      have hline := written_writeLine (hlines line List.mem_cons_self)
      have hlater : ∀ line' ∈ lines, line'.Writable := fun line' h =>
        hlines line' (List.mem_cons_of_mem _ h)
      exact .cons (.plain (fun h => hmark h line rfl) (hline _)) (ih hlater (by simp) _)

/-- **What is written is parsed**: the handler gets the entries of the lines, and there is no error.
Source: `ini.c` `ini_parse_file`
Kind: P -/
theorem iniParseFile_writeLine (haccepts : ∀ user c, (handler user c).2 = true)
    (hlines : ∀ line ∈ lines, line.Writable)
    (hfits : ∀ line ∈ lines, FileLine (writeLine line))
    (hmark : ∀ line ∈ lines.head?, ¬ byteOrderMark <+: writeLine line) (user : σ) :
    iniParseFile (fileText (lines.map writeLine)) handler user =
      (0, feedAll handler user (callsOf (Context.init.along lines))) := by
  have htexts : ∀ text ∈ lines.map writeLine, FileLine text := by
    intro text htext
    obtain ⟨line, hline, rfl⟩ := List.mem_map.mp htext
    exact hfits line hline
  have hlast : LastLine [] := ⟨by simp, by simp, by decide⟩
  have hwritten : WrittenLines true Context.init lines (lines.map writeLine ++ lastLine []) := by
    rw [show lastLine [] = [] from rfl, List.append_nil]
    exact writtenLines_writeLine hlines (fun _ => hmark) Context.init
  have hparse := iniParseFile_of_written haccepts htexts hlast hwritten user
  rwa [List.append_nil] at hparse

/-- The handler that notes every entry. Source: none: infrastructure. Kind: D -/
def collect : IniHandler (List IniCall) := fun calls c => (calls ++ [c], true)

/-- A file with a byte order mark, an indented continuation and no last line end:
`iniParseFile_eq_iff` at concrete lines. -/
theorem iniParseFile_lock :
    iniParseFile (fileText [byteOrderMark ++ "[lock]".toList, "key=0x44".toList] ++ "  7 ; 8".toList)
        collect [] =
      (0, [⟨"lock", "key", "0x44"⟩, ⟨"lock", "key", "7 ; 8"⟩]) := by
  have hsection : Line.Writable (.sectionLine "lock".toList) := ⟨by decide, by decide, by decide⟩
  have hentry : Line.Writable (.entry "key".toList "0x44".toList) := by
    refine ⟨⟨?_, ?_⟩, ⟨?_, ?_, by decide⟩, ⟨?_, ?_⟩, by decide⟩ <;>
      simp [isSpace, EntryHead, iniStartCommentPrefixes]
  have hcontinuation : Written true (.continuation "7 ; 8".toList)
      ("  ".toList ++ ("7 ; 8".toList ++ [])) := by
    refine .continuation rfl ?_ (by decide) ⟨?_, ?_⟩ (by decide) ?_ ?_ <;>
      simp [Blank, isSpace, iniStartCommentPrefixes]
  have htexts : ∀ text ∈ [byteOrderMark ++ "[lock]".toList, "key=0x44".toList], FileLine text := by
    intro text htext
    rcases List.mem_pair.mp htext with rfl | rfl
    · exact ⟨by decide, by decide, by decide⟩
    · exact ⟨by decide, by decide, by decide⟩
  have hlast : LastLine "  7 ; 8".toList := ⟨by decide, by decide, by decide⟩
  exact (iniParseFile_eq_iff (fun _ _ => rfl) htexts hlast [] _).mpr
    ⟨[.sectionLine "lock".toList, .entry "key".toList "0x44".toList, .continuation "7 ; 8".toList],
      .cons (.marked rfl (written_writeLine hsection _))
        (.cons (.plain (by simp) (written_writeLine hentry _))
          (.cons (.plain (by simp) hcontinuation) (.nil _ _))), by decide⟩

theorem along_append (ctx : Context) (lines more : List Line) :
    ctx.along (lines ++ more) = ctx.along lines ++ (lines.foldl Context.next ctx).along more := by
  induction lines generalizing ctx with
  | nil => rfl
  | cons line lines ih => rw [List.cons_append, Context.along, Context.along, ih]; rfl

/-! ## Comments put in later -/

end SmartHome.Ini
