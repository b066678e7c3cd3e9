import SmartHome.Device.IniHandler
import SmartHome.Found.Chunks
import SmartHome.Ini.Text

/-!
# Reading a configuration file: `ini.h`, `ini.c`

`iniParseStream` reads a stream line by line into a buffer of `ini_max_line` bytes and calls the
handler for the `name=value` entries, with the section they stand in. What it does with a line has
two parts. `recognise` says what the line is, which depends on the line, on whether it is the
first (a byte order mark), and on whether a value may be continued. `IniState.advance` does what
the line asks for. The parser remembers the section, the name of the last entry, the number of the
line, and the number of the first line with an error; it does not stop at an error.

The settings are the defaults of `ini.h`, which no code assigns: continuation lines, byte order
marks and inline comments are allowed; entries without a value are not; the handler is not called
for section lines; the line buffer is on the stack.

`iniParseFile` reads with `fgets`, `iniParseString` with the reader of `ini.c`;
`iniParseString_eq_iniParseFile` says that the two agree, since the reader of `ini.c` is an `fgets`.
-/

set_option autoImplicit false

namespace SmartHome.Ini

open SmartHome.Device SmartHome.Found

/-! ## Readers -/

/-- `ini_max_line`. Source: `ini.h` `INI_MAX_LINE`. Kind: D -/
def iniMaxLine : ℕ := 200

/-- `MAX_SECTION`. Source: `ini.c`. Kind: D -/
def maxSection : ℕ := 50

/-- `MAX_NAME`. Source: `ini.c`. Kind: D -/
def maxName : ℕ := 50

/-- The character after which a read stops. Source: `ini.c` `ini_reader_string`. Kind: D -/
def isNewline (c : Char) : Bool := c = '\n'

/-- A reader: for the size of the buffer and a stream, what is read and what is left, or `NULL`.
Source: `ini.h` `ini_reader`
Kind: D -/
abbrev IniReader := ℕ → List Char → Option (List Char × List Char)

/-- `fgets`: reads at most `num - 1` characters, none past a newline; `NULL` at the end of the file.
Source: `ini.c` `ini_parse_file`, which passes it on
Kind: D -/
def fgets : IniReader := fun num stream =>
  if stream = [] then none else some (chunk isNewline (num - 1) stream)

/-- The loop of `ini_reader_string`, which copies until a newline or until `num` is down to `1`.
Source: `ini.c` `ini_reader_string`
Kind: D -/
def readerLoop : ℕ → List Char → List Char × List Char
  | num + 2, c :: ctx =>
      if c = '\n' then ([c], ctx)
      else (c :: (readerLoop (num + 1) ctx).1, (readerLoop (num + 1) ctx).2)
  | _, ctx => ([], ctx)

/-- The reader of `ini_parse_string`. Source: `ini.c` `ini_reader_string`. Kind: D -/
def iniReaderString : IniReader := fun num ctx =>
  if ctx = [] ∨ num < 2 then none else some (readerLoop num ctx)

theorem readerLoop_eq_chunk (num : ℕ) (ctx : List Char) :
    readerLoop (num + 1) ctx = chunk isNewline num ctx := by
  induction ctx generalizing num with
  | nil => cases num <;> rfl
  | cons c cs ih =>
      cases num with
      | zero => rfl
      | succ num =>
          rw [readerLoop, chunk, ih num]
          by_cases hc : c = '\n' <;> simp [isNewline, hc]

/-- **The reader of `ini.c` is an `fgets`.** Source: `ini.c` `ini_reader_string`. Kind: P -/
theorem iniReaderString_eq_fgets {num : ℕ} (h : 2 ≤ num) (ctx : List Char) :
    iniReaderString num ctx = fgets num ctx := by
  obtain ⟨num, rfl⟩ := Nat.exists_eq_add_of_le h
  have hnum : ¬ 2 + num < 2 := by omega
  simp only [iniReaderString, fgets, hnum, or_false]
  split_ifs
  · rfl
  · rw [show 2 + num = (num + 1) + 1 by omega, readerLoop_eq_chunk]
    rfl

/-- The reads of a whole file. Source: none: the meaning of a file. Kind: D -/
def fileLines (text : List Char) : List (List Char) := chunks isNewline (iniMaxLine - 1) text

/-! ## What a line is -/

/-- The kinds of lines.
Source: `ini.c` `ini_parse_stream`
Kind: D -/
inductive Line where
  /-- Blank, or a comment. -/
  | skip
  /-- More of the value of the entry before. -/
  | continuation (value : List Char)
  | sectionLine (name : List Char)
  | entry (name value : List Char)
  | malformed
deriving DecidableEq, Repr

/-- The UTF-8 byte order mark. Source: `ini.c` `ini_parse_stream`. Kind: D -/
def byteOrderMark : List Char := ['\xEF', '\xBB', '\xBF']

/-- A `[section]` line, from behind its `[`.
Source: `ini.c` `ini_parse_stream`
Kind: D -/
def recogniseSection (start : List Char) : Line :=
  let found := findCharsOrComment [']'] start
  if found.2.head? = some ']' then .sectionLine (strncpy0 found.1 maxSection) else .malformed

/-- A line that is no comment, no continuation and no section line: it must be an entry.
Source: `ini.c` `ini_parse_stream`
Kind: D -/
def recogniseEntry (start : List Char) : Line :=
  let found := findCharsOrComment ['=', ':'] start
  match found.2 with
  | [] => .malformed
  | c :: value =>
      if c = '=' ∨ c = ':' then
        .entry (rstrip found.1) (rstrip (lskip (findCharsOrComment [] value).1))
      else .malformed

/-- What a line is. `isFirst` is `lineno == 1`, `continues` is `*prev_name != '\0'`. An empty line
takes the branch of the comments, since `strchr` finds the terminator of its string; a line is
indented when `start > line`, which a byte order mark does too.
Source: `ini.c` `ini_parse_stream`
Kind: D -/
def recognise (isFirst continues : Bool) (line : List Char) : Line :=
  let bom := isFirst && line.take 3 == byteOrderMark
  let stripped := rstrip (if bom then line.drop 3 else line)
  match lskip stripped with
  | [] => .skip
  | c :: rest =>
      if c ∈ iniStartCommentPrefixes then .skip
      else if continues && (bom || decide ((c :: rest).length < stripped.length)) then
        .continuation (c :: rest)
      else if c = '[' then recogniseSection rest
      else recogniseEntry (c :: rest)

/-! ## The parser -/

/-- A handler, which returns zero (`false`) for an entry it refuses.
Source: `ini.h` `ini_handler`
Kind: D -/
abbrev IniHandler (σ : Type*) := σ → IniCall → σ × Bool

/-- The variables of the parser, and what the handler works on.
Source: `ini.c` `ini_parse_stream`
Kind: D -/
structure IniState (σ : Type*) where
  sectionName : List Char
  prevName : List Char
  lineno : ℕ
  error : ℕ
  user : σ

variable {σ : Type*}

/-- Before the first line. Source: `ini.c` `ini_parse_stream`. Kind: D -/
def IniState.init (user : σ) : IniState σ := ⟨[], [], 0, 0, user⟩

/-- `if (!error) error = lineno`. Source: `ini.c` `ini_parse_stream`. Kind: D -/
def IniState.fail (s : IniState σ) : IniState σ :=
  { s with error := if s.error = 0 then s.lineno else s.error }

/-- The call the handler gets. Source: `ini.c` `ini_parse_stream`. Kind: D -/
def iniCall (sectionName name value : List Char) : IniCall :=
  ⟨String.ofList sectionName, String.ofList name, String.ofList value⟩

/-- `if (!HANDLER(user, section, name, value) && !error) error = lineno`.
Source: `ini.c` `ini_parse_stream`
Kind: D -/
def IniState.call (handler : IniHandler σ) (name value : List Char) (s : IniState σ) : IniState σ :=
  let r := handler s.user (iniCall s.sectionName name value)
  let s := { s with user := r.1 }
  if r.2 then s else s.fail

/-- What the line asks for.
Source: `ini.c` `ini_parse_stream`
Kind: D -/
def IniState.advance (handler : IniHandler σ) (s : IniState σ) : Line → IniState σ
  | .skip => s
  | .continuation value => s.call handler s.prevName value
  | .sectionLine name => { s with sectionName := name, prevName := [] }
  | .entry name value => { s with prevName := strncpy0 name maxName }.call handler name value
  | .malformed => s.fail

/-- One line.
Source: `ini.c` `ini_parse_stream`, the body of the loop
Kind: D -/
def parseLine (handler : IniHandler σ) (s : IniState σ) (line : List Char) : IniState σ :=
  let s := { s with lineno := s.lineno + 1 }
  s.advance handler (recognise (s.lineno = 1) (s.prevName ≠ []) (cstr line))

/-- The loop, for at most `fuel` lines.
Source: `ini.c` `ini_parse_stream`
Kind: D -/
def iniParseStream (reader : IniReader) (handler : IniHandler σ) :
    ℕ → List Char → IniState σ → IniState σ
  | 0, _, s => s
  | fuel + 1, stream, s =>
      match reader iniMaxLine stream with
      | none => s
      | some (line, rest) => iniParseStream reader handler fuel rest (parseLine handler s line)

/-- `ini_parse_file`: the number of the first line with an error, and the handler's work. A line takes
a character at least, so the length of the text is enough fuel.
Source: `ini.c` `ini_parse_file`
Kind: D -/
def iniParseFile (text : List Char) (handler : IniHandler σ) (user : σ) : ℤ × σ :=
  let s := iniParseStream fgets handler text.length text (IniState.init user)
  (s.error, s.user)

/-- `ini_parse_string`.
Source: `ini.c` `ini_parse_string`
Kind: D -/
def iniParseString (string : List Char) (handler : IniHandler σ) (user : σ) : ℤ × σ :=
  let ctx := cstr string
  let s := iniParseStream iniReaderString handler ctx.length ctx (IniState.init user)
  (s.error, s.user)

/-- `ini_parse`; `none` is a file that cannot be opened.
Source: `ini.c` `ini_parse`
Kind: D -/
def iniParse (file : Option (List Char)) (handler : IniHandler σ) (user : σ) : ℤ × σ :=
  match file with
  | none => (-1, user)
  | some text => iniParseFile text handler user

/-! ## The loop runs over the lines -/

variable {handler : IniHandler σ}

/-- **The loop ends at the end of the stream**, having taken its lines one after the other: any fuel of
at least the length of the stream gives the same.
Source: `ini.c` `ini_parse_stream`
Kind: P -/
theorem iniParseStream_fgets {fuel : ℕ} {stream : List Char} (h : stream.length ≤ fuel)
    (s : IniState σ) :
    iniParseStream fgets handler fuel stream s = (fileLines stream).foldl (parseLine handler) s := by
  induction fuel generalizing stream s with
  | zero =>
      obtain rfl : stream = [] := List.length_eq_zero_iff.mp (by omega)
      simp [iniParseStream, fileLines]
  | succ fuel ih =>
      have hroom : 0 < iniMaxLine - 1 := by decide
      by_cases hne : stream = []
      · simp [iniParseStream, fgets, fileLines, hne]
      · have hlt := length_chunk_snd_lt isNewline hroom hne
        rw [iniParseStream, fgets, if_neg hne]
        dsimp only
        rw [ih (by omega), fileLines, fileLines, chunks_of_ne_nil isNewline hroom hne,
          List.foldl_cons]

theorem iniParseStream_congr {reader : IniReader}
    (h : ∀ stream, reader iniMaxLine stream = fgets iniMaxLine stream) (fuel : ℕ)
    (stream : List Char) (s : IniState σ) :
    iniParseStream reader handler fuel stream s = iniParseStream fgets handler fuel stream s := by
  induction fuel generalizing stream s with
  | zero => rfl
  | succ fuel ih =>
      rw [iniParseStream, iniParseStream, h]
      cases fgets iniMaxLine stream with
      | none => rfl
      | some x => exact ih x.2 _

/-- **Parsing a string is parsing a file with that content**, up to the terminator.
Source: `ini.c` `ini_parse_string`, `ini_parse_file`
Kind: P -/
theorem iniParseString_eq_iniParseFile (string : List Char) (handler : IniHandler σ) (user : σ) :
    iniParseString string handler user = iniParseFile (cstr string) handler user := by
  have hreader : ∀ stream, iniReaderString iniMaxLine stream = fgets iniMaxLine stream :=
    iniReaderString_eq_fgets (by decide)
  rw [iniParseString, iniParseFile, iniParseStream_congr hreader]

end SmartHome.Ini
