import SmartHome.Ini.Parse

/-!
# What a configuration file says

The entries of a file and its malformed lines depend on its text alone: `linesIn` goes through the
lines with the section and the name that a continuation line would repeat (`Context`), and
`iniCalls` and `malformedLines` read the result off.

`iniParse_spec` says that this is all the parser does, for any handler: the handler gets the
entries in order, whatever it answers, and the number returned is that of the first line that is
malformed or refused, or `0`.
-/

set_option autoImplicit false

namespace SmartHome.Ini

open SmartHome.Device SmartHome.Found

/-! ## Lines in their context -/

/-- What the parser carries from line to line.
Source: `ini.c` `ini_parse_stream`
Kind: D -/
structure Context where
  sectionName : List Char
  prevName : List Char
deriving DecidableEq, Repr

/-- Before the first line. Source: `ini.c` `ini_parse_stream`. Kind: D -/
def Context.init : Context := ⟨[], []⟩

/-- The context behind a line. Source: `ini.c` `ini_parse_stream`. Kind: D -/
def Context.next (ctx : Context) : Line → Context
  | .sectionLine name => ⟨name, []⟩
  | .entry name _ => { ctx with prevName := strncpy0 name maxName }
  | _ => ctx

/-- The call made for a line. Source: `ini.c` `ini_parse_stream`. Kind: D -/
def Context.call (ctx : Context) : Line → Option IniCall
  | .continuation value => some (iniCall ctx.sectionName ctx.prevName value)
  | .entry name value => some (iniCall ctx.sectionName name value)
  | _ => none

/-- The line in its context. Source: `ini.c` `ini_parse_stream`. Kind: D -/
def Context.line (ctx : Context) (isFirst : Bool) (line : List Char) : Line :=
  recognise isFirst (ctx.prevName ≠ []) (cstr line)

/-- The lines with the contexts they stand in.
Source: none: the meaning of a file. Kind: D -/
def linesIn (isFirst : Bool) (ctx : Context) : List (List Char) → List (Context × Line)
  | [] => []
  | line :: lines =>
      (ctx, ctx.line isFirst line) :: linesIn false (ctx.next (ctx.line isFirst line)) lines

/-- The context behind the lines. Source: none: the meaning of a file. Kind: D -/
def contextAfter (isFirst : Bool) (ctx : Context) : List (List Char) → Context
  | [] => ctx
  | line :: lines => contextAfter false (ctx.next (ctx.line isFirst line)) lines

/-- The calls for the lines. Source: none: the meaning of a file. Kind: D -/
def callsOf (lines : List (Context × Line)) : List IniCall := lines.filterMap fun x => x.1.call x.2

/-- The numbers of the malformed lines, the first line having number `n`.
Source: none: the meaning of a file. Kind: D -/
def malformedFrom (n : ℕ) : List (Context × Line) → List ℕ
  | [] => []
  | x :: lines => (if x.2 = .malformed then [n] else []) ++ malformedFrom (n + 1) lines

/-- The entries of a file, in order. Source: none: the meaning of a file. Kind: D -/
def iniCalls (text : List Char) : List IniCall :=
  callsOf (linesIn true Context.init (fileLines text))

/-- The numbers of the malformed lines of a file.
Source: none: the meaning of a file. Kind: D -/
def malformedLines (text : List Char) : List ℕ :=
  malformedFrom 1 (linesIn true Context.init (fileLines text))

theorem callsOf_cons (ctx : Context) (line : Line) (lines : List (Context × Line)) :
    callsOf ((ctx, line) :: lines) = (ctx.call line).toList ++ callsOf lines := by
  rw [callsOf, List.filterMap_cons]
  cases ctx.call line <;> rfl

@[simp] theorem callsOf_append (lines more : List (Context × Line)) :
    callsOf (lines ++ more) = callsOf lines ++ callsOf more := List.filterMap_append ..

/-! ## The parser carries it out -/

variable {σ : Type*} (handler : IniHandler σ)

/-- What the handler makes of a line: nothing is refused where it is not called.
Source: `ini.c` `ini_parse_stream`
Kind: D -/
def feed (user : σ) : Option IniCall → σ × Bool
  | none => (user, true)
  | some c => handler user c

/-- The handler's work on a list of calls. Source: none: infrastructure. Kind: D -/
def feedAll (user : σ) (calls : List IniCall) : σ :=
  calls.foldl (fun user c => (handler user c).1) user

/-- The number of the first line that is malformed or that the handler refuses, the first line
having number `n`; `0` if there is none.
Source: none: the meaning of a file. Kind: D -/
def firstFault (user : σ) (n : ℕ) : List (Context × Line) → ℕ
  | [] => 0
  | x :: lines =>
      if x.2 = .malformed ∨ (feed handler user (x.1.call x.2)).2 = false then n
      else firstFault (feed handler user (x.1.call x.2)).1 (n + 1) lines

/-- The state of the parser from the context, the counters and the handler's work.
Source: none: infrastructure. Kind: D -/
def IniState.at (ctx : Context) (lineno error : ℕ) (user : σ) : IniState σ :=
  ⟨ctx.sectionName, ctx.prevName, lineno, error, user⟩

/-- One line. Source: `ini.c` `ini_parse_stream`. Kind: L -/
theorem parseLine_at (ctx : Context) (lineno error : ℕ) (user : σ) (line : List Char) :
    parseLine handler (IniState.at ctx lineno error user) line =
      IniState.at (ctx.next (ctx.line (lineno + 1 = 1) line)) (lineno + 1)
        (if error = 0 ∧ (ctx.line (lineno + 1 = 1) line = .malformed ∨
            (feed handler user (ctx.call (ctx.line (lineno + 1 = 1) line))).2 = false)
          then lineno + 1 else error)
        (feed handler user (ctx.call (ctx.line (lineno + 1 = 1) line))).1 := by
  have hline : parseLine handler (IniState.at ctx lineno error user) line =
      (IniState.at ctx (lineno + 1) error user).advance handler
        (ctx.line (lineno + 1 = 1) line) := rfl
  rw [hline]
  cases ctx.line (decide (lineno + 1 = 1)) line with
  | skip => simp [IniState.at, IniState.advance, Context.next, Context.call, feed]
  | continuation value =>
      cases haccept : (handler user (iniCall ctx.sectionName ctx.prevName value)).2 <;>
        by_cases herror : error = 0 <;>
        simp [IniState.at, IniState.advance, IniState.call, IniState.fail, Context.next,
          Context.call, feed, haccept, herror]
  | sectionLine name => simp [IniState.at, IniState.advance, Context.next, Context.call, feed]
  | entry name value =>
      cases haccept : (handler user (iniCall ctx.sectionName name value)).2 <;>
        by_cases herror : error = 0 <;>
        simp [IniState.at, IniState.advance, IniState.call, IniState.fail, Context.next,
          Context.call, feed, haccept, herror]
  | malformed =>
      by_cases herror : error = 0 <;>
        simp [IniState.at, IniState.advance, IniState.fail, Context.next, Context.call, feed, herror]

theorem feedAll_toList_append (user : σ) (call : Option IniCall) (calls : List IniCall) :
    feedAll handler user (call.toList ++ calls) =
      feedAll handler (feed handler user call).1 calls := by
  cases call <;> rfl

/-- **All lines**: the handler gets the calls, and the first fault is reported, unless an error was
before.
Source: `ini.c` `ini_parse_stream`
Kind: L -/
theorem foldl_parseLine (lines : List (List Char)) (ctx : Context) (lineno error : ℕ) (user : σ) :
    lines.foldl (parseLine handler) (IniState.at ctx lineno error user) =
      IniState.at (contextAfter (lineno = 0) ctx lines) (lineno + lines.length)
        (if error = 0 then firstFault handler user (lineno + 1) (linesIn (lineno = 0) ctx lines)
          else error)
        (feedAll handler user (callsOf (linesIn (lineno = 0) ctx lines))) := by
  induction lines generalizing ctx lineno error user with
  | nil => by_cases herror : error = 0 <;> simp [contextAfter, linesIn, firstFault, herror] <;> rfl
  | cons line lines ih =>
      have hlater : decide (lineno + 1 = 0) = false := by simp
      have hfirst : decide (lineno + 1 = 1) = decide (lineno = 0) := by simp
      rw [List.foldl_cons, parseLine_at, ih, hlater, hfirst, contextAfter, linesIn,
        List.length_cons, Nat.add_right_comm, Nat.add_assoc, callsOf_cons, feedAll_toList_append,
        firstFault]
      congr 1
      by_cases herror : error = 0
      · split_ifs <;> simp_all
      · simp [herror]

/-- What parsing a file amounts to. Source: `ini.c` `ini_parse_file`, `ini_parse_stream`. Kind: L -/
theorem iniParseFile_eq (text : List Char) (user : σ) :
    iniParseFile text handler user =
      ((firstFault handler user 1 (linesIn true Context.init (fileLines text)) : ℤ),
        feedAll handler user (iniCalls text)) := by
  have hrun := foldl_parseLine handler (fileLines text) Context.init 0 0 user
  have hinit : IniState.init user = IniState.at Context.init 0 0 user := rfl
  rw [iniParseFile, iniParseStream_fgets le_rfl, hinit, hrun]
  rfl

/-- **What parsing amounts to**, for any handler: it gets the entries in order, whatever it answers, and
the result is the number of the first line that is malformed or refused, or `0`. An error stops
nothing, a file that cannot be opened gives `-1` and no entry, and a string is parsed as the file
with that content.
Source: `ini.c` `ini_parse`, `ini_parse_file`, `ini_parse_string`, `ini_reader_string`
Kind: P -/
theorem iniParse_spec (text : List Char) (user : σ) :
    iniParse (some text) handler user =
        ((firstFault handler user 1 (linesIn true Context.init (fileLines text)) : ℤ),
          feedAll handler user (iniCalls text)) ∧
      iniParseString text handler user = iniParse (some (cstr text)) handler user ∧
      iniParse none handler user = (-1, user) :=
  ⟨iniParseFile_eq handler text user, iniParseString_eq_iniParseFile text handler user, rfl⟩

variable {handler}

/-- Nothing refused, the faults are the malformed lines. Source: `ini.c` `ini_parse_stream`.
Kind: L -/
theorem firstFault_of_accepts (haccepts : ∀ user c, (handler user c).2 = true) (user : σ) (n : ℕ)
    (lines : List (Context × Line)) :
    firstFault handler user n lines = (malformedFrom n lines).head?.getD 0 := by
  induction lines generalizing user n with
  | nil => rfl
  | cons x lines ih =>
      have haccept : (feed handler user (x.1.call x.2)).2 = true := by
        cases x.1.call x.2 with
        | none => rfl
        | some c => exact haccepts user c
      rw [firstFault, malformedFrom, haccept, ih]
      by_cases hx : x.2 = .malformed <;> simp [hx]

theorem iniParseFile_of_accepts (haccepts : ∀ user c, (handler user c).2 = true) (text : List Char)
    (user : σ) :
    iniParseFile text handler user =
      ((((malformedLines text).head?.getD 0 : ℕ) : ℤ), feedAll handler user (iniCalls text)) := by
  rw [iniParseFile_eq, firstFault_of_accepts haccepts]
  rfl

end SmartHome.Ini
