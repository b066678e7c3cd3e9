import Mathlib.Data.List.Chain
import SmartHome.Device.ConfigurationOrder
import SmartHome.Device.Print
import SmartHome.Ini.Document
import SmartHome.Ini.HandedOn

/-!
# The device file: `receive_init`

`receiveInit` reads the device file with `gdevice_ini_handler`, which accepts every entry. So
nothing in a file makes it fail, and the table is that of the entries (`receiveInit_some`).

Which tables can the hub start with? Those with short section names, `int` values, modes and
states of `0` or `1`, and no two neighbours of one name: `exists_receiveInit_iff`. That there are
no others comes from what the parser hands on (`configurable_receiveInit`), and that all of these
can be had from `writeTable`, the file that lists a table as the file in the repository does
(`receiveInit_writeTable`).
-/

set_option autoImplicit false

namespace SmartHome.Device

open SmartHome.Found SmartHome.Ini

/-! ## Reading -/

/-- The handler, which returns `1` for every entry.
Source: `receive_interface.c` `gdevice_ini_handler`
Kind: D -/
def gdeviceHandler : IniHandler (List Gdevice) := fun pdevhead c => (gdeviceIniHandler pdevhead c, true)

/-- What `receive_init` leaves: its result, the table, the display, and whether the face recognition
was set up.
Source: `receive_interface.c` `receive_init`
Kind: D -/
structure ReceiveInit where
  ret : ℤ
  pdevhead : List Gdevice
  oledFd : ℤ
  faceInit : Bool
deriving DecidableEq, Repr

/-- `receive_init`: the content of the device file, or `none` if it cannot be opened, and the result
of `myoled_init`.
Source: `receive_interface.c` `receive_init`
Kind: D -/
def receiveInit (file : Option (List Char)) (myoledInit : ℤ) : ReceiveInit :=
  let r := iniParse file gdeviceHandler []
  if r.1 < 0 then ⟨-1, r.2, -1, false⟩ else ⟨myoledInit, r.2, myoledInit, true⟩

theorem accepts_gdeviceHandler (pdevhead : List Gdevice) (c : IniCall) :
    (gdeviceHandler pdevhead c).2 = true := rfl

theorem feedAll_gdeviceHandler (calls : List IniCall) :
    feedAll gdeviceHandler [] calls = gdeviceTable calls := rfl

/-- **Nothing in a file makes `receive_init` fail**; the table is that of the entries, whatever
lines are malformed.
Source: `receive_interface.c` `receive_init`, `ini.c` `ini_parse`
Kind: P -/
theorem receiveInit_some (text : List Char) (myoledInit : ℤ) :
    receiveInit (some text) myoledInit =
      ⟨myoledInit, gdeviceTable (iniCalls text), myoledInit, true⟩ := by
  have hparse := iniParseFile_of_accepts accepts_gdeviceHandler text []
  have hnot : ¬ (((malformedLines text).head?.getD 0 : ℕ) : ℤ) < 0 := by omega
  simp only [receiveInit, iniParse, hparse, hnot, if_false, feedAll_gdeviceHandler]

/-- Without a file there is no display, no face recognition and no device.
Source: `receive_interface.c` `receive_init`, `ini.c` `ini_parse`
Kind: L -/
theorem receiveInit_none (myoledInit : ℤ) : receiveInit none myoledInit = ⟨-1, [], -1, false⟩ := rfl

/-! ## Writing -/

/-- The fields, in the order of the file. Source: `ini/gdevice.ini`. Kind: D -/
def Field.all : List Field :=
  [.key, .gpioPin, .gpioMode, .gpioStatus, .checkFaceStatus, .voiceSetStatus]

/-- A value of a field, as in the file. Source: `ini/gdevice.ini`. Kind: D -/
def Field.write : Field → ℤ → String
  | .key, v => "0x" ++ printX v
  | .gpioMode, v => if v = output then "OUTPUT" else "INPUT"
  | .gpioStatus, v => if v = high then "HIGH" else "LOW"
  | _, v => printD v

/-- The section of a device. Source: `ini/gdevice.ini`. Kind: D -/
def Gdevice.toSection (g : Gdevice) : Section :=
  ⟨g.devName, Field.all.map fun f => (f.name, f.write (g.get f))⟩

/-- The lines of a section. Source: `ini/gdevice.ini`. Kind: D -/
def Section.lines (s : Section) : List Line :=
  .sectionLine s.name.toList :: s.entries.map fun e => .entry e.1.toList e.2.toList

/-- The lines of a file, with a blank line between the sections. Source: `ini/gdevice.ini`. Kind: D -/
def sectionLines : List Section → List Line
  | [] => []
  | [s] => s.lines
  | s :: sections => s.lines ++ .skip :: sectionLines sections

/-- The file that lists a table. The last section is the one at the head.
Source: `ini/gdevice.ini`
Kind: D -/
def writeTable (pdevhead : List Gdevice) : List Char :=
  fileText ((sectionLines (pdevhead.reverse.map Gdevice.toSection)).map writeLine)

/-- The entries of a section are handed on with its name.
Source: `ini.c` `ini_parse_stream`
Kind: L -/
theorem callsOf_along_entries (ctx : Context) (entries : List (String × String)) :
    callsOf (ctx.along (entries.map fun e => .entry e.1.toList e.2.toList)) =
      entries.map fun e => ⟨String.ofList ctx.sectionName, e.1, e.2⟩ := by
  induction entries generalizing ctx with
  | nil => rfl
  | cons e entries ih =>
      rw [List.map_cons, Context.along, callsOf_cons, ih, List.map_cons]
      simp [Context.call, Context.next, iniCall]

theorem callsOf_along_lines (ctx : Context) (s : Section) : callsOf (ctx.along s.lines) = s.calls := by
  rw [Section.lines, Context.along, callsOf_cons, callsOf_along_entries]
  simp [Context.call, Context.next, Section.calls]

theorem callsOf_along_sectionLines (ctx : Context) (sections : List Section) :
    callsOf (ctx.along (sectionLines sections)) = configuration sections := by
  induction sections generalizing ctx with
  | nil => rfl
  | cons s sections ih =>
      cases sections with
      | nil => simp [sectionLines, callsOf_along_lines, configuration]
      | cons s' sections =>
          rw [sectionLines, along_append, callsOf_append, callsOf_along_lines, Context.along,
            callsOf_cons, ih]
          · simp [Context.call, configuration]
          · simp

/-! ## The tables that can be had -/

/-- The values a field can have.
Source: `receive_interface.c` `gdevice_ini_handler`
Kind: D -/
def Field.Holds : Field → ℤ → Prop
  | .gpioMode, v => v = output ∨ v = input
  | .gpioStatus, v => v = high ∨ v = low
  | _, v => InInt32 v

/-- A record the device file can describe.
Source: `receive_interface.c` `gdevice_ini_handler`
Kind: D -/
structure ConfigurableRecord (g : Gdevice) : Prop where
  devName : SectionText g.devName.toList
  fields : ∀ f : Field, f.Holds (g.get f)

/-- A table the device file can describe: two neighbours of one name would be one record.
Source: `receive_interface.c` `gdevice_ini_handler`
Kind: D -/
structure Configurable (pdevhead : List Gdevice) : Prop where
  records : ∀ g ∈ pdevhead, ConfigurableRecord g
  apart : (pdevhead.map Gdevice.devName).IsChain (· ≠ ·)

theorem Field.holds_zero (f : Field) : f.Holds 0 := by
  cases f <;> simp [Field.Holds, InInt32, output, input, high, low]

/-- What is read is such a value. Source: `receive_interface.c` `gdevice_ini_handler`. Kind: L -/
theorem Field.holds_of_read {f : Field} {value : String} {v : ℤ} (h : f.read value = some v) :
    f.Holds v := by
  have hint : ∀ n : Option ℤ, n.map toInt32 = some v → InInt32 v := by
    intro n hn
    obtain ⟨m, -, rfl⟩ := Option.map_eq_some_iff.mp hn
    exact inInt32_toInt32 m
  cases f with
  | key => exact hint _ h
  | gpioPin => exact hint _ h
  | gpioMode =>
      simp only [Field.read] at h
      split_ifs at h with hout hin
      · exact Or.inl (Option.some.inj h).symm
      · exact Or.inr (Option.some.inj h).symm
  | gpioStatus =>
      simp only [Field.read] at h
      split_ifs at h with hhigh hlow
      · exact Or.inl (Option.some.inj h).symm
      · exact Or.inr (Option.some.inj h).symm
  | checkFaceStatus => exact Option.some.inj h ▸ inInt32_toInt32 _
  | voiceSetStatus => exact Option.some.inj h ▸ inInt32_toInt32 _

/-- **Every such value can be written.**
Source: `receive_interface.c` `gdevice_ini_handler`
Kind: L -/
theorem Field.read_write {f : Field} {v : ℤ} (h : f.Holds v) : f.read (f.write v) = some v := by
  cases f with
  | key => exact sscanfX_zerox h
  | gpioPin => exact sscanfD_printD h
  | gpioMode => rcases h with rfl | rfl <;> decide
  | gpioStatus => rcases h with rfl | rfl <;> decide
  | checkFaceStatus => exact congrArg some (atoi_printD h)
  | voiceSetStatus => exact congrArg some (atoi_printD h)

theorem setting_write {f f' : Field} {v : ℤ} (h : f'.Holds v) (sectionName : String) :
    setting f ⟨sectionName, f'.name, f'.write v⟩ = if f' = f then some v else none := by
  have hname : f'.name = f.name ↔ f' = f := by cases f <;> cases f' <;> decide
  simp only [setting, hname]
  split_ifs with hf
  · rw [← hf]
    exact Field.read_write h
  · rfl

/-- **The section of a record describes it.**
Source: `receive_interface.c` `gdevice_ini_handler`
Kind: L -/
theorem record_toSection {g : Gdevice} (h : ConfigurableRecord g) :
    record g.devName g.toSection.calls = g := by
  have hset : ∀ f f' : Field, setting f ⟨g.devName, f'.name, f'.write (g.get f')⟩ =
      if f' = f then some (g.get f') else none := fun f f' => setting_write (h.fields f') _
  apply Gdevice.ext_get
  · rfl
  · intro f
    rw [get_record]
    cases f <;> simp [Gdevice.toSection, Section.calls, Field.all, lastOf_cons, hset]

theorem gdeviceTable_concat_section {calls : List IniCall} {g : Gdevice} (h : ConfigurableRecord g)
    (hother : ∀ g' ∈ (gdeviceTable calls).head?, g'.devName ≠ g.devName) :
    gdeviceTable (calls ++ g.toSection.calls) = g :: gdeviceTable calls := by
  have hkeys : ∀ b ∈ (blocks IniCall.sectionName calls).head?, b.1 ≠ g.devName := by
    intro b hb
    obtain ⟨bs, hbs⟩ := List.head?_eq_some_iff.mp hb
    have hhead : record b.1 b.2 ∈ (gdeviceTable calls).head? := by
      rw [gdeviceTable_eq, hbs]
      rfl
    exact hother _ hhead
  rw [gdeviceTable_eq, gdeviceTable_eq, blocks_append_of_head_ne IniCall.sectionName
    (by simp [Section.calls, Gdevice.toSection, Field.all]) (fun c hc => sectionName_of_mem_calls hc)
    hkeys, List.map_cons]
  exact congrArg (· :: _) (record_toSection h)

/-- **The entries of a listed table describe the table.**
Source: `receive_interface.c` `gdevice_ini_handler`
Kind: L -/
theorem gdeviceTable_toSection {pdevhead : List Gdevice} (h : Configurable pdevhead) :
    gdeviceTable (configuration (pdevhead.reverse.map Gdevice.toSection)) = pdevhead := by
  induction pdevhead with
  | nil => rfl
  | cons g next ih =>
      have hrecords := List.forall_mem_cons.mp h.records
      have hapart := h.apart
      rw [List.map_cons, List.isChain_cons] at hapart
      have hnext := ih ⟨hrecords.2, hapart.2⟩
      have hsplit : configuration ((g :: next).reverse.map Gdevice.toSection) =
          configuration (next.reverse.map Gdevice.toSection) ++ g.toSection.calls := by
        simp [configuration]
      rw [hsplit, gdeviceTable_concat_section hrecords.1, hnext]
      intro g' hg'
      rw [hnext] at hg'
      have hname : g'.devName ∈ (next.map Gdevice.devName).head? := by
        rw [List.head?_map, Option.mem_def.mp hg']
        rfl
      exact (hapart.1 _ hname).symm

/-- **What the parser hands on describes such a table.**
Source: `receive_interface.c` `gdevice_ini_handler`, `ini.c` `ini_parse_stream`
Kind: L -/
theorem configurable_gdeviceTable {calls : List IniCall} (h : ∀ c ∈ calls, HandedOn c) :
    Configurable (gdeviceTable calls) := by
  constructor
  · intro g hg
    rw [gdeviceTable_eq] at hg
    obtain ⟨b, hb, rfl⟩ := List.mem_map.mp hg
    obtain ⟨hne, hkey⟩ := block_spec IniCall.sectionName hb
    obtain ⟨c, hc⟩ := List.exists_mem_of_ne_nil _ hne
    have hmem : c ∈ calls := by
      rw [← flatMap_blocks IniCall.sectionName calls]
      exact List.mem_flatMap.mpr ⟨b, List.mem_reverse.mpr hb, hc⟩
    refine ⟨by rw [devName_record, ← hkey c hc]; exact (h c hmem).sectionName, fun f => ?_⟩
    rw [get_record]
    cases hlast : lastOf (setting f) b.2 with
    | none => exact f.holds_zero
    | some v =>
        obtain ⟨c', -, hset⟩ := exists_mem_of_lastOf_eq_some _ hlast
        unfold setting at hset
        split_ifs at hset
        exact Field.holds_of_read hset
  · rw [map_devName_gdeviceTable]
    exact isChain_keys_blocks IniCall.sectionName calls

/-! ## The file is read back -/

theorem Plain.trimmed {s : List Char} (h : Plain s) : Trimmed s :=
  ⟨fun c hc => (h c (List.mem_of_head? hc)).1, fun c hc => (h c (List.mem_of_getLast? hc)).1⟩

theorem Plain.commentFree {s : List Char} (h : Plain s) : CommentFree false s := by
  induction s with
  | nil => trivial
  | cons c cs ih =>
      obtain ⟨hc, hcs⟩ := List.forall_mem_cons.mp h
      refine ⟨by simp, ?_⟩
      rw [hc.1]
      exact ih hcs

theorem Plain.oneLine {s : List Char} (h : Plain s) : OneLine s :=
  ⟨fun hc => absurd (h _ hc).1 (by decide), fun hc => (h _ hc).2 rfl⟩

/-- A written value is a short plain text. Source: `ini/gdevice.ini`. Kind: L -/
theorem plain_write {f : Field} {v : ℤ} (h : f.Holds v) :
    Plain (f.write v).toList ∧ (f.write v).toList.length ≤ 11 := by
  cases f with
  | key =>
      have hlen := length_printX v
      have hzerox : Plain "0x".toList := by simp [Plain, isSpace]
      simp only [Field.write, String.toList_append, List.length_append]
      exact ⟨hzerox.append (plain_printX v), by simp; omega⟩
  | gpioPin => exact ⟨plain_printD v, length_printD h⟩
  | gpioMode => rcases h with rfl | rfl <;> simp [Field.write, Plain, isSpace]
  | gpioStatus => rcases h with rfl | rfl <;> simp [Field.write, Plain, isSpace]
  | checkFaceStatus => exact ⟨plain_printD v, length_printD h⟩
  | voiceSetStatus => exact ⟨plain_printD v, length_printD h⟩

theorem plain_name (f : Field) : Plain f.name.toList ∧ f.name.toList.length ≤ 17 := by
  cases f <;> simp [Field.name, Plain, isSpace]

theorem entryName_name (f : Field) : EntryName f.name.toList := by
  refine ⟨?_, by cases f <;> simp [Field.name], (plain_name f).1.commentFree⟩
  intro c hc
  cases f <;>
    · obtain rfl := Option.some.inj hc
      exact ⟨by decide, by decide, by decide⟩

/-- The lines of a record can be written, and fit. Source: `ini/gdevice.ini`. Kind: L -/
theorem writable_of_mem_lines {g : Gdevice} (h : ConfigurableRecord g) {line : Line}
    (hline : line ∈ g.toSection.lines) : line.Writable ∧ FileLine (writeLine line) := by
  rcases List.mem_cons.mp hline with rfl | hline
  · obtain ⟨hfits, hclosed, hfree, hend, hterminator⟩ := h.devName
    have hroom : maxSection + 3 ≤ iniMaxLine := by decide
    refine ⟨⟨hfits, hclosed, hfree⟩, ?_, ?_, ?_⟩
    · simpa [writeLine, Gdevice.toSection] using hend
    · simpa [writeLine, Gdevice.toSection] using hterminator
    · simp only [writeLine, List.length_cons, List.length_append, List.length_nil,
        Gdevice.toSection]
      omega
  · obtain ⟨e, he, rfl⟩ := List.mem_map.mp hline
    obtain ⟨f, -, rfl⟩ := List.mem_map.mp he
    obtain ⟨hname, hnameLen⟩ := plain_name f
    obtain ⟨hvalue, hvalueLen⟩ := plain_write (h.fields f)
    have hroom : 17 + 11 + 3 ≤ iniMaxLine := by decide
    refine ⟨⟨hname.trimmed, entryName_name f, hvalue.trimmed, hvalue.commentFree⟩, ?_, ?_, ?_⟩
    · simp [writeLine, hname.oneLine.1, hvalue.oneLine.1]
    · simp [writeLine, hname.oneLine.2, hvalue.oneLine.2]
    · simp only [writeLine, List.length_cons, List.length_append]
      omega

theorem mem_sectionLines {sections : List Section} {line : Line}
    (hline : line ∈ sectionLines sections) : line = .skip ∨ ∃ s ∈ sections, line ∈ s.lines := by
  induction sections with
  | nil => simp [sectionLines] at hline
  | cons s sections ih =>
      cases sections with
      | nil => exact Or.inr ⟨s, List.mem_cons_self, hline⟩
      | cons s' sections =>
          rw [sectionLines, List.mem_append, List.mem_cons] at hline
          · rcases hline with hline | rfl | hline
            · exact Or.inr ⟨s, List.mem_cons_self, hline⟩
            · exact Or.inl rfl
            · rcases ih hline with h | ⟨t, ht, hmem⟩
              · exact Or.inl h
              · exact Or.inr ⟨t, List.mem_cons_of_mem _ ht, hmem⟩
          · simp

/-- A listed table starts with a section line. Source: `ini/gdevice.ini`. Kind: L -/
theorem head?_sectionLines {sections : List Section} {line : Line}
    (hline : line ∈ (sectionLines sections).head?) : ∃ name, line = .sectionLine name := by
  cases sections with
  | nil => simp [sectionLines] at hline
  | cons s sections =>
      refine ⟨s.name.toList, ?_⟩
      cases sections <;> simpa [sectionLines, Section.lines] using hline.symm

/-- **A listed table is read back**, with nothing lost and no error.
Source: `receive_interface.c` `receive_init`, `ini.c` `ini_parse`
Kind: P -/
theorem iniParse_writeTable {pdevhead : List Gdevice} (h : Configurable pdevhead) :
    iniParse (some (writeTable pdevhead)) gdeviceHandler [] = (0, pdevhead) := by
  have hlines : ∀ line ∈ sectionLines (pdevhead.reverse.map Gdevice.toSection),
      line.Writable ∧ FileLine (writeLine line) := by
    intro line hline
    rcases mem_sectionLines hline with rfl | ⟨s, hs, hline⟩
    · exact ⟨trivial, by simp [writeLine], by simp [writeLine], by decide⟩
    · obtain ⟨g, hg, rfl⟩ := List.mem_map.mp hs
      exact writable_of_mem_lines (h.records g (List.mem_reverse.mp hg)) hline
  have hmark : ∀ line ∈ (sectionLines (pdevhead.reverse.map Gdevice.toSection)).head?,
      ¬ byteOrderMark <+: writeLine line := by
    intro line hline hpre
    obtain ⟨name, rfl⟩ := head?_sectionLines hline
    have hfirst := (List.cons_prefix_cons.mp hpre).1
    exact absurd hfirst (by decide)
  have hparse := iniParseFile_writeLine accepts_gdeviceHandler
    (fun line hline => (hlines line hline).1) (fun line hline => (hlines line hline).2) hmark []
  rw [iniParse, writeTable, hparse, feedAll_gdeviceHandler, callsOf_along_sectionLines,
    gdeviceTable_toSection h]

/-- The table of a file is configurable. Source: `receive_interface.c` `receive_init`. Kind: L -/
theorem configurable_receiveInit (text : List Char) (myoledInit : ℤ) :
    Configurable (receiveInit (some text) myoledInit).pdevhead := by
  rw [receiveInit_some]
  exact configurable_gdeviceTable fun c hc => handedOn_of_mem_iniCalls hc

theorem receiveInit_writeTable {pdevhead : List Gdevice} (h : Configurable pdevhead)
    (myoledInit : ℤ) : receiveInit (some (writeTable pdevhead)) myoledInit =
      ⟨myoledInit, pdevhead, myoledInit, true⟩ := by
  simp only [receiveInit, iniParse_writeTable h, lt_irrefl, if_false]

/-- **The tables the hub can start with**: exactly the configurable ones, and each of them from the file
that lists it.
Source: `receive_interface.c` `receive_init`, `gdevice_ini_handler`, `ini.c` `ini_parse_stream`
Kind: P -/
theorem exists_receiveInit_iff (pdevhead : List Gdevice) (myoledInit : ℤ) :
    ((∃ text, (receiveInit (some text) myoledInit).pdevhead = pdevhead) ↔ Configurable pdevhead) ∧
      (receiveInit (some (writeTable pdevhead)) myoledInit = ⟨myoledInit, pdevhead, myoledInit, true⟩ ↔
        Configurable pdevhead) := by
  refine ⟨⟨?_, fun h => ⟨writeTable pdevhead, ?_⟩⟩, fun h => ?_, fun h => ?_⟩
  · rintro ⟨text, rfl⟩
    exact configurable_receiveInit text myoledInit
  · rw [receiveInit_writeTable h]
  · have hconf := configurable_receiveInit (writeTable pdevhead) myoledInit
    rwa [h] at hconf
  · exact receiveInit_writeTable h myoledInit

/-! ## The file in the repository -/

/-- The lines of the device file in the repository. Source: `ini/gdevice.ini`. Kind: D -/
def gdeviceIni : List String :=
  ["[lock]", "key=0x44", "gpio_pin=7", "gpio_mode=OUTPUT", "gpio_status=HIGH",
    "check_face_status=1", "voice_set_status=1", "",
    "[beep]", "key=0x45", "gpio_pin=9", "gpio_mode=OUTPUT", "gpio_status=HIGH",
    "check_face_status=0", "voice_set_status=1", "",
    "[bdrLed]", "key=0x42", "gpio_pin=5", "gpio_mode=OUTPUT", "gpio_status=HIGH",
    "check_face_status=0", "voice_set_status=0", "",
    "[livRmLed]", "key=0x41", "gpio_pin=2", "gpio_mode=OUTPUT", "gpio_status=HIGH",
    "check_face_status=0", "voice_set_status=0", "",
    "[fan]", "key=0x43", "gpio_pin=8", "gpio_mode=OUTPUT", "gpio_status=HIGH",
    "check_face_status=0", "voice_set_status=0"]

theorem configurable_shipped : Configurable (gdeviceTable shippedCalls) := by
  rw [gdeviceTable_shippedCalls]
  constructor
  · intro g hg
    simp only [List.mem_cons, List.not_mem_nil, or_false] at hg
    rcases hg with rfl | rfl | rfl | rfl | rfl <;>
      · refine ⟨⟨by decide, by decide, by decide, by decide, by decide⟩, fun f => ?_⟩
        cases f <;> simp [Field.Holds, Gdevice.get, InInt32, output, input, high, low]
  · simp

/-- The file in the repository gives the table of its entries. Source: `ini/gdevice.ini`. Kind: L -/
theorem iniParse_gdeviceIni :
    iniParse (some (fileText (gdeviceIni.map String.toList))) gdeviceHandler [] =
      (0, gdeviceTable shippedCalls) := by
  have hlines : (sectionLines ((gdeviceTable shippedCalls).reverse.map Gdevice.toSection)).map
      writeLine = gdeviceIni.map String.toList := by
    rw [gdeviceTable_shippedCalls]
    simp [sectionLines, Section.lines, Gdevice.toSection, Field.all, Field.name, Field.write,
      Gdevice.get, writeLine, gdeviceIni, printD, printX, Nat.toDigits, Nat.toDigitsCore,
      Nat.digitChar]
  rw [← hlines]
  exact iniParse_writeTable configurable_shipped

end SmartHome.Device
