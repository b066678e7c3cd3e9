import SmartHome.Device.IniHandler
import SmartHome.Found.Blocks

/-!
# What the configuration says, and what the table holds

The entries of a configuration come in sections. `setting f c` is what the entry `c` sets the field `f`
to, if it is an entry for that field and its text is accepted; `record` is the record that a list of
entries describes, each field as its last accepted entry says and `0` without one.

The handler compares a section only with the head of its list, so the table is one record for each
*block* of entries of one section (`gdeviceTable_eq`), not for each section. `TableMatches` is what
the table is for: one record for each section, with the settings of all its entries.
`tableMatches_iff` says that this holds exactly when no section is left and reopened, and
`reopened_section_splits` is a configuration in which one is.
-/

set_option autoImplicit false

namespace SmartHome.Device

open SmartHome.Found

/-! ## Entries and fields -/

/-- The fields of a record that an entry can set.
Source: `receive_interface.c` `gdevice_ini_handler`
Kind: D -/
inductive Field where
  | key
  | gpioPin
  | gpioMode
  | gpioStatus
  | checkFaceStatus
  | voiceSetStatus
deriving DecidableEq, Repr

/-- The name of the field's entries.
Source: `receive_interface.c` `gdevice_ini_handler`
Kind: D -/
def Field.name : Field → String
  | .key => "key"
  | .gpioPin => "gpio_pin"
  | .gpioMode => "gpio_mode"
  | .gpioStatus => "gpio_status"
  | .checkFaceStatus => "check_face_status"
  | .voiceSetStatus => "voice_set_status"

/-- The value that a text sets the field to, if the field accepts the text.
Source: `receive_interface.c` `gdevice_ini_handler`
Kind: D -/
def Field.read : Field → String → Option ℤ
  | .key, value => sscanfX value
  | .gpioPin, value => sscanfD value
  | .gpioMode, value =>
      if value = "OUTPUT" then some output else if value = "INPUT" then some input else none
  | .gpioStatus, value =>
      if value = "HIGH" then some high else if value = "LOW" then some low else none
  | .checkFaceStatus, value => some (atoi value)
  | .voiceSetStatus, value => some (atoi value)

/-- A field of a record. Source: `gdevice.h` `struct gdevice`. Kind: D -/
def Gdevice.get (f : Field) (g : Gdevice) : ℤ :=
  match f with
  | .key => g.key
  | .gpioPin => g.gpioPin
  | .gpioMode => g.gpioMode
  | .gpioStatus => g.gpioStatus
  | .checkFaceStatus => g.checkFaceStatus
  | .voiceSetStatus => g.voiceSetStatus

/-- What an entry sets a field to.
Source: `receive_interface.c` `gdevice_ini_handler`
Kind: D -/
def setting (f : Field) (c : IniCall) : Option ℤ := if c.name = f.name then f.read c.value else none

/-- The record that the entries of a section describe.
Source: none: the meaning of a section. Kind: D -/
def record (sectionName : String) (entries : List IniCall) : Gdevice :=
  let value := fun f => (lastOf (setting f) entries).getD 0
  ⟨sectionName, value .key, value .gpioPin, value .gpioMode, value .gpioStatus,
    value .checkFaceStatus, value .voiceSetStatus⟩

@[simp] theorem devName_record (sectionName : String) (entries : List IniCall) :
    (record sectionName entries).devName = sectionName := rfl

@[simp] theorem get_record (f : Field) (sectionName : String) (entries : List IniCall) :
    (record sectionName entries).get f = (lastOf (setting f) entries).getD 0 := by
  cases f <;> rfl

theorem Gdevice.ext_get {g g' : Gdevice} (hname : g.devName = g'.devName)
    (hget : ∀ f, g.get f = g'.get f) : g = g' := by
  obtain ⟨devName, key, gpioPin, gpioMode, gpioStatus, checkFaceStatus, voiceSetStatus⟩ := g
  obtain rfl : devName = g'.devName := hname
  obtain rfl : key = g'.key := hget .key
  obtain rfl : gpioPin = g'.gpioPin := hget .gpioPin
  obtain rfl : gpioMode = g'.gpioMode := hget .gpioMode
  obtain rfl : gpioStatus = g'.gpioStatus := hget .gpioStatus
  obtain rfl : checkFaceStatus = g'.checkFaceStatus := hget .checkFaceStatus
  obtain rfl : voiceSetStatus = g'.voiceSetStatus := hget .voiceSetStatus
  rfl

theorem devName_setField (c : IniCall) (g : Gdevice) : (setField c g).devName = g.devName := by
  unfold setField
  split_ifs <;> rfl

/-- **One entry**: its field gets what the entry sets it to, if anything, and the others stay.
Source: `receive_interface.c` `gdevice_ini_handler`
Kind: L -/
theorem get_setField {c : IniCall} {g : Gdevice} (h : c.sectionName = g.devName) (f : Field) :
    (setField c g).get f = (setting f c).getD (g.get f) := by
  unfold setField setting
  simp only [h, true_and]
  by_cases hkey : c.name = "key"
  · rw [if_pos hkey, hkey]
    cases f <;> simp [Gdevice.get, Field.name, Field.read]
  rw [if_neg hkey]
  by_cases hpin : c.name = "gpio_pin"
  · rw [if_pos hpin, hpin]
    cases f <;> simp [Gdevice.get, Field.name, Field.read]
  rw [if_neg hpin]
  by_cases hmode : c.name = "gpio_mode"
  · rw [if_pos hmode, hmode]
    cases f <;> simp only [Gdevice.get, Field.name, Field.read] <;> split_ifs <;> simp_all
  rw [if_neg hmode]
  by_cases hstatus : c.name = "gpio_status"
  · rw [if_pos hstatus, hstatus]
    cases f <;> simp only [Gdevice.get, Field.name, Field.read] <;> split_ifs <;> simp_all
  rw [if_neg hstatus]
  by_cases hface : c.name = "check_face_status"
  · rw [if_pos hface, hface]
    cases f <;> simp [Gdevice.get, Field.name, Field.read]
  rw [if_neg hface]
  by_cases hvoice : c.name = "voice_set_status"
  · rw [if_pos hvoice, hvoice]
    cases f <;> simp [Gdevice.get, Field.name, Field.read]
  rw [if_neg hvoice]
  -- an entry for no field
  cases f <;> simp [Gdevice.get, Field.name, *]

/-- An entry of the open section adds to what its record says. -/
theorem setField_record {c : IniCall} {sectionName : String} (h : c.sectionName = sectionName)
    (entries : List IniCall) :
    setField c (record sectionName entries) = record sectionName (entries ++ [c]) := by
  apply Gdevice.ext_get
  · exact devName_setField c _
  · intro f
    rw [get_setField h, get_record, get_record, lastOf_concat]
    cases setting f c <;> rfl

theorem record_nil (sectionName : String) : record sectionName [] = zeroGdevice sectionName := rfl

/-! ## The table -/

/-- **The table is one record for each block of entries of one section**, the newest in front.
Source: `receive_interface.c` `gdevice_ini_handler`
Kind: P -/
theorem gdeviceTable_eq (calls : List IniCall) :
    gdeviceTable calls = (blocks IniCall.sectionName calls).map fun b => record b.1 b.2 := by
  induction calls using List.reverseRecOn with
  | nil => rfl
  | append_singleton calls c ih =>
      have hstep : gdeviceTable (calls ++ [c]) = gdeviceIniHandler (gdeviceTable calls) c := by
        simp [gdeviceTable]
      have hopen : setField c (zeroGdevice c.sectionName) = record c.sectionName [c] := by
        rw [← record_nil, setField_record rfl]
        rfl
      rw [hstep, ih, blocks_concat]
      cases blocks IniCall.sectionName calls with
      | nil => simp only [List.map_nil, gdeviceIniHandler, addToBlocks, hopen, List.map_cons]
      | cons b bs =>
          by_cases hsame : c.sectionName = b.1
          · have hhead := setField_record hsame b.2
            simp only [List.map_cons, gdeviceIniHandler, addToBlocks, devName_record, hsame, ne_eq,
              not_true_eq_false, if_false, if_true, hhead]
          · simp only [List.map_cons, gdeviceIniHandler, addToBlocks, devName_record, hsame, ne_eq,
              not_false_eq_true, if_true, if_false, hopen]

/-- The entries of a section, wherever they stand.
Source: none: the meaning of a configuration. Kind: D -/
def sectionEntries (sectionName : String) (calls : List IniCall) : List IniCall :=
  calls.filter fun c => c.sectionName = sectionName

/-- **The table is what the configuration says**: one record for each section that occurs, with each
field as the last accepted entry for it in the whole configuration sets it; so a record that a
lookup finds has all the settings of its section.
Source: none: the purpose of the table. Kind: D -/
structure TableMatches (calls : List IniCall) (pdevhead : List Gdevice) : Prop where
  nodup : (pdevhead.map Gdevice.devName).Nodup
  sections : ∀ sectionName, sectionName ∈ pdevhead.map Gdevice.devName ↔
    ∃ c ∈ calls, c.sectionName = sectionName
  fields : ∀ pdev ∈ pdevhead, ∀ f,
    pdev.get f = (lastOf (setting f) (sectionEntries pdev.devName calls)).getD 0
  found : ∀ key d pdev, findGdeviceByKey pdevhead key = some d → pdevhead[d]? = some pdev →
    ∀ f v, lastOf (setting f) (sectionEntries pdev.devName calls) = some v → pdev.get f = v

theorem map_devName_gdeviceTable (calls : List IniCall) :
    (gdeviceTable calls).map Gdevice.devName = (blocks IniCall.sectionName calls).map Prod.fst := by
  rw [gdeviceTable_eq, List.map_map]
  rfl

/-- A section with one block has a record with all its settings. -/
theorem get_of_mem_gdeviceTable {calls : List IniCall}
    (h : ((blocks IniCall.sectionName calls).map Prod.fst).Nodup) {pdev : Gdevice}
    (hpdev : pdev ∈ gdeviceTable calls) (f : Field) :
    pdev.get f = (lastOf (setting f) (sectionEntries pdev.devName calls)).getD 0 := by
  rw [gdeviceTable_eq] at hpdev
  obtain ⟨b, hb, rfl⟩ := List.mem_map.mp hpdev
  rw [get_record, devName_record, sectionEntries, filter_eq_of_mem_blocks _ h hb]

/-- **When the table is what the configuration says**: exactly when no section is reopened, that is, no
entry of another section stands between two of its own.
Source: `receive_interface.c` `gdevice_ini_handler`, `gdevice.c` `find_gdevice_by_key`
Kind: P -/
theorem tableMatches_iff (calls : List IniCall) :
    TableMatches calls (gdeviceTable calls) ↔ NotReopened IniCall.sectionName calls := by
  rw [← nodup_keys_iff]
  constructor
  · intro h
    rw [← map_devName_gdeviceTable]
    exact h.nodup
  · intro h
    have hfields : ∀ pdev ∈ gdeviceTable calls, ∀ f,
        pdev.get f = (lastOf (setting f) (sectionEntries pdev.devName calls)).getD 0 :=
      fun pdev hpdev f => get_of_mem_gdeviceTable h hpdev f
    refine ⟨?_, ?_, hfields, ?_⟩
    · rw [map_devName_gdeviceTable]
      exact h
    · intro sectionName
      rw [map_devName_gdeviceTable, mem_keys_blocks]
    · intro key d pdev _ hg f v hv
      rw [hfields pdev (List.mem_of_getElem? hg) f, hv]
      rfl

/-- The lock's pin is given in a section that is reopened after the fan's: the lock has two records, and
the one its key finds has pin `0`.
Source: `receive_interface.c` `gdevice_ini_handler`
Kind: L -/
theorem reopened_section_splits :
    ¬ ∀ calls : List IniCall, TableMatches calls (gdeviceTable calls) := by
  intro h
  have hmatch := h [⟨"lock", "key", "0x44"⟩, ⟨"fan", "key", "0x43"⟩, ⟨"lock", "gpio_pin", "7"⟩]
  have hpin := hmatch.found 0x44 2 ⟨"lock", 0x44, 0, 0, 0, 0, 0⟩ (by decide) (by decide) .gpioPin 7
    (by decide)
  cases hpin

end SmartHome.Device
