import SmartHome.Device.Gdevice
import SmartHome.Device.Scan

/-!
# Building the table: `gdevice_ini_handler`

`ini_parse` calls the handler once for every `name=value` entry, with the section it stands in.
The handler opens a zero-filled record in front of the list whenever the section differs from the
*head's* name, and then updates one field of the head. `gdeviceTable` is the list after a sequence
of calls; the empty sequence is the table left when `ini_parse` cannot open its file, which
`main` goes on with.
-/

set_option autoImplicit false

namespace SmartHome.Device

/-- A call of the handler: section, name, value. Source: `ini.h` `ini_handler`. Kind: D -/
structure IniCall where
  sectionName : String
  name : String
  value : String
deriving DecidableEq, Repr

/-- A zero-filled record with its name set.
Source: `receive_interface.c` `gdevice_ini_handler`
Kind: D -/
def zeroGdevice (sectionName : String) : Gdevice := ⟨sectionName, 0, 0, 0, 0, 0, 0⟩

/-- The field update of the record at the head. A value that cannot be read, or a word other than
the ones compared with, keeps the old value.
Source: `receive_interface.c` `gdevice_ini_handler`
Kind: D -/
def setField (c : IniCall) (pdevhead : Gdevice) : Gdevice :=
  if c.sectionName = pdevhead.devName ∧ c.name = "key" then
    { pdevhead with key := (sscanfX c.value).getD pdevhead.key }
  else if c.sectionName = pdevhead.devName ∧ c.name = "gpio_pin" then
    { pdevhead with gpioPin := (sscanfD c.value).getD pdevhead.gpioPin }
  else if c.sectionName = pdevhead.devName ∧ c.name = "gpio_mode" then
    if c.value = "OUTPUT" then { pdevhead with gpioMode := 1 }
    else if c.value = "INPUT" then { pdevhead with gpioMode := 0 }
    else pdevhead
  else if c.sectionName = pdevhead.devName ∧ c.name = "gpio_status" then
    if c.value = "HIGH" then { pdevhead with gpioStatus := 1 }
    else if c.value = "LOW" then { pdevhead with gpioStatus := 0 }
    else pdevhead
  else if c.sectionName = pdevhead.devName ∧ c.name = "check_face_status" then
    { pdevhead with checkFaceStatus := atoi c.value }
  else if c.sectionName = pdevhead.devName ∧ c.name = "voice_set_status" then
    { pdevhead with voiceSetStatus := atoi c.value }
  else pdevhead

/-- One call of the handler on the list `pdevhead`. The `strcpy` into `dev_name[128]` stores the whole
name: a name too long for the array, which `ini_parse` never hands on (`fits_after`), is not cut.
Source: `receive_interface.c` `gdevice_ini_handler`
Kind: D -/
def gdeviceIniHandler (pdevhead : List Gdevice) (c : IniCall) : List Gdevice :=
  match pdevhead with
  | [] => [setField c (zeroGdevice c.sectionName)]
  | head :: next =>
      if c.sectionName ≠ head.devName then setField c (zeroGdevice c.sectionName) :: head :: next
      else setField c head :: next

/-- The table after a sequence of calls.
Source: `receive_interface.c` `receive_init`
Kind: D -/
def gdeviceTable (calls : List IniCall) : List Gdevice := calls.foldl gdeviceIniHandler []

/-- The entries of the configuration file in the repository, in file order.
Source: `ini/gdevice.ini`
Kind: D -/
def shippedCalls : List IniCall :=
  [⟨"lock", "key", "0x44"⟩, ⟨"lock", "gpio_pin", "7"⟩, ⟨"lock", "gpio_mode", "OUTPUT"⟩,
    ⟨"lock", "gpio_status", "HIGH"⟩, ⟨"lock", "check_face_status", "1"⟩,
    ⟨"lock", "voice_set_status", "1"⟩,
    ⟨"beep", "key", "0x45"⟩, ⟨"beep", "gpio_pin", "9"⟩, ⟨"beep", "gpio_mode", "OUTPUT"⟩,
    ⟨"beep", "gpio_status", "HIGH"⟩, ⟨"beep", "check_face_status", "0"⟩,
    ⟨"beep", "voice_set_status", "1"⟩,
    ⟨"bdrLed", "key", "0x42"⟩, ⟨"bdrLed", "gpio_pin", "5"⟩, ⟨"bdrLed", "gpio_mode", "OUTPUT"⟩,
    ⟨"bdrLed", "gpio_status", "HIGH"⟩, ⟨"bdrLed", "check_face_status", "0"⟩,
    ⟨"bdrLed", "voice_set_status", "0"⟩,
    ⟨"livRmLed", "key", "0x41"⟩, ⟨"livRmLed", "gpio_pin", "2"⟩,
    ⟨"livRmLed", "gpio_mode", "OUTPUT"⟩, ⟨"livRmLed", "gpio_status", "HIGH"⟩,
    ⟨"livRmLed", "check_face_status", "0"⟩, ⟨"livRmLed", "voice_set_status", "0"⟩,
    ⟨"fan", "key", "0x43"⟩, ⟨"fan", "gpio_pin", "8"⟩, ⟨"fan", "gpio_mode", "OUTPUT"⟩,
    ⟨"fan", "gpio_status", "HIGH"⟩, ⟨"fan", "check_face_status", "0"⟩,
    ⟨"fan", "voice_set_status", "0"⟩]

/-- The table of the shipped configuration: the last section is at the head.
Source: `ini/gdevice.ini`
Kind: L -/
theorem gdeviceTable_shippedCalls :
    gdeviceTable shippedCalls =
      [⟨"fan", 0x43, 8, output, high, 0, 0⟩, ⟨"livRmLed", 0x41, 2, output, high, 0, 0⟩,
        ⟨"bdrLed", 0x42, 5, output, high, 0, 0⟩, ⟨"beep", 0x45, 9, output, high, 0, 1⟩,
        ⟨"lock", 0x44, 7, output, high, 1, 1⟩] := by
  decide

end SmartHome.Device
