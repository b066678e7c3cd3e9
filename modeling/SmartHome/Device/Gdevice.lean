import Mathlib.Algebra.NeZero
import SmartHome.Device.Frame
import SmartHome.Found.LastOf

/-!
# The device table: `gdevice.h`, `gdevice.c`

The table is the `NULL`-terminated list `pdevhead` of device records. After `receive_init` no code
changes a link, so the table is a list of records, head first, and a pointer into it is a position
(`none` is `NULL`).

* `findGdeviceByKey` — the first record with the key; `findGdeviceByKey_eq_some_iff` says so, and
  `findGdeviceByKey_congr` that only the keys matter.
* `setGpioGdeviceStatus` — the `pinMode` and `digitalWrite` calls made for a record, guarded by the
  `-1` sentinels. `pinModeCall` and `digitalWriteCall` are its two halves.
* `setStatus` — the assignment `pcur_gdevice->gpio_status = v`, the only write to the table after
  `receive_init`. `Gdevice.config` is the rest of a record, which that assignment never touches.
-/

set_option autoImplicit false

namespace SmartHome.Device

open SmartHome.Found

/-- `LOW`. Source: `wiringPi.h`. Kind: D -/
abbrev low : ℤ := 0

/-- `HIGH`. Source: `wiringPi.h`. Kind: D -/
abbrev high : ℤ := 1

theorem high_ne_low : high ≠ low := by decide

/-- `INPUT`. Source: `wiringPi.h`. Kind: D -/
abbrev input : ℤ := 0

/-- `OUTPUT`. Source: `wiringPi.h`. Kind: D -/
abbrev output : ℤ := 1

/-- A device record (its link `next` is the list's). The `char dev_name[128]` is a text of any length:
the section names `ini_parse` hands on fit into it, and into the arrays it is printed to
(`fits_after`).
Source: `gdevice.h` `struct gdevice`
Kind: D -/
structure Gdevice where
  /-- Section name of the configuration. -/
  devName : String
  /-- Command code that addresses the device. -/
  key : ℤ
  /-- GPIO pin, `-1` for none. -/
  gpioPin : ℤ
  /-- `INPUT`, `OUTPUT`, or `-1`. -/
  gpioMode : ℤ
  /-- `LOW`, `HIGH`, or `-1`. -/
  gpioStatus : ℤ
  /-- Whether a face must be recognised; `0` says no. -/
  checkFaceStatus : ℤ
  /-- Whether the command is announced; `0` says no. -/
  voiceSetStatus : ℤ
deriving DecidableEq, Repr

/-- A record without its `gpio_status`: what the configuration fixes.
Source: none: infrastructure. Kind: D -/
def Gdevice.config (g : Gdevice) : Gdevice := { g with gpioStatus := 0 }

/-! ## Looking a device up -/

/-- The position of the first record with the key, or `NULL`.
Source: `gdevice.c` `find_gdevice_by_key`
Kind: D -/
def findGdeviceByKey : List Gdevice → ℤ → Option ℕ
  | [], _ => none
  | pcur :: next, key => if pcur.key = key then some 0 else (findGdeviceByKey next key).map (· + 1)

/-- The lookup is first match. Source: `gdevice.c` `find_gdevice_by_key`. Kind: L -/
theorem findGdeviceByKey_eq_some_iff {pdevhead : List Gdevice} {key : ℤ} {d : ℕ} :
    findGdeviceByKey pdevhead key = some d ↔
      (∃ g, pdevhead[d]? = some g ∧ g.key = key) ∧
        ∀ j < d, ∀ g, pdevhead[j]? = some g → g.key ≠ key := by
  induction pdevhead generalizing d with
  | nil => simp [findGdeviceByKey]
  | cons pcur next ih =>
      by_cases hkey : pcur.key = key
      · cases d with
        | zero => simp [findGdeviceByKey, hkey]
        | succ d =>
            simp only [findGdeviceByKey, hkey, if_true, Option.some.injEq]
            refine ⟨fun h => absurd h (by omega), fun h => absurd hkey ?_⟩
            exact h.2 0 (Nat.succ_pos d) pcur rfl
      · cases d with
        | zero => simp [findGdeviceByKey, hkey]
        | succ d =>
            simp only [findGdeviceByKey, hkey, if_false, Option.map_eq_some_iff, Nat.add_right_cancel_iff,
              exists_eq_right, ih, List.getElem?_cons_succ]
            refine and_congr_right fun _ => ⟨fun h j hj g hg => ?_, fun h j hj g hg => ?_⟩
            · cases j with
              | zero => cases hg; exact hkey
              | succ j => exact h j (by omega) g hg
            · exact h (j + 1) (by omega) g hg

/-- A record found is a record of the table. Source: none: infrastructure. Kind: L -/
theorem exists_getElem?_of_find {pdevhead : List Gdevice} {key : ℤ} {d : ℕ}
    (h : findGdeviceByKey pdevhead key = some d) : ∃ g, pdevhead[d]? = some g ∧ g.key = key :=
  (findGdeviceByKey_eq_some_iff.mp h).1

/-- Tables with the same keys answer every lookup alike. Source: none: infrastructure. Kind: L -/
theorem findGdeviceByKey_congr {t t' : List Gdevice} (h : t.map Gdevice.key = t'.map Gdevice.key)
    (key : ℤ) : findGdeviceByKey t key = findGdeviceByKey t' key := by
  induction t generalizing t' with
  | nil => cases t' with
    | nil => rfl
    | cons g t' => simp at h
  | cons g t ih => cases t' with
    | nil => simp at h
    | cons g' t' =>
        simp only [List.map_cons, List.cons.injEq] at h
        simp only [findGdeviceByKey, h.1, ih h.2]

/-! ## Writing `gpio_status` -/

/-- `pcur_gdevice->gpio_status = v`.
Source: `receive_interface.c` `receive_thread_handler`
Kind: D -/
def setStatus (pdevhead : List Gdevice) (d : ℕ) (v : ℤ) : List Gdevice :=
  pdevhead.modify d fun g => { g with gpioStatus := v }

/-- A record after an assignment of `gpio_status`. Source: none: infrastructure. Kind: L -/
theorem getElem?_setStatus (pdevhead : List Gdevice) (d : ℕ) (v : ℤ) (j : ℕ) :
    (setStatus pdevhead d v)[j]? =
      pdevhead[j]?.map fun g => if d = j then { g with gpioStatus := v } else g := by
  rw [setStatus, List.getElem?_modify]
  rfl

/-- The addressed record after the assignment. Source: none: infrastructure. Kind: L -/
theorem getElem?_setStatus_self {pdevhead : List Gdevice} {d : ℕ} {g : Gdevice}
    (h : pdevhead[d]? = some g) (v : ℤ) :
    (setStatus pdevhead d v)[d]? = some { g with gpioStatus := v } := by
  simp [getElem?_setStatus, h]

/-- The other records after the assignment. Source: none: infrastructure. Kind: L -/
theorem getElem?_setStatus_ne (pdevhead : List Gdevice) {d j : ℕ} (h : d ≠ j) (v : ℤ) :
    (setStatus pdevhead d v)[j]? = pdevhead[j]? := by
  simp [getElem?_setStatus, h]

/-- Only the last assignment counts. Source: none: infrastructure. Kind: L -/
@[simp] theorem setStatus_setStatus (pdevhead : List Gdevice) (d : ℕ) (v w : ℤ) :
    setStatus (setStatus pdevhead d v) d w = setStatus pdevhead d w := by
  apply List.ext_getElem?
  intro j
  rw [getElem?_setStatus, getElem?_setStatus, getElem?_setStatus, Option.map_map]
  congr 1
  funext g
  simp only [Function.comp_apply]
  split_ifs <;> rfl

/-- The assignment leaves the rest of every record, and the order of the list, as it was.
Source: none: infrastructure. Kind: L -/
@[simp] theorem map_config_setStatus (pdevhead : List Gdevice) (d : ℕ) (v : ℤ) :
    (setStatus pdevhead d v).map Gdevice.config = pdevhead.map Gdevice.config := by
  apply List.ext_getElem?
  intro j
  simp only [List.getElem?_map, getElem?_setStatus, Option.map_map]
  congr 1
  funext g
  simp only [Function.comp_apply]
  split_ifs <;> rfl

/-- Reading one configured field through equal configurations.
Source: none: infrastructure. Kind: L -/
theorem map_eq_of_map_config {α : Type*} (f : Gdevice → α) (hf : ∀ g, f g.config = f g)
    {t t' : List Gdevice} (h : t.map Gdevice.config = t'.map Gdevice.config) :
    t.map f = t'.map f := by
  have := congrArg (List.map f) h
  simpa [List.map_map, Function.comp_def, hf] using this

/-- Equal configurations answer every lookup alike. Source: none: infrastructure. Kind: L -/
theorem findGdeviceByKey_of_map_config {t t' : List Gdevice}
    (h : t.map Gdevice.config = t'.map Gdevice.config) (key : ℤ) :
    findGdeviceByKey t key = findGdeviceByKey t' key :=
  findGdeviceByKey_congr (map_eq_of_map_config Gdevice.key (fun _ => rfl) h) key

/-- Equal configurations, record by record. Source: none: infrastructure. Kind: L -/
theorem exists_getElem?_of_map_config {t t' : List Gdevice}
    (h : t.map Gdevice.config = t'.map Gdevice.config) {d : ℕ} {g : Gdevice}
    (hg : t[d]? = some g) : ∃ g', t'[d]? = some g' ∧ g'.config = g.config := by
  have := congrArg (fun l => l[d]?) h
  simp only [List.getElem?_map, hg, Option.map_some] at this
  exact Option.map_eq_some_iff.mp this.symm

theorem config_eq_of_map_config {t t' : List Gdevice}
    (h : t.map Gdevice.config = t'.map Gdevice.config) {d : ℕ} {g g' : Gdevice} (hg : t[d]? = some g)
    (hg' : t'[d]? = some g') : g.config = g'.config := by
  obtain ⟨g'', hg'', hconfig⟩ := exists_getElem?_of_map_config h hg
  obtain rfl : g' = g'' := Option.some.inj (hg'.symm.trans hg'')
  exact hconfig.symm

/-! ## Driving the pin -/

/-- A call into wiringPi.
Source: `gdevice.c` `set_gpio_gdevice_status`
Kind: D -/
inductive GpioCall where
  | pinMode (pin mode : ℤ)
  | digitalWrite (pin value : ℤ)
deriving DecidableEq, Repr

/-- The first half of `set_gpio_gdevice_status`: the mode of the pin.
Source: `gdevice.c` `set_gpio_gdevice_status`
Kind: D -/
def pinModeCall (g : Gdevice) : List GpioCall :=
  if g.gpioPin ≠ -1 ∧ g.gpioMode ≠ -1 then [.pinMode g.gpioPin g.gpioMode] else []

/-- The second half of `set_gpio_gdevice_status`: the level of the pin.
Source: `gdevice.c` `set_gpio_gdevice_status`
Kind: D -/
def digitalWriteCall (g : Gdevice) : List GpioCall :=
  if g.gpioPin ≠ -1 ∧ g.gpioStatus ≠ -1 then [.digitalWrite g.gpioPin g.gpioStatus] else []

/-- The calls made for a record and the value returned: `-1` for `NULL`, `0` otherwise, whether or
not a pin was driven.
Source: `gdevice.c` `set_gpio_gdevice_status`
Kind: D -/
def setGpioGdeviceStatus : Option Gdevice → List GpioCall × ℤ
  | none => ([], -1)
  | some pdev => (pinModeCall pdev ++ digitalWriteCall pdev, 0)

/-- The level a call writes on a pin. Source: none: infrastructure. Kind: D -/
def writtenOn (pin : ℤ) : GpioCall → Option ℤ
  | .pinMode _ _ => none
  | .digitalWrite p v => if p = pin then some v else none

/-- The level last driven on a pin, `none` while it has never been driven.
Source: none: infrastructure. Kind: D -/
def lastLevel (pin : ℤ) (calls : List GpioCall) : Option ℤ := lastOf (writtenOn pin) calls

/-- The level last driven, over a concatenation. Source: none: infrastructure. Kind: L -/
theorem lastLevel_append (pin : ℤ) (l m : List GpioCall) :
    lastLevel pin (l ++ m) = (lastLevel pin m).or (lastLevel pin l) := lastOf_append _ l m

/-- Nothing has been driven yet. Source: none: infrastructure. Kind: L -/
@[simp] theorem lastLevel_nil (pin : ℤ) : lastLevel pin [] = none := rfl

/-- What `set_gpio_gdevice_status` last drives on a pin: its record's level on its record's pin.
Source: `gdevice.c` `set_gpio_gdevice_status`
Kind: L -/
theorem lastLevel_setGpio (pin : ℤ) (g : Gdevice) :
    lastLevel pin (setGpioGdeviceStatus (some g)).1 =
      if g.gpioPin = pin ∧ g.gpioPin ≠ -1 ∧ g.gpioStatus ≠ -1 then some g.gpioStatus else none := by
  have hmode : lastLevel pin (pinModeCall g) = none := by
    unfold pinModeCall
    split_ifs <;> rfl
  simp only [setGpioGdeviceStatus, lastLevel_append, hmode, Option.or_none, digitalWriteCall]
  by_cases hguard : g.gpioPin ≠ -1 ∧ g.gpioStatus ≠ -1
  · rw [if_pos hguard]
    simp [lastLevel, writtenOn, hguard.1, hguard.2]
  · rw [if_neg hguard, lastLevel_nil, if_neg fun h => hguard h.2]

end SmartHome.Device
