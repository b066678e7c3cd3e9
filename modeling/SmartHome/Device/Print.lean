import Mathlib.Data.Nat.Digits.Defs
import Mathlib.Tactic.IntervalCases
import SmartHome.Device.Scan

/-!
# Numbers printed: `printf` with `%x` and `%d`

The conversions `receive_init` lists the table with, and the handler's reading of their output:
`sscanfX_printX`, `sscanfD_printD` and `atoi_printD` say that every `int` is read back. A negative
`int` goes through `%x` as the `unsigned` of the same bits, and comes back as itself.
-/

set_option autoImplicit false

namespace SmartHome.Device

/-- The values of an `int`. Source: none: infrastructure. Kind: D -/
def InInt32 (n : ℤ) : Prop := -2 ^ 31 ≤ n ∧ n < 2 ^ 31

instance InInt32.decidable (n : ℤ) : Decidable (InInt32 n) := inferInstanceAs (Decidable (_ ∧ _))

/-- `printf("%d", n)`. Source: `receive_interface.c` `receive_init`. Kind: D -/
def printD (n : ℤ) : String :=
  String.ofList (if n < 0 then '-' :: Nat.toDigits 10 n.natAbs else Nat.toDigits 10 n.natAbs)

/-- `printf("%x", n)`. Source: `receive_interface.c` `receive_init`. Kind: D -/
def printX (n : ℤ) : String := String.ofList (Nat.toDigits 16 (n % 2 ^ 32).toNat)

theorem inInt32_toInt32 (n : ℤ) : InInt32 (toInt32 n) := by
  have hlo := Int.le_bmod (x := n) (m := 2 ^ 32) (by decide)
  have hhi := Int.bmod_lt (x := n) (m := 2 ^ 32) (by decide)
  unfold InInt32 toInt32
  omega

theorem toInt32_eq_self {n : ℤ} (h : InInt32 n) : toInt32 n = n := by
  obtain ⟨hlo, hhi⟩ := h
  exact Int.bmod_eq_of_le (by omega) (by omega)

theorem toInt32_emod (n : ℤ) : toInt32 (n % 2 ^ 32) = toInt32 n := Int.emod_bmod ..

/-! ## Digits -/

variable {base : ℕ}

theorem digitValue_digitChar {d : ℕ} (hd : d < base) (hbase : base ≤ 16) :
    digitValue base d.digitChar = some d := by
  have hlt : d < 16 := by omega
  interval_cases d <;> simp [digitValue, Nat.digitChar, hd]

/-- A printed number has digits only. Source: none: infrastructure. Kind: L -/
theorem isSome_digitValue_of_mem_toDigits (hbase : 1 < base) (hbase' : base ≤ 16) {n : ℕ} {c : Char}
    (hc : c ∈ Nat.toDigits base n) : (digitValue base c).isSome = true := by
  induction n using Nat.strongRecOn with
  | ind n ih =>
      by_cases hn : n < base
      · rw [Nat.toDigits_of_lt_base hn, List.mem_singleton] at hc
        rw [hc, digitValue_digitChar hn hbase']
        rfl
      · rw [Nat.toDigits_of_base_le hbase (by omega), List.mem_append, List.mem_singleton] at hc
        rcases hc with hc | rfl
        · exact ih _ (Nat.div_lt_self (by omega) hbase) hc
        · rw [digitValue_digitChar (Nat.mod_lt n (by omega)) hbase']
          rfl

theorem leadingDigits_concat {cs : List Char} (hcs : ∀ c ∈ cs, (digitValue base c).isSome = true)
    {c : Char} {v : ℕ} (hc : digitValue base c = some v) :
    leadingDigits base (cs ++ [c]) = leadingDigits base cs ++ [v] := by
  induction cs with
  | nil => simp [leadingDigits, hc]
  | cons d ds ih =>
      obtain ⟨w, hw⟩ := Option.isSome_iff_exists.mp (hcs d List.mem_cons_self)
      have hds := ih fun e he => hcs e (List.mem_cons_of_mem _ he)
      simp only [List.cons_append, leadingDigits, hw, hds]

/-- **A printed number is read back.** Source: none: infrastructure. Kind: P -/
theorem scanNumeral_toDigits (hbase : 1 < base) (hbase' : base ≤ 16) (n : ℕ) :
    scanNumeral base (Nat.toDigits base n) = some n := by
  have hread : leadingDigits base (Nat.toDigits base n) ≠ [] ∧
      (leadingDigits base (Nat.toDigits base n)).foldl (fun n d => n * base + d) 0 = n := by
    induction n using Nat.strongRecOn with
    | ind n ih =>
        by_cases hn : n < base
        · simp [Nat.toDigits_of_lt_base hn, leadingDigits, digitValue_digitChar hn hbase']
        · have hlast := digitValue_digitChar (Nat.mod_lt n (by omega)) hbase'
          have hdiv := Nat.div_add_mod' n base
          rw [Nat.toDigits_of_base_le hbase (by omega), leadingDigits_concat
            (fun c hc => isSome_digitValue_of_mem_toDigits hbase hbase' hc) hlast]
          refine ⟨by simp, ?_⟩
          rw [List.foldl_append, (ih _ (Nat.div_lt_self (by omega) hbase)).2]
          simpa using hdiv
  obtain ⟨hne, hfold⟩ := hread
  unfold scanNumeral
  cases hdigits : leadingDigits base (Nat.toDigits base n) with
  | nil => exact absurd hdigits hne
  | cons d ds => rw [← hfold, hdigits]

/-! ## Conversions -/

/-- A digit is no blank, no sign and no part of a `0x`. Source: none: infrastructure. Kind: L -/
theorem toNat_of_isSome_digitValue {c : Char}
    (hc : (digitValue base c).isSome = true) :
    48 ≤ c.toNat ∧ c.toNat ≤ 57 ∨ 65 ≤ c.toNat ∧ c.toNat ≤ 70 ∨ 97 ≤ c.toNat ∧ c.toNat ≤ 102 := by
  unfold digitValue at hc
  dsimp only at hc
  split_ifs at hc <;> simp_all

theorem isSpace_of_isSome_digitValue {c : Char}
    (hc : (digitValue base c).isSome = true) : isSpace c = false := by
  have hrange := toNat_of_isSome_digitValue hc
  have hne : c ≠ ' ' := by
    rintro rfl
    revert hrange
    decide
  simp only [isSpace, hne, decide_false, Bool.false_or, Bool.and_eq_false_iff,
    decide_eq_false_iff_not]
  omega

theorem ne_of_isSome_digitValue {c d : Char}
    (hc : (digitValue base c).isSome = true) (hd : d ∈ ['-', '+', 'x', 'X']) : c ≠ d := by
  rintro rfl
  have hrange := toNat_of_isSome_digitValue hc
  simp only [List.mem_cons, List.not_mem_nil, or_false] at hd
  rcases hd with rfl | rfl | rfl | rfl <;> revert hrange <;> decide

theorem dropWhile_isSpace_of_digits {cs : List Char}
    (hcs : ∀ c ∈ cs, (digitValue base c).isSome = true) : cs.dropWhile isSpace = cs := by
  cases cs with
  | nil => rfl
  | cons c cs =>
      have hc := isSpace_of_isSome_digitValue (hcs c List.mem_cons_self)
      rw [List.dropWhile_cons_of_neg (by simp [hc])]

theorem skipSign_digits {cs : List Char}
    (hcs : ∀ c ∈ cs, (digitValue base c).isSome = true) :
    skipSign (String.ofList cs) = (false, cs) := by
  rw [skipSign, String.toList_ofList, dropWhile_isSpace_of_digits hcs]
  cases cs with
  | nil => rfl
  | cons c cs =>
      have hminus := ne_of_isSome_digitValue (d := '-') (hcs c List.mem_cons_self) (by simp)
      have hplus := ne_of_isSome_digitValue (d := '+') (hcs c List.mem_cons_self) (by simp)
      split <;> simp_all

theorem skipSign_minus (cs : List Char) : skipSign (String.ofList ('-' :: cs)) = (true, cs) := by
  rw [skipSign, String.toList_ofList, List.dropWhile_cons_of_neg (by decide)]
  rfl

/-- **`%d` is read back by `strtol`.** Source: none: infrastructure. Kind: L -/
theorem strtol_printD {n : ℤ} (h : InInt32 n) : strtol (printD n) = some n := by
  obtain ⟨hlo, hhi⟩ := h
  have hdigits : ∀ c ∈ Nat.toDigits 10 n.natAbs, (digitValue 10 c).isSome = true := fun c hc =>
    isSome_digitValue_of_mem_toDigits (by decide) (by decide) hc
  have hread : scanNumeral 10 (Nat.toDigits 10 n.natAbs) = some n.natAbs :=
    scanNumeral_toDigits (by decide) (by decide) _
  unfold printD strtol
  by_cases hn : n < 0
  · rw [if_pos hn, skipSign_minus]
    dsimp only
    rw [hread]
    change some (max (-(n.natAbs : ℤ)) (-2 ^ 63)) = some n
    rw [Option.some.injEq]
    omega
  · rw [if_neg hn, skipSign_digits hdigits]
    dsimp only
    rw [hread]
    change some (min (n.natAbs : ℤ) (2 ^ 63 - 1)) = some n
    rw [Option.some.injEq]
    omega

/-- Source: `receive_interface.c` `gdevice_ini_handler`, `receive_init`. Kind: P -/
theorem sscanfD_printD {n : ℤ} (h : InInt32 n) : sscanfD (printD n) = some n := by
  rw [sscanfD, strtol_printD h, Option.map_some, toInt32_eq_self h]

/-- Source: `receive_interface.c` `gdevice_ini_handler`, `receive_init`. Kind: P -/
theorem atoi_printD {n : ℤ} (h : InInt32 n) : atoi (printD n) = n := by
  rw [atoi, strtol_printD h, Option.getD_some, toInt32_eq_self h]

/-- The bits of an `int` are read back. Source: none: infrastructure. Kind: L -/
theorem sscanfX_of_digits {n : ℤ} (h : InInt32 n) {value : String} {cs : List Char}
    (hsign : skipSign value = (false, cs))
    (hdigits : skipHexPrefix cs = Nat.toDigits 16 (n % 2 ^ 32).toNat) : sscanfX value = some n := by
  have hread : scanNumeral 16 (Nat.toDigits 16 (n % 2 ^ 32).toNat) = some (n % 2 ^ 32).toNat :=
    scanNumeral_toDigits (by decide) (by decide) _
  have hsmall : ¬ (2 : ℤ) ^ 64 ≤ ((n % 2 ^ 32).toNat : ℤ) := by omega
  have hbits : (((n % 2 ^ 32).toNat : ℕ) : ℤ) = n % 2 ^ 32 := by omega
  unfold sscanfX strtoulHex
  rw [hsign]
  dsimp only
  rw [hdigits, hread]
  change some (toInt32 (if 2 ^ 64 ≤ ((n % 2 ^ 32).toNat : ℤ) then 2 ^ 64 - 1
    else ((n % 2 ^ 32).toNat : ℤ))) = some n
  rw [if_neg hsmall, hbits, toInt32_emod, toInt32_eq_self h]

/-- The same with the `0x` of the device file.
Source: `receive_interface.c` `gdevice_ini_handler`, `ini/gdevice.ini`
Kind: L -/
theorem sscanfX_zerox {n : ℤ} (h : InInt32 n) : sscanfX ("0x" ++ printX n) = some n := by
  have hlist : ("0x" ++ printX n).toList = '0' :: 'x' :: Nat.toDigits 16 (n % 2 ^ 32).toNat := by
    simp [printX]
  have hsign : skipSign ("0x" ++ printX n) =
      (false, '0' :: 'x' :: Nat.toDigits 16 (n % 2 ^ 32).toNat) := by
    rw [skipSign, hlist, List.dropWhile_cons_of_neg (by decide)]
    rfl
  exact sscanfX_of_digits h hsign rfl

/-! ## What a printed number looks like -/

/-- No blank and no terminator. Source: none: infrastructure. Kind: D -/
def Plain (s : List Char) : Prop := ∀ c ∈ s, isSpace c = false ∧ c ≠ '\x00'

theorem Plain.append {s t : List Char} (hs : Plain s) (ht : Plain t) : Plain (s ++ t) := fun c hc =>
  (List.mem_append.mp hc).elim (hs c) (ht c)

theorem plain_toDigits (hbase : 1 < base) (hbase' : base ≤ 16) (n : ℕ) :
    Plain (Nat.toDigits base n) := by
  intro c hc
  have hdigit := isSome_digitValue_of_mem_toDigits hbase hbase' hc
  refine ⟨isSpace_of_isSome_digitValue hdigit, ?_⟩
  rintro rfl
  have hrange := toNat_of_isSome_digitValue hdigit
  revert hrange
  decide

theorem plain_printD (n : ℤ) : Plain (printD n).toList := by
  have hdigits : Plain (Nat.toDigits 10 n.natAbs) := plain_toDigits (by decide) (by decide) _
  have hminus : Plain ['-'] := by simp [Plain, isSpace]
  rw [printD, String.toList_ofList]
  split_ifs
  · exact hminus.append hdigits
  · exact hdigits

theorem plain_printX (n : ℤ) : Plain (printX n).toList := by
  rw [printX, String.toList_ofList]
  exact plain_toDigits (by decide) (by decide) _

theorem length_printD {n : ℤ} (h : InInt32 n) : (printD n).toList.length ≤ 11 := by
  obtain ⟨hlo, hhi⟩ := h
  have hlen := (Nat.length_toDigits_le_iff (b := 10) (k := 10) (n := n.natAbs) (by decide)
    (by decide)).mpr (by omega)
  rw [printD, String.toList_ofList]
  split_ifs
  · rw [List.length_cons]
    omega
  · omega

theorem length_printX (n : ℤ) : (printX n).toList.length ≤ 8 := by
  rw [printX, String.toList_ofList]
  exact (Nat.length_toDigits_le_iff (by decide) (by decide)).mpr (by omega)

end SmartHome.Device
